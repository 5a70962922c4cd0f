import Bres.Basic.Denotes
import Bres.Basic.Instance
import Bres.Transition.Outcome
import Mathlib.Data.List.Forall2

/-!
# The ICE servers of an offer

The part of `webrtc_event` for an offer in front of the peer connection: two loops that
flatten `config.iceServers` into a list with one entry for each URL. `operator[]` is
used on copies, where it inserts `null` for a missing member, and `null` is no string.
So a server without credentials, as every STUN server is, makes the conversion throw.
-/

namespace Bres

open Transition

namespace Json

/-- `at(key)` -/
def atKey (key : String) : Json → Except Exn Json
  | object members =>
      match members.lookup key with
      | none => .error .outOfRange
      | some v => .ok v
  | _ => .error .typeError

/-- `operator[]` on a value that is not `const`: a missing member is inserted, and
`null` becomes an object. -/
def subscript (key : String) : Json → Except Exn Json
  | object members => .ok ((members.lookup key).getD null)
  | null => .ok null
  | _ => .error .typeError

/-- The conversion to a `std::string`. -/
def toStdString (v : Json) : Except Exn String :=
  match v.getString with
  | none => .error .typeError
  | some s => .ok s

/-- `const std::string text = json[key]` -/
def stringAt (key : String) (json : Json) : Except Exn String := do
  let v ← json.subscript key
  v.toStdString

/-- What a range-based `for` meets: a value that is neither an array nor an object
is met itself. -/
def items : Json → List Json
  | null => []
  | array elements => elements
  | object members => members.map Prod.snd
  | v => [v]

theorem atKey_eq_ok {key : String} {json v : Json} (h : json.find key = some v) :
    json.atKey key = .ok v := by
  cases json with
  | object members =>
      have hlookup : members.lookup key = some v := h
      rw [atKey, hlookup]
  | _ => cases h

end Json

/-- `webrtc::PeerConnectionInterface::IceServer`, the members that are set. -/
structure IceServer where
  uri : String
  username : String
  password : String
deriving DecidableEq

/-- The body of the loop over the servers. -/
def pushServers (iceServers : List IceServer) (srv : Json) : Except Exn (List IceServer) := do
  let username ← srv.stringAt "username"
  let credential ← srv.stringAt "credential"
  let urls ← srv.subscript "urls"
  urls.items.foldlM
    (fun iceServers url => do
      let uri ← url.toStdString
      return iceServers ++ [⟨uri, username, credential⟩])
    iceServers

/-- `webrtc_event` for an offer, up to `cfg.servers`. -/
def webrtcEventServers (parse : Bytes → Option Json) (event : Bytes) :
    Except Exn (List IceServer) :=
  match parse event with
  | none => .error .parseError
  | some json => do
      let srvs ← (← json.atKey "config").atKey "iceServers"
      srvs.items.foldlM pushServers []

/-! ## Valid servers -/

/-- The URLs of a server, one or a list of them. -/
inductive ServerUrls where
  | one (url : String)
  | list (urls : List String)

namespace ServerUrls

def toList : ServerUrls → List String
  | one url => [url]
  | list urls => urls

def json : ServerUrls → Json
  | one url => .string url
  | list urls => .array (urls.map Json.string)

theorem items_json (urls : ServerUrls) : urls.json.items = urls.toList.map Json.string := by
  cases urls <;> rfl

end ServerUrls

/-- A server of a WebRTC configuration. -/
structure ServerEntry where
  urls : ServerUrls
  username : Option String := none
  credential : Option String := none

namespace ServerEntry

/-- The entry is what the value says. -/
structure Describes (srv : Json) (entry : ServerEntry) : Prop where
  urls : srv.find "urls" = some entry.urls.json
  username : srv.find "username" = entry.username.map Json.string
  credential : srv.find "credential" = entry.credential.map Json.string

/-- One ICE server for each URL, with the credentials of the entry. -/
def servers (entry : ServerEntry) : List IceServer :=
  entry.urls.toList.map fun url =>
    ⟨url, entry.username.getD "", entry.credential.getD ""⟩

/-- The entry has a user name and a credential, as one for TURN has. -/
def HasCredentials (entry : ServerEntry) : Prop :=
  entry.username.isSome ∧ entry.credential.isSome

instance (entry : ServerEntry) : Decidable entry.HasCredentials :=
  inferInstanceAs (Decidable (_ ∧ _))

end ServerEntry

/-- The event is an offer whose `config.iceServers` lists the entries. -/
def OffersServers (parse : Bytes → Option Json) (event : Bytes) (entries : List ServerEntry) :
    Prop :=
  ∃ json config srvs, parse event = some json ∧ json.find "config" = some config ∧
    config.find "iceServers" = some (.array srvs) ∧
    List.Forall₂ ServerEntry.Describes srvs entries

/-! ## What the loops do -/

/-- The loop over the URLs of a server. -/
theorem foldlM_urls (username credential : String) :
    ∀ (urls : List String) (iceServers : List IceServer),
      (urls.map Json.string).foldlM
          (fun iceServers url => do
            let uri ← url.toStdString
            return iceServers ++ [⟨uri, username, credential⟩]) iceServers =
        (.ok (iceServers ++ urls.map fun url => ⟨url, username, credential⟩) :
          Except Exn (List IceServer))
  | [], iceServers => by
      rw [List.map_nil, List.map_nil, List.append_nil]
      rfl
  | url :: urls, iceServers => by
      rw [List.map_cons, List.foldlM_cons, List.map_cons, ← List.singleton_append,
        ← List.append_assoc, ← foldlM_urls username credential urls]
      rfl

/-- A value with a member is an object, and a member that it lacks is read as `null`. -/
theorem subscript_eq_of_find {srv v : Json} {key key' : String} (hobject : srv.find key' = some v) :
    srv.subscript key = .ok ((srv.find key).getD .null) := by
  cases srv with
  | object members => rfl
  | _ => cases hobject

/-- A member that is a string if it is present. -/
theorem stringAt_eq_of_find {srv v : Json} {key key' : String} {text : Option String}
    (hobject : srv.find key' = some v) (h : srv.find key = text.map Json.string) :
    srv.stringAt key = text.elim (.error .typeError) .ok := by
  rw [Json.stringAt, subscript_eq_of_find hobject, h]
  cases text <;> rfl

theorem pushServers_eq {srv : Json} {entry : ServerEntry} (h : entry.Describes srv)
    (iceServers : List IceServer) :
    pushServers iceServers srv =
      if entry.HasCredentials then .ok (iceServers ++ entry.servers)
      else .error .typeError := by
  have hurls : srv.subscript "urls" = .ok entry.urls.json := by
    rw [subscript_eq_of_find h.urls, h.urls]
    rfl
  obtain ⟨urls, username, credential⟩ := entry
  rw [pushServers, stringAt_eq_of_find h.urls h.username, stringAt_eq_of_find h.urls h.credential,
    hurls]
  cases username with
  | none => rw [if_neg (fun h => Bool.false_ne_true h.1)]; rfl
  | some username =>
      cases credential with
      | none => rw [if_neg (fun h => Bool.false_ne_true h.2)]; rfl
      | some credential =>
          rw [if_pos ⟨rfl, rfl⟩, ServerEntry.servers]
          have hloop := foldlM_urls username credential urls.toList iceServers
          rw [← ServerUrls.items_json] at hloop
          exact hloop

/-- The loop over the servers ends with their lists joined, or it meets a server without
credentials. -/
theorem foldlM_pushServers {srvs : List Json} {entries : List ServerEntry}
    (h : List.Forall₂ ServerEntry.Describes srvs entries) (iceServers : List IceServer) :
    srvs.foldlM pushServers iceServers =
      if ∀ entry ∈ entries, entry.HasCredentials then
        .ok (iceServers ++ entries.flatMap ServerEntry.servers)
      else .error .typeError := by
  induction h generalizing iceServers with
  | nil =>
      rw [if_pos (List.forall_mem_nil _), List.flatMap_nil, List.append_nil]
      rfl
  | @cons srv entry srvs entries hentry hentries ih =>
      rw [List.foldlM_cons, pushServers_eq hentry]
      simp only [List.forall_mem_cons, List.flatMap_cons]
      by_cases hhead : entry.HasCredentials
      · simp only [hhead, true_and, if_true]
        rw [← List.append_assoc]
        exact ih _
      · simp only [hhead, false_and, if_false]
        rfl

/-- The servers of an offer are read as they are meant, one for each URL and with the
credentials of its entry, if and only if every entry has a user name and a credential. -/
theorem webrtcEventServers_eq_iff {parse : Bytes → Option Json} {event : Bytes}
    {entries : List ServerEntry} (h : OffersServers parse event entries) :
    webrtcEventServers parse event = .ok (entries.flatMap ServerEntry.servers) ↔
      ∀ entry ∈ entries, entry.HasCredentials := by
  obtain ⟨json, config, srvs, hparse, hconfig, hservers, hentries⟩ := h
  have hread : webrtcEventServers parse event = srvs.foldlM pushServers [] := by
    rw [webrtcEventServers, hparse]
    simp only [Json.atKey_eq_ok hconfig, bind, Except.bind, Json.atKey_eq_ok hservers, Json.items]
  rw [hread, foldlM_pushServers hentries]
  split
  · rename_i hall
    exact iff_of_true rfl hall
  · rename_i hnot
    exact iff_of_false (fun h => by cases h) hnot

/-! ## Two offers -/

/-- An offer with one server. -/
def offerWith (server : List (String × Json)) : Json :=
  .object [("type", .string "offer"),
    ("config", .object [("iceServers", .array [.object server])])]

def turnServer : List (String × Json) :=
  [("urls", .array [.string "turn:a", .string "turn:b"]), ("username", .string "user"),
    ("credential", .string "secret")]

def turnText : String :=
  "\x7b\"type\":\"offer\",\"config\":\x7b\"iceServers\":[\x7b\"urls\":[\"turn:a\",\"turn:b\"]," ++
    "\"username\":\"user\",\"credential\":\"secret\"\x7d]\x7d\x7d"

/-- A server with two URLs becomes two servers. -/
theorem webrtcEventServers_eq_iff_turn :
    Denotes (bytes turnText) (offerWith turnServer) ∧
      webrtcEventServers (fun _ => some (offerWith turnServer)) (bytes turnText) =
        .ok [⟨"turn:a", "user", "secret"⟩, ⟨"turn:b", "user", "secret"⟩] := by
  have hoffers : OffersServers (fun _ => some (offerWith turnServer)) (bytes turnText)
      [⟨.list ["turn:a", "turn:b"], some "user", some "secret"⟩] :=
    ⟨_, _, _, rfl, rfl, rfl, .cons ⟨rfl, rfl, rfl⟩ .nil⟩
  refine ⟨denotes_bytes_iff.2 (by decide +kernel), (webrtcEventServers_eq_iff hoffers).2 ?_⟩
  decide

def stunServer : List (String × Json) := [("urls", .string "stun:a")]

def stunText : String :=
  "\x7b\"type\":\"offer\",\"config\":\x7b\"iceServers\":[\x7b\"urls\":\"stun:a\"\x7d]\x7d\x7d"

/-- A server without credentials is valid, and makes the conversion throw. -/
theorem webrtcEventServers_stun_throws :
    Denotes (bytes stunText) (offerWith stunServer) ∧
      OffersServers (fun _ => some (offerWith stunServer)) (bytes stunText)
        [⟨.one "stun:a", none, none⟩] ∧
      webrtcEventServers (fun _ => some (offerWith stunServer)) (bytes stunText) =
        .error .typeError :=
  ⟨denotes_bytes_iff.2 (by decide +kernel),
    ⟨_, _, _, rfl, rfl, rfl, .cons ⟨rfl, rfl, rfl⟩ .nil⟩, rfl⟩

end Bres
