import Bres.Basic.Denotes
import Bres.Pool.Command
import Bres.Text.Substitute

/-!
# The connect message

The branch of `websockets_callback` for `LWS_CALLBACK_CLIENT_ESTABLISHED`: the
channel id, the token and the member for multiple streams are put into a template by
three calls of `replace` on the bytes of the text.

A value that is put in is not escaped, and the later calls look for their
placeholders in the values as well as in the template. So the message has the members
of the template with the id and the token of the instance if these need no escapes and
hold no placeholder that is looked for later. For an id without the token's placeholder
it has them only then; where that placeholder stands in the id, it may happen that the
later calls restore the id.
-/

namespace Bres

open Text Transition

/-- `src.find(tgt, pos)` -/
def findFrom (src tgt : Bytes) (pos : ℕ) : Option ℕ :=
  (find tgt (src.drop pos)).map (pos + ·)

theorem findFrom_eq_some {src tgt : Bytes} {pos i : ℕ} (htgt : tgt ≠ [])
    (h : findFrom src tgt pos = some i) :
    pos ≤ i ∧ i + tgt.length ≤ src.length := by
  obtain ⟨j, hj, rfl⟩ := Option.map_eq_some_iff.1 h
  have hlength := add_length_le_of_find hj
  have hpos := List.length_pos_of_ne_nil htgt
  rw [List.length_drop] at hlength
  omega

/-- The loop of `replace` with its position in the text. -/
def replaceFrom (tgt dst : Bytes) (htgt : tgt ≠ []) (src : Bytes) (pos : ℕ) : Bytes :=
  match _h : findFrom src tgt pos with
  | none => src
  | some i =>
      replaceFrom tgt dst htgt (src.take i ++ dst ++ src.drop (i + tgt.length))
        (i + dst.length)
termination_by src.length - pos
decreasing_by
  have hbounds := findFrom_eq_some htgt _h
  have hpos := List.length_pos_of_ne_nil htgt
  simp only [List.length_append, List.length_take, List.length_drop]
  omega

/-- `replace` -/
def replace (src tgt dst : Bytes) (htgt : tgt ≠ []) : Bytes := replaceFrom tgt dst htgt src 0

theorem replaceFrom_eq {tgt dst : Bytes} (htgt : tgt ≠ []) (src : Bytes) (pos : ℕ) :
    replaceFrom tgt dst htgt src pos = src.take pos ++ substitute tgt dst (src.drop pos) := by
  induction src, pos using replaceFrom.induct tgt dst htgt with
  | case1 src pos h =>
      rw [replaceFrom]
      split
      · have hnone : find tgt (src.drop pos) = none := Option.map_eq_none_iff.1 h
        rw [substitute_of_find_none hnone, List.take_append_drop]
      · rename_i i hi
        rw [h] at hi
        cases hi
  | case2 src pos i h ih =>
      rw [replaceFrom]
      split
      · rename_i hnone
        rw [h] at hnone
        cases hnone
      rename_i i' hi'
      obtain rfl : i' = i := Option.some.inj (hi'.symm.trans h)
      obtain ⟨j, hj, rfl⟩ := Option.map_eq_some_iff.1 h
      have hlength := add_length_le_of_find hj
      have hpos := List.length_pos_of_ne_nil htgt
      rw [List.length_drop] at hlength
      have hkept : (src.take (pos + j) ++ dst).length = pos + j + dst.length := by
        rw [List.length_append, List.length_take]
        omega
      rw [ih, substitute_of_find htgt hj, ← hkept, List.take_left, List.drop_left, List.take_add,
        List.drop_drop]
      simp [Nat.add_assoc]

/-- The loop replaces the occurrences from the left on. -/
theorem replace_eq_substitute {tgt dst : Bytes} (htgt : tgt ≠ []) (src : Bytes) :
    replace src tgt dst htgt = substitute tgt dst src :=
  replaceFrom_eq htgt src 0

/-- `replace` ends, and it joins by `dst` the parts of the text between the occurrences of
`tgt`. The parts depend on the text and on `tgt` alone, so nothing is ever found in what has
been put in. -/
theorem replace_eq_intercalate {tgt : Bytes} (htgt : tgt ≠ []) (src : Bytes) :
    (∃ parts, Splits tgt src parts) ∧
      ∀ parts, Splits tgt src parts →
        tgt.intercalate parts = src ∧
          ∀ dst, replace src tgt dst htgt = dst.intercalate parts :=
  ⟨exists_splits htgt src, fun _ hparts => ⟨hparts.intercalate_eq, fun dst => by
    rw [replace_eq_substitute, hparts.substitute_eq htgt]⟩⟩

/-- The text that is put in contains the target, and makes up new occurrences of it with
the text behind. -/
theorem replace_eq_intercalate_dollars :
    replace [36, 36, 97, 36, 36, 36, 98] [36, 36] [36, 36, 36] (by decide) =
      [36, 36, 36, 97, 36, 36, 36, 36, 98] := by
  have hlast : Splits [36, 36] [36, 98] [([36, 98] : Bytes)] := .last fun i => by
    match i with
    | 0 => decide
    | 1 => decide
    | i + 2 => simp
  have hsecond : Splits [36, 36] [97, 36, 36, 36, 98] [([97] : Bytes), [36, 98]] :=
    have hkept : ∀ i < ([97] : Bytes).length,
        ¬ [36, 36] <+: ([97] ++ ([36, 36] ++ [36, 98]) : Bytes).drop i := by decide
    .occurrence hkept hlast
  have hfirst : Splits [36, 36] [36, 36, 97, 36, 36, 36, 98] [([] : Bytes), [97], [36, 98]] :=
    have hkept : ∀ i < ([] : Bytes).length,
        ¬ [36, 36] <+: ([] ++ ([36, 36] ++ [97, 36, 36, 36, 98]) : Bytes).drop i := by decide
    .occurrence hkept hsecond
  exact ((replace_eq_intercalate (by decide) _).2 _ hfirst).2 _

def subscribeConnectJson : String :=
  "\x7b" ++
    "\"type\":\"connect\"," ++
    "\"role\":\"recvonly\"," ++
    "\"channel_id\":\"$$WEBRTC_CHANNEL_ID$$\"," ++
    "\"metadata\":\x7b\"access_token\":\"$$WEBRTC_TOKEN$$\"\x7d," ++
    "$$WEBRTC_MULTISTREAM$$" ++
    "\"audio\":true," ++
    "\"video\":\x7b\"codec_type\":\"VP8\",\"bit_rate\":1000\x7d" ++
  "\x7d"

def publishConnectJson : String :=
  "\x7b" ++
    "\"type\":\"connect\"," ++
    "\"role\":\"sendonly\"," ++
    "\"channel_id\":\"$$WEBRTC_CHANNEL_ID$$\"," ++
    "\"metadata\":\x7b\"access_token\":\"$$WEBRTC_TOKEN$$\"," ++
    "\"stats\":false" ++
    "\x7d," ++
    "$$WEBRTC_MULTISTREAM$$" ++
    "\"audio\":true," ++
    "\"video\":\x7b\"codec_type\":\"VP8\",\"bit_rate\":1000\x7d" ++
  "\x7d"

/-- The text that is pushed when a connection is established. -/
def connectMessage (inst : Instance) : Bytes :=
  let json :=
    if inst.order = .subscribe then
      replace (bytes subscribeConnectJson) (bytes "$$WEBRTC_CHANNEL_ID$$")
        (bytes inst.channelId) (by decide)
    else
      replace (bytes publishConnectJson) (bytes "$$WEBRTC_CHANNEL_ID$$")
        (bytes inst.channelId) (by decide)
  let json := replace json (bytes "$$WEBRTC_TOKEN$$") (bytes inst.channelToken) (by decide)
  if inst.channelMultipleStream = "on" then
    replace json (bytes "$$WEBRTC_MULTISTREAM$$") (bytes "\"multistream\":true,") (by decide)
  else
    replace json (bytes "$$WEBRTC_MULTISTREAM$$") (bytes "") (by decide)

/-- `websockets_callback`, the branch of `LWS_CALLBACK_CLIENT_ESTABLISHED`. -/
def clientEstablished (inst : Instance) : Instance :=
  pushEvent inst .webrtcToWebsockets .connect (connectMessage inst)

/-! ## The text that the three calls make -/

/-- The member that is put in for the third placeholder. -/
def multistreamMember (multi : String) : String :=
  if multi = "on" then "\"multistream\":true," else ""

def channelIdTarget : String := "$$WEBRTC_CHANNEL_ID$$"

def tokenTarget : String := "$$WEBRTC_TOKEN$$"

def multistreamTarget : String := "$$WEBRTC_MULTISTREAM$$"

def connectJson (order : InstanceOrder) : String :=
  match order with
  | .subscribe => subscribeConnectJson
  | .publish => publishConnectJson

/-- `replace` on texts in UTF-8, for a placeholder of ASCII. -/
theorem replace_bytes (tgt : String) (htgt : bytes tgt ≠ []) (hne : tgt.toList ≠ [])
    (hascii : Ascii tgt.toList) (src dst : String) :
    replace (bytes src) (bytes tgt) (bytes dst) htgt =
      bytes (String.ofList (substitute tgt.toList dst.toList src.toList)) := by
  rw [replace_eq_substitute, bytes_ofList, bytes_eq_flatMap, bytes_eq_flatMap,
    bytes_eq_flatMap]
  exact (selfSynchronizing_utf8 hascii).substitute_flatMap hne _

namespace Instance

/-- What stands for the token in the message. -/
def tokenBody (inst : Instance) : List Char :=
  substitute multistreamTarget.toList (multistreamMember inst.channelMultipleStream).toList
    inst.channelToken.toList

/-- What stands for the channel id in the message. -/
def channelIdBody (inst : Instance) : List Char :=
  substitute multistreamTarget.toList (multistreamMember inst.channelMultipleStream).toList
    (substitute tokenTarget.toList inst.channelToken.toList inst.channelId.toList)

end Instance

/-- The message as a text. -/
def connectText (inst : Instance) : List Char :=
  substitute multistreamTarget.toList (multistreamMember inst.channelMultipleStream).toList
    (substitute tokenTarget.toList inst.channelToken.toList
      (substitute channelIdTarget.toList inst.channelId.toList
        (connectJson inst.order).toList))

theorem connectMessage_eq (inst : Instance) :
    connectMessage inst = bytes (String.ofList (connectText inst)) := by
  have hchannelId : (if inst.order = .subscribe then
      replace (bytes subscribeConnectJson) (bytes "$$WEBRTC_CHANNEL_ID$$")
        (bytes inst.channelId) (by decide)
    else
      replace (bytes publishConnectJson) (bytes "$$WEBRTC_CHANNEL_ID$$")
        (bytes inst.channelId) (by decide)) =
      bytes (String.ofList (substitute channelIdTarget.toList inst.channelId.toList
        (connectJson inst.order).toList)) := by
    cases inst.order with
    | subscribe => exact replace_bytes channelIdTarget _ (by decide) (by decide) _ _
    | publish => exact replace_bytes channelIdTarget _ (by decide) (by decide) _ _
  have htoken : ∀ src : String, replace (bytes src) (bytes "$$WEBRTC_TOKEN$$")
      (bytes inst.channelToken) (by decide) = _ := fun src =>
    replace_bytes tokenTarget _ (by decide) (by decide) src _
  have hmulti : ∀ src dst : String, replace (bytes src) (bytes "$$WEBRTC_MULTISTREAM$$")
      (bytes dst) (by decide) = _ := fun src dst =>
    replace_bytes multistreamTarget _ (by decide) (by decide) src dst
  simp only [connectMessage, hchannelId, htoken, hmulti, String.toList_ofList]
  unfold connectText multistreamMember
  split <;> rfl

/-! ## The pieces of the templates -/

def beforeChannelId : InstanceOrder → String
  | .subscribe => "\x7b\"type\":\"connect\",\"role\":\"recvonly\",\"channel_id\":\""
  | .publish => "\x7b\"type\":\"connect\",\"role\":\"sendonly\",\"channel_id\":\""

/-- Behind the quotation mark that closes the channel id. -/
def behindChannelId : String := ",\"metadata\":\x7b\"access_token\":\""

/-- Behind the quotation mark that closes the token. -/
def behindToken : InstanceOrder → String
  | .subscribe => "\x7d,"
  | .publish => ",\"stats\":false\x7d,"

/-- Behind the quotation mark after the third placeholder. -/
def behindMultistream : String :=
  "audio\":true,\"video\":\x7b\"codec_type\":\"VP8\",\"bit_rate\":1000\x7d\x7d"

theorem connectJson_eq (order : InstanceOrder) :
    connectJson order =
      beforeChannelId order ++ channelIdTarget ++ "\"" ++ behindChannelId ++ tokenTarget ++
        "\"" ++ behindToken order ++ multistreamTarget ++ "\"" ++ behindMultistream := by
  cases order <;> decide +kernel

theorem channelIdTarget_toList : channelIdTarget.toList =
    ['$', '$', 'W', 'E', 'B', 'R', 'T', 'C', '_', 'C', 'H', 'A', 'N', 'N', 'E', 'L', '_', 'I',
      'D', '$', '$'] := String.toList_ofList

theorem tokenTarget_toList : tokenTarget.toList =
    ['$', '$', 'W', 'E', 'B', 'R', 'T', 'C', '_', 'T', 'O', 'K', 'E', 'N', '$', '$'] :=
  String.toList_ofList

theorem multistreamTarget_toList : multistreamTarget.toList =
    ['$', '$', 'W', 'E', 'B', 'R', 'T', 'C', '_', 'M', 'U', 'L', 'T', 'I', 'S', 'T', 'R', 'E',
      'A', 'M', '$', '$'] := String.toList_ofList

/-- A placeholder that does not stand in another one. -/
theorem substitute_targets (dst : List Char) :
    substitute channelIdTarget.toList dst tokenTarget.toList = tokenTarget.toList ∧
      substitute channelIdTarget.toList dst multistreamTarget.toList =
        multistreamTarget.toList ∧
      substitute tokenTarget.toList dst multistreamTarget.toList = multistreamTarget.toList := by
  rw [channelIdTarget_toList, tokenTarget_toList, multistreamTarget_toList]
  exact ⟨substitute_of_find_none (by decide), substitute_of_find_none (by decide),
    substitute_of_find_none (by decide)⟩

/-- A text with a value for each placeholder. -/
def filled (order : InstanceOrder) (channelId token multistream : List Char) : List Char :=
  (beforeChannelId order).toList ++ (channelId ++ '"' ::
    (behindChannelId.toList ++ (token ++ '"' ::
      ((behindToken order).toList ++ (multistream ++ '"' :: behindMultistream.toList)))))

/-- A placeholder is looked for in the values only. -/
theorem substitute_filled {tgt : List Char} (htgt : tgt.head? = some '$') (hquote : '"' ∉ tgt)
    (dst : List Char) (order : InstanceOrder) (channelId token multistream : List Char) :
    substitute tgt dst (filled order channelId token multistream) =
      filled order (substitute tgt dst channelId) (substitute tgt dst token)
        (substitute tgt dst multistream) := by
  have hne : tgt ≠ [] := by
    rintro rfl
    cases htgt
  have hkept : ∀ {kept : List Char}, '$' ∉ kept → ∀ rest,
      substitute tgt dst (kept ++ rest) = kept ++ substitute tgt dst rest := by
    intro kept hdollar rest
    refine substitute_append_of_head hne (fun c hc hhead => hdollar ?_) rest
    rw [htgt] at hhead
    rwa [Option.some.inj hhead]
  have hbefore : '$' ∉ (beforeChannelId order).toList := by
    cases order <;> decide +kernel
  have hbehind : '$' ∉ behindChannelId.toList := by decide +kernel
  have hbehindToken : '$' ∉ (behindToken order).toList := by
    cases order <;> decide +kernel
  have hlast : substitute tgt dst behindMultistream.toList = behindMultistream.toList := by
    have hdollar : '$' ∉ behindMultistream.toList := by decide +kernel
    simpa using hkept hdollar []
  unfold filled
  rw [hkept hbefore, substitute_append_cons hne hquote, hkept hbehind,
    substitute_append_cons hne hquote, hkept hbehindToken, substitute_append_cons hne hquote,
    hlast]

theorem substitute_self {α : Type*} [DecidableEq α] {tgt : List α} (htgt : tgt ≠ [])
    (dst : List α) : substitute tgt dst tgt = dst := by
  have h : substitute tgt dst (tgt ++ []) = dst ++ substitute tgt dst [] :=
    substitute_append_of_target htgt []
  rwa [substitute_nil, List.append_nil, List.append_nil] at h

theorem connectText_eq (inst : Instance) :
    connectText inst = filled inst.order inst.channelIdBody inst.tokenBody
      (multistreamMember inst.channelMultipleStream).toList := by
  have htemplate : (connectJson inst.order).toList = filled inst.order channelIdTarget.toList
      tokenTarget.toList multistreamTarget.toList := by
    rw [connectJson_eq]
    simp only [String.toList_append, filled, List.append_assoc]
    rfl
  have hquote : '"' ∉ channelIdTarget.toList ∧ '"' ∉ tokenTarget.toList ∧
      '"' ∉ multistreamTarget.toList := by
    rw [channelIdTarget_toList, tokenTarget_toList, multistreamTarget_toList]
    decide
  obtain ⟨htoken, hmultistream, -⟩ := substitute_targets inst.channelId.toList
  obtain ⟨-, -, hmultistream'⟩ := substitute_targets inst.channelToken.toList
  unfold connectText Instance.channelIdBody Instance.tokenBody
  rw [htemplate, substitute_filled rfl hquote.1, substitute_self (by decide), htoken,
    hmultistream, substitute_filled rfl hquote.2.1, substitute_self (by decide),
    hmultistream', substitute_filled rfl hquote.2.2, substitute_self (by decide)]

/-! ## The value of the message -/

/-- The members of the template with the values of the instance. -/
def connectValue (inst : Instance) : Json :=
  let multistream : List (String × Json) :=
    if inst.channelMultipleStream = "on" then [("multistream", .bool true)] else []
  let video : Json := .object [("codec_type", .string "VP8"), ("bit_rate", .number "1000")]
  match inst.order with
  | .subscribe =>
      .object ([("type", .string "connect"), ("role", .string "recvonly"),
        ("channel_id", .string inst.channelId),
        ("metadata", .object [("access_token", .string inst.channelToken)])] ++
        multistream ++ [("audio", .bool true), ("video", video)])
  | .publish =>
      .object ([("type", .string "connect"), ("role", .string "sendonly"),
        ("channel_id", .string inst.channelId),
        ("metadata", .object [("access_token", .string inst.channelToken),
          ("stats", .bool false)])] ++
        multistream ++ [("audio", .bool true), ("video", video)])

/-- The tokens of the template up to the value of the channel id. -/
def tokensBefore (order : InstanceOrder) : List Token :=
  let role := match order with
    | .subscribe => "recvonly"
    | .publish => "sendonly"
  [.lbrace, .string "type".toList, .colon, .string "connect".toList, .comma,
    .string "role".toList, .colon, .string role.toList, .comma, .string "channel_id".toList,
    .colon]

def tokensBetween : List Token :=
  [.comma, .string "metadata".toList, .colon, .lbrace, .string "access_token".toList, .colon]

def statsTokens : InstanceOrder → List Token
  | .subscribe => []
  | .publish => [.comma, .string "stats".toList, .colon, .bool false]

def multistreamTokens (multi : String) : List Token :=
  if multi = "on" then [.string "multistream".toList, .colon, .bool true, .comma] else []

def lastTokens : List Token :=
  [.string "audio".toList, .colon, .bool true, .comma, .string "video".toList, .colon, .lbrace,
    .string "codec_type".toList, .colon, .string "VP8".toList, .comma,
    .string "bit_rate".toList, .colon, .number "1000".toList, .rbrace, .rbrace]

/-- The tokens behind the value of the token. -/
def tokensBehind (order : InstanceOrder) (multi : String) : List Token :=
  statsTokens order ++ .rbrace :: .comma :: (multistreamTokens multi ++ lastTokens)

theorem connectValue_tokens (inst : Instance) :
    (connectValue inst).tokens =
      tokensBefore inst.order ++ .string inst.channelId.toList ::
        (tokensBetween ++ .string inst.channelToken.toList ::
          tokensBehind inst.order inst.channelMultipleStream) := by
  unfold connectValue tokensBehind multistreamTokens
  cases inst.order with
  | subscribe => split <;> rfl
  | publish => split <;> rfl

theorem run_before (order : InstanceOrder) :
    run Lexer.step Lexer.start (beforeChannelId order).toList =
      some ⟨.string [], (tokensBefore order).reverse⟩ := by
  cases order <;> decide +kernel

theorem run_between (tokens : List Token) :
    run Lexer.step ⟨.outside [], tokens⟩ behindChannelId.toList =
      some ⟨.string [], tokensBetween.reverse ++ tokens⟩ := by
  have hrun : run Lexer.step ⟨.outside [], []⟩ behindChannelId.toList =
      some ⟨.string [], tokensBetween.reverse⟩ := by decide +kernel
  rw [Lexer.run_eq, hrun]
  rfl

/-- The end of the text, behind the quotation mark that closes the token. -/
def filledEnd (order : InstanceOrder) (multi : String) : List Char :=
  (behindToken order).toList ++ ((multistreamMember multi).toList ++ '"' ::
    behindMultistream.toList)

theorem run_behind (order : InstanceOrder) (multi : String) (tokens : List Token) :
    run Lexer.step ⟨.outside [], tokens⟩ (filledEnd order multi) =
      some ⟨.outside [], (tokensBehind order multi).reverse ++ tokens⟩ := by
  have hrun : run Lexer.step ⟨.outside [], []⟩ (filledEnd order multi) =
      some ⟨.outside [], (tokensBehind order multi).reverse⟩ := by
    unfold filledEnd multistreamMember tokensBehind multistreamTokens
    cases order <;> split <;> decide +kernel
  rw [Lexer.run_eq, hrun]
  rfl

theorem behindChannelId_resists : Resists behindChannelId.toList := by
  have hsplit : behindChannelId.toList =
      [','] ++ '"' :: "metadata\":\x7b\"access_token\":\"".toList := by decide +kernel
  rw [hsplit]
  exact resists_of_plain (by decide) (by decide +kernel)

theorem filledEnd_resists (order : InstanceOrder) (multi : String) :
    Resists (filledEnd order multi) := by
  cases order with
  | subscribe =>
      have hbehind : (behindToken .subscribe).toList = ['\x7d', ','] := by decide +kernel
      rw [filledEnd, hbehind]
      unfold multistreamMember
      split
      · have hmember : "\"multistream\":true,".toList = '"' :: "multistream\":true,".toList := by
          decide +kernel
        rw [hmember]
        exact resists_of_plain (by decide) (by decide +kernel)
      · exact resists_of_plain (by decide) (by decide +kernel)
  | publish =>
      have hbehind : (behindToken .publish).toList =
          [','] ++ '"' :: "stats\":false\x7d,".toList := by decide +kernel
      rw [filledEnd, hbehind, List.append_assoc]
      unfold multistreamMember
      split
      · exact resists_of_plain (by decide) (by decide +kernel)
      · exact resists_of_plain (by decide) (by decide +kernel)

/-- How the lexer gets through a message: each value leaves it in a string, after the
tokens that have been added. -/
theorem run_filled_iff {order : InstanceOrder} {channelId token : List Char} {multi : String}
    {l : Lexer} :
    run Lexer.step Lexer.start
        (filled order channelId token (multistreamMember multi).toList) = some l ↔
      ∃ id addedId value addedToken,
        run Lexer.step ⟨.string [], []⟩ channelId = some ⟨.string id, addedId⟩ ∧
        run Lexer.step ⟨.string [], []⟩ token = some ⟨.string value, addedToken⟩ ∧
        ⟨.outside [], (tokensBehind order multi).reverse ++ .string value ::
          (addedToken ++ (tokensBetween.reverse ++ .string id ::
            (addedId ++ (tokensBefore order).reverse)))⟩ = l := by
  have hfilled : filled order channelId token (multistreamMember multi).toList =
      (beforeChannelId order).toList ++ (channelId ++ '"' :: (behindChannelId.toList ++
        (token ++ '"' :: filledEnd order multi))) := rfl
  have hbehind : ∀ tokens, run Lexer.step ⟨.outside [], tokens⟩
      (behindChannelId.toList ++ (token ++ '"' :: filledEnd order multi)) = some l ↔
      ∃ value addedToken,
        run Lexer.step ⟨.string [], []⟩ token = some ⟨.string value, addedToken⟩ ∧
        ⟨.outside [], (tokensBehind order multi).reverse ++ .string value ::
          (addedToken ++ (tokensBetween.reverse ++ tokens))⟩ = l := by
    intro tokens
    rw [run_append (run_between tokens), Lexer.run_hole_iff (filledEnd_resists order multi)]
    simp only [run_behind, Option.some.injEq]
  rw [hfilled, run_append (run_before order),
    Lexer.run_hole_iff (behindChannelId_resists.append _)]
  simp only [hbehind]
  constructor
  · rintro ⟨id, addedId, hid, value, addedToken, htoken, rfl⟩
    exact ⟨id, addedId, value, addedToken, hid, htoken, rfl⟩
  · rintro ⟨id, addedId, value, addedToken, hid, htoken, rfl⟩
    exact ⟨id, addedId, hid, value, addedToken, htoken, rfl⟩

/-- The tokens of a message are those of the template with two values exactly if the
values are read in their places. -/
theorem lex_filled_iff {order : InstanceOrder} {channelId token id value : List Char}
    {multi : String} :
    lex (filled order channelId token (multistreamMember multi).toList) =
        some (tokensBefore order ++ .string id ::
          (tokensBetween ++ .string value :: tokensBehind order multi)) ↔
      Reads channelId id ∧ Reads token value := by
  constructor
  · intro h
    unfold lex at h
    cases hrun : run Lexer.step Lexer.start
        (filled order channelId token (multistreamMember multi).toList) with
    | none => simp [hrun] at h
    | some l =>
        obtain ⟨id', addedId, value', addedToken, hid, htoken, rfl⟩ := run_filled_iff.1 hrun
        rw [hrun] at h
        have htokens := List.reverse_eq_iff.1 (Option.some.inj h)
        have hlength := congrArg List.length htokens
        simp only [List.length_reverse, List.length_append, List.length_cons] at hlength
        obtain rfl : addedId = [] := List.eq_nil_of_length_eq_zero (by omega)
        obtain rfl : addedToken = [] := List.eq_nil_of_length_eq_zero (by omega)
        simp only [List.nil_append, List.reverse_append, List.reverse_cons, List.append_assoc,
          List.singleton_append, List.append_cancel_left_eq] at htokens
        cases htokens
        exact ⟨hid, htoken⟩
  · rintro ⟨hid, htoken⟩
    unfold lex
    rw [run_filled_iff.2 ⟨id, [], value, [], hid, htoken, rfl⟩]
    simp [endWord]

/-! ## Values that come through -/

instance (body value : List Char) : Decidable (Reads body value) :=
  inferInstanceAs (Decidable (_ = _))

/-- The value needs no escapes, and the third placeholder does not stand in it. -/
def Insertable (value : List Char) : Prop :=
  Plain value ∧ find multistreamTarget.toList value = none

instance (value : List Char) : Decidable (Insertable value) :=
  inferInstanceAs (Decidable (_ ∧ _))

/-- What the last call leaves of a value is read as the value if and only if it is
insertable: the member for multiple streams has an unescaped quotation mark, and
without it the value becomes shorter. -/
theorem reads_substitute_iff (multi : String) (value : List Char) :
    Reads (substitute multistreamTarget.toList (multistreamMember multi).toList value) value ↔
      Insertable value := by
  have htgt : multistreamTarget.toList ≠ [] := by decide
  cases hfind : find multistreamTarget.toList value with
  | none =>
      rw [substitute_of_find_none hfind, reads_self_iff, Insertable, hfind]
      exact (and_iff_left rfl).symm
  | some i =>
      refine iff_of_false (fun hreads => ?_) (fun h => ?_)
      · by_cases hmulti : multi = "on"
        · have hmember : (multistreamMember multi).toList =
              '"' :: ("multistream".toList ++ '"' :: ":true,".toList) := by
            rw [multistreamMember, if_pos hmulti]
            decide +kernel
          rw [substitute_of_find htgt hfind, hmember, List.append_assoc, List.cons_append,
            List.append_assoc, List.cons_append] at hreads
          exact not_reads_of_quotes (by decide) hreads
        · have hmember : (multistreamMember multi).toList = [] := by
            rw [multistreamMember, if_neg hmulti]
            rfl
          rw [hmember] at hreads
          have hlt := length_substitute_nil_lt htgt hfind
          exact absurd hreads.length_le hlt.not_ge
      · rw [Insertable, hfind] at h
        cases h.2

namespace Instance

/-- The token and the channel id are insertable, and the token's placeholder does not stand
in the id. -/
def Legible (inst : Instance) : Prop :=
  Insertable inst.channelToken.toList ∧ Insertable inst.channelId.toList ∧
    find tokenTarget.toList inst.channelId.toList = none

instance (inst : Instance) : Decidable inst.Legible :=
  inferInstanceAs (Decidable (_ ∧ _ ∧ _))

/-- Without the token's placeholder in the id, each value is read as it was put in if and only
if it is insertable. -/
theorem legible_iff {inst : Instance}
    (hfind : find tokenTarget.toList inst.channelId.toList = none) :
    inst.Legible ↔ Reads inst.channelIdBody inst.channelId.toList ∧
      Reads inst.tokenBody inst.channelToken.toList := by
  have htoken : Reads inst.tokenBody inst.channelToken.toList ↔
      Insertable inst.channelToken.toList := reads_substitute_iff _ _
  have hid : Reads inst.channelIdBody inst.channelId.toList ↔
      Insertable inst.channelId.toList := by
    rw [channelIdBody, substitute_of_find_none hfind, reads_substitute_iff]
  rw [htoken, hid, Legible, and_comm, and_iff_left hfind]

end Instance

/-- The members of the value that the instance decides. -/
theorem connectValue_find (inst : Instance) :
    (connectValue inst).HasString "channel_id" inst.channelId ∧
      (∃ metadata, (connectValue inst).find "metadata" = some metadata ∧
        metadata.HasString "access_token" inst.channelToken) ∧
      ((connectValue inst).find "multistream" = some (.bool true) ↔
        inst.channelMultipleStream = "on") := by
  unfold connectValue
  cases inst.order with
  | subscribe => split <;> simp_all [Json.HasString, Json.find, List.lookup_cons]
  | publish => split <;> simp_all [Json.HasString, Json.find, List.lookup_cons]

/-- The message has the values of the instance if they are read back from their places. -/
theorem denotes_iff_reads (inst : Instance) :
    Denotes (connectMessage inst) (connectValue inst) ↔
      Reads inst.channelIdBody inst.channelId.toList ∧
        Reads inst.tokenBody inst.channelToken.toList := by
  rw [connectMessage_eq, denotes_bytes_iff, String.toList_ofList, connectText_eq,
    connectValue_tokens, lex_filled_iff]

/-- The message is a JSON text with the members of the template and the values of the
instance if neither value needs an escape or holds a placeholder that is replaced after the
value has been put in. For a channel id without the placeholder of the token this is also
necessary. -/
theorem connectMessage_denotes_of_legible (inst : Instance) :
    (inst.Legible → Denotes (connectMessage inst) (connectValue inst)) ∧
      (find tokenTarget.toList inst.channelId.toList = none →
        (Denotes (connectMessage inst) (connectValue inst) ↔ inst.Legible)) := by
  have hiff : find tokenTarget.toList inst.channelId.toList = none →
      (Denotes (connectMessage inst) (connectValue inst) ↔ inst.Legible) := fun hfind => by
    rw [denotes_iff_reads, Instance.legible_iff hfind]
  exact ⟨fun h => (hiff h.2.2).2 h, hiff⟩

/-- A channel id and a token without special characters. -/
theorem connectMessage_denotes_sora :
    Denotes (connectMessage { channelId := "sora", channelToken := "token" })
      (connectValue { channelId := "sora", channelToken := "token" }) :=
  (connectMessage_denotes_of_legible { channelId := "sora", channelToken := "token" }).1
    (by decide +kernel)

/-- A backslash and a placeholder can make up for each other. -/
example : Denotes
    (connectMessage
      { channelId := "\\$$WEBRTC_TOKEN$$", channelToken := "u005c$$WEBRTC_TOKEN$$" })
    (connectValue
      { channelId := "\\$$WEBRTC_TOKEN$$", channelToken := "u005c$$WEBRTC_TOKEN$$" }) :=
  (denotes_iff_reads _).2 (by decide +kernel)

/-- A command with a quotation mark in the channel id. -/
def quotedCommand : String :=
  "\x7b\"type\":\"recieve/channel/add\",\"channel_id\":\"a\\\"b\",\"channel_token\":\"token\"," ++
    "\"channel_multiple_stream\":\"on\",\"signaling_server\":\"localhost\"\x7d"

def quotedChannel : Json :=
  .object [("type", .string "recieve/channel/add"), ("channel_id", .string "a\"b"),
    ("channel_token", .string "token"), ("channel_multiple_stream", .string "on"),
    ("signaling_server", .string "localhost")]

/-- The channel is opened, and its message is not the template with its values; nor is
that of a channel whose id is the placeholder of the token. -/
theorem not_denotes_quoted :
    Denotes (bytes quotedCommand) quotedChannel ∧
      (∃ pool, subscribeSideAddChannel (fun _ => some quotedChannel) (bytes quotedCommand)
          { stbiLoad := fun _ => none, texture := 1 } Pool.startup = .done pool ∧
        ¬ Denotes (connectMessage (pool.slot 0)) (connectValue (pool.slot 0))) ∧
      ¬ Denotes
        (connectMessage { channelId := "$$WEBRTC_TOKEN$$", channelToken := "token" })
        (connectValue { channelId := "$$WEBRTC_TOKEN$$", channelToken := "token" }) := by
  refine ⟨?_, ?_, ?_⟩
  · rw [denotes_bytes_iff]
    decide +kernel
  · obtain ⟨pool, hpool, hid, htoken, hmulti⟩ : ∃ pool, subscribeSideAddChannel
        (fun _ => some quotedChannel) (bytes quotedCommand)
          { stbiLoad := fun _ => none, texture := 1 } Pool.startup = .done pool ∧
        (pool.slot 0).channelId = "a\"b" ∧ (pool.slot 0).channelToken = "token" ∧
        (pool.slot 0).channelMultipleStream = "on" := ⟨_, rfl, rfl, rfl, rfl⟩
    refine ⟨pool, hpool, ?_⟩
    rw [denotes_iff_reads, Instance.channelIdBody, Instance.tokenBody, hid, htoken, hmulti]
    decide +kernel
  · rw [denotes_iff_reads]
    decide +kernel

end Bres
