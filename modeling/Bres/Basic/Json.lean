import Mathlib.Data.List.Basic
import Mathlib.Data.List.DropRight

/-!
# JSON values and the accessors the program uses

Commands and signaling messages are JSON texts read by `nlohmann::json`, a
library outside the repository. The reader is a parameter of the model,
`parse : Bytes → Option Json`, with `none` where `nlohmann::json::parse` throws
and where `nlohmann::json::accept` answers `false`. The value type and the two
accessors below follow the library's documentation: a lookup in a value that is
not an object finds nothing, and `get<std::string>()` fails on every value that
is not a string.

A decoded JSON string is valid UTF-8, so it is a `String`; a text that arrives
over a socket is a list of bytes.
-/

namespace Bres

/-- The contents of a `std::string` or of a character buffer. -/
abbrev Bytes := List UInt8

/-- The bytes of a literal of the source. -/
def bytes (s : String) : Bytes := s.toUTF8.data.toList

theorem bytes_ofList (cs : List Char) :
    bytes (String.ofList cs) = cs.flatMap String.utf8EncodeChar := by
  simp [bytes, List.utf8Encode]

inductive Json where
  | null
  | bool (b : Bool)
  | number (lexeme : String)
  | string (s : String)
  | array (elements : List Json)
  | object (members : List (String × Json))

namespace Json

/-- `find(key)`, with `none` for `end()`. -/
def find (key : String) : Json → Option Json
  | object members => members.lookup key
  | _ => none

/-- `get<std::string>()`, with `none` where it throws a `type_error`. -/
def getString : Json → Option String
  | string s => some s
  | _ => none

/-- The text of a member that is a string. -/
def text (json : Json) (key : String) : Option String :=
  (json.find key).bind getString

/-- The member is present. -/
def Has (json : Json) (key : String) : Prop := ∃ v, json.find key = some v

/-- The member is present and is a string. -/
def HasString (json : Json) (key text : String) : Prop :=
  json.find key = some (string text)

/-- The member is a string if it is present. -/
def StringOrAbsent (json : Json) (key : String) : Prop :=
  ∀ v, json.find key = some v → ∃ text, v = string text

theorem getString_eq_some_iff (v : Json) (text : String) :
    v.getString = some text ↔ v = string text := by
  cases v <;> simp [getString]

theorem text_eq_some_iff (json : Json) (key text : String) :
    json.text key = some text ↔ json.HasString key text := by
  simp only [Json.text, HasString, Option.bind_eq_some_iff, getString_eq_some_iff]
  constructor
  · rintro ⟨v, hv, rfl⟩
    exact hv
  · exact fun h => ⟨_, h, rfl⟩

theorem HasString.stringOrAbsent {json : Json} {key text : String}
    (h : json.HasString key text) : json.StringOrAbsent key := fun _ hv =>
  ⟨text, Option.some.inj (hv.symm.trans h)⟩

theorem HasString.unique {json : Json} {key s t : String}
    (hs : json.HasString key s) (ht : json.HasString key t) : s = t := by
  have h : some (string s) = some (string t) := hs.symm.trans ht
  injection h with h
  injection h

end Json

/-! ## Texts of flat objects -/

/-- The text of a scalar; a string needs no escapes. -/
def scalarText : Json → Bytes
  | .string s => bytes "\"" ++ bytes s ++ bytes "\""
  | .number lexeme => bytes lexeme
  | .bool true => bytes "true"
  | .bool false => bytes "false"
  | _ => bytes "null"

/-- `dump()` of an object whose members are scalars. -/
def flatText (members : List (String × Json)) : Bytes :=
  bytes "\x7b" ++
    (bytes ",").intercalate
      (members.map fun member => scalarText (.string member.1) ++ bytes ":" ++
        scalarText member.2) ++
    bytes "\x7d"

/-- The white space of JSON. -/
def isJsonSpace (c : UInt8) : Bool := c = 32 ∨ c = 9 ∨ c = 10 ∨ c = 13

/-- A text without the white space at its end. -/
def trimEnd (text : Bytes) : Bytes := text.rdropWhile isJsonSpace

/-- A reader that knows some flat objects by their texts, with any white space behind
them: the reader that the examples of this development run with. -/
def flatParse (known : List (List (String × Json))) (text : Bytes) : Option Json :=
  (known.find? fun members => flatText members = trimEnd text).map .object

/-- A text that goes on with something else than white space is trimmed there. -/
theorem trimEnd_append {text rest : Bytes} (hrest : trimEnd rest ≠ []) :
    trimEnd (text ++ rest) = text ++ trimEnd rest := by
  have hne : (rest.reverse.dropWhile isJsonSpace).isEmpty = false := by
    rw [trimEnd, List.rdropWhile, ne_eq, List.reverse_eq_nil_iff] at hrest
    simpa using hrest
  rw [trimEnd, trimEnd, List.rdropWhile, List.reverse_append, List.dropWhile_append, hne]
  simp [List.rdropWhile]

theorem flatText_ne_nil (members : List (String × Json)) : flatText members ≠ [] := by
  have hbrace : bytes "\x7d" ≠ [] := by decide
  exact List.append_ne_nil_of_right_ne_nil _ hbrace

theorem flatParse_isSome_iff {known : List (List (String × Json))} {text : Bytes} :
    (flatParse known text).isSome ↔ ∃ members ∈ known, flatText members = trimEnd text := by
  simp [flatParse, List.find?_isSome]

theorem trimEnd_flatText (members : List (String × Json)) :
    trimEnd (flatText members) = flatText members := by
  have hbrace : trimEnd (bytes "\x7d") = bytes "\x7d" := by decide
  rw [flatText, trimEnd_append, hbrace]
  rw [hbrace]
  decide

theorem flatParse_flatText {known : List (List (String × Json))}
    {members : List (String × Json)} (hknown : known = [members]) :
    flatParse known (flatText members) = some (.object members) := by
  simp [flatParse, hknown, trimEnd_flatText]

end Bres
