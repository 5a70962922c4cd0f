import Bres.Basic.Json
import Bres.Text.Lexer

/-!
# The value of a JSON text

The tokens of a value, and what it means that a text denotes a value: it is a text
in UTF-8 whose tokens are those of the value. A text denotes one value at most, so
"the member of a text" is well defined.
-/

namespace Bres

open Text

namespace Json

mutual

/-- The tokens of a value in the order of its members. -/
def tokens : Json → List Token
  | .null => [.null]
  | .bool b => [.bool b]
  | .number lexeme => [.number lexeme.toList]
  | .string s => [.string s.toList]
  | .array elements => .lbracket :: elementTokens elements
  | .object members => .lbrace :: memberTokens members

/-- The tokens of an array behind its first bracket. -/
def elementTokens : List Json → List Token
  | [] => [.rbracket]
  | v :: vs => v.tokens ++ moreElementTokens vs

def moreElementTokens : List Json → List Token
  | [] => [.rbracket]
  | v :: vs => .comma :: (v.tokens ++ moreElementTokens vs)

/-- The tokens of an object behind its first brace. -/
def memberTokens : List (String × Json) → List Token
  | [] => [.rbrace]
  | (key, v) :: members =>
      .string key.toList :: .colon :: (v.tokens ++ moreMemberTokens members)

def moreMemberTokens : List (String × Json) → List Token
  | [] => [.rbrace]
  | (key, v) :: members =>
      .comma :: .string key.toList :: .colon :: (v.tokens ++ moreMemberTokens members)

end

/-- No value begins as an array ends. -/
theorem tokens_append_ne_rbracket (v : Json) (rest rest' : List Token) :
    v.tokens ++ rest ≠ .rbracket :: rest' := by
  cases v <;> simp [tokens]

mutual

/-- The tokens of a value tell the value, and where it ends. -/
theorem tokens_append_inj {rest rest' : List Token} :
    (v w : Json) → v.tokens ++ rest = w.tokens ++ rest' → v = w ∧ rest = rest'
  | .null, w, h => by
      cases w with
      | null => exact ⟨rfl, by simpa [tokens] using h⟩
      | _ => simp [tokens] at h
  | .bool b, w, h => by
      cases w with
      | bool b' => simpa [tokens] using h
      | _ => simp [tokens] at h
  | .number lexeme, w, h => by
      cases w with
      | number lexeme' => simpa [tokens, String.toList_inj] using h
      | _ => simp [tokens] at h
  | .string text, w, h => by
      cases w with
      | string text' => simpa [tokens, String.toList_inj] using h
      | _ => simp [tokens] at h
  | .array elements, w, h => by
      cases w with
      | array elements' =>
          rw [tokens, tokens, List.cons_append, List.cons_append, List.cons_inj_right] at h
          obtain ⟨rfl, hrest⟩ := elementTokens_append_inj elements elements' h
          exact ⟨rfl, hrest⟩
      | _ => simp [tokens] at h
  | .object members, w, h => by
      cases w with
      | object members' =>
          rw [tokens, tokens, List.cons_append, List.cons_append, List.cons_inj_right] at h
          obtain ⟨rfl, hrest⟩ := memberTokens_append_inj members members' h
          exact ⟨rfl, hrest⟩
      | _ => simp [tokens] at h

theorem elementTokens_append_inj {rest rest' : List Token} :
    (vs ws : List Json) → elementTokens vs ++ rest = elementTokens ws ++ rest' →
      vs = ws ∧ rest = rest'
  | [], [], h => by simpa [elementTokens] using h
  | [], w :: ws, h => by
      rw [elementTokens, elementTokens, List.append_assoc] at h
      exact absurd h.symm (tokens_append_ne_rbracket w _ _)
  | v :: vs, [], h => by
      rw [elementTokens, elementTokens, List.append_assoc] at h
      exact absurd h (tokens_append_ne_rbracket v _ _)
  | v :: vs, w :: ws, h => by
      rw [elementTokens, elementTokens, List.append_assoc, List.append_assoc] at h
      obtain ⟨rfl, hmore⟩ := tokens_append_inj v w h
      obtain ⟨rfl, hrest⟩ := moreElementTokens_append_inj vs ws hmore
      exact ⟨rfl, hrest⟩

theorem moreElementTokens_append_inj {rest rest' : List Token} :
    (vs ws : List Json) → moreElementTokens vs ++ rest = moreElementTokens ws ++ rest' →
      vs = ws ∧ rest = rest'
  | [], [], h => by simpa [moreElementTokens] using h
  | [], w :: ws, h => by simp [moreElementTokens] at h
  | v :: vs, [], h => by simp [moreElementTokens] at h
  | v :: vs, w :: ws, h => by
      rw [moreElementTokens, moreElementTokens, List.cons_append, List.cons_append,
        List.cons_inj_right, List.append_assoc, List.append_assoc] at h
      obtain ⟨rfl, hmore⟩ := tokens_append_inj v w h
      obtain ⟨rfl, hrest⟩ := moreElementTokens_append_inj vs ws hmore
      exact ⟨rfl, hrest⟩

theorem memberTokens_append_inj {rest rest' : List Token} :
    (members members' : List (String × Json)) →
      memberTokens members ++ rest = memberTokens members' ++ rest' →
        members = members' ∧ rest = rest'
  | [], [], h => by simpa [memberTokens] using h
  | [], (_, _) :: _, h => by simp [memberTokens] at h
  | (_, _) :: _, [], h => by simp [memberTokens] at h
  | (key, v) :: members, (key', w) :: members', h => by
      simp only [memberTokens, List.cons_append, List.cons.injEq, Token.string.injEq,
        String.toList_inj, true_and, List.append_assoc] at h
      obtain ⟨rfl, hmember⟩ := h
      obtain ⟨rfl, hmore⟩ := tokens_append_inj v w hmember
      obtain ⟨rfl, hrest⟩ := moreMemberTokens_append_inj members members' hmore
      exact ⟨rfl, hrest⟩

theorem moreMemberTokens_append_inj {rest rest' : List Token} :
    (members members' : List (String × Json)) →
      moreMemberTokens members ++ rest = moreMemberTokens members' ++ rest' →
        members = members' ∧ rest = rest'
  | [], [], h => by simpa [moreMemberTokens] using h
  | [], (_, _) :: _, h => by simp [moreMemberTokens] at h
  | (_, _) :: _, [], h => by simp [moreMemberTokens] at h
  | (key, v) :: members, (key', w) :: members', h => by
      simp only [moreMemberTokens, List.cons_append, List.cons.injEq, Token.string.injEq,
        String.toList_inj, true_and, List.append_assoc] at h
      obtain ⟨rfl, hmember⟩ := h
      obtain ⟨rfl, hmore⟩ := tokens_append_inj v w hmember
      obtain ⟨rfl, hrest⟩ := moreMemberTokens_append_inj members members' hmore
      exact ⟨rfl, hrest⟩

end

theorem tokens_injective : Function.Injective tokens := fun v w h =>
  (tokens_append_inj v w (congrArg (· ++ []) h)).1

end Json

/-- `text` is a JSON text with the value `v`. -/
def Denotes (text : Bytes) (v : Json) : Prop :=
  ∃ s : String, bytes s = text ∧ lex s.toList = some v.tokens

theorem bytes_eq_flatMap (s : String) : bytes s = s.toList.flatMap String.utf8EncodeChar := by
  rw [← bytes_ofList, String.ofList_toList]

theorem bytes_injective : Function.Injective bytes := by
  intro s t h
  rw [← String.toByteArray_inj]
  exact ByteArray.ext (Array.toList_inj.1 h)

theorem denotes_bytes_iff {s : String} {v : Json} :
    Denotes (bytes s) v ↔ lex s.toList = some v.tokens := by
  constructor
  · rintro ⟨t, ht, hlex⟩
    rwa [← bytes_injective ht]
  · exact fun hlex => ⟨s, rfl, hlex⟩

/-- A text has one value at most. -/
theorem Denotes.unique {text : Bytes} {v w : Json} (hv : Denotes text v)
    (hw : Denotes text w) : v = w := by
  obtain ⟨s, rfl, hs⟩ := hv
  rw [denotes_bytes_iff] at hw
  exact Json.tokens_injective (Option.some.inj (hs.symm.trans hw))

end Bres
