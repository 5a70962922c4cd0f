import Bres.Transition.Run
import Mathlib.Data.List.Infix

/-!
# The tokens of a JSON text

A lexer for JSON (RFC 8259) that takes one character at a time, as a step function:
the text is accepted if the run along its characters ends outside of a string. The
characters of a word, that is of a number or of one of the three literals, are
collected until the next delimiter.

`Reads body value` says that `body` stands for `value` between two quotation marks.
Where a text with a hole inside a string is filled in, the tokens around the hole
tell what has been filled in: a body that is not read as one value closes the string
in the hole, and adds tokens.
-/

namespace Text

open Transition

inductive Token where
  | lbrace
  | rbrace
  | lbracket
  | rbracket
  | colon
  | comma
  | null
  | bool (b : Bool)
  | number (lexeme : List Char)
  | string (value : List Char)
deriving DecidableEq

/-- Outside of the strings, with the word so far; in a string, with its value so far;
behind a backslash; in the digits of a code unit; and behind a high surrogate. -/
inductive LexMode where
  | outside (word : List Char)
  | string (value : List Char)
  | escape (value : List Char) (high : Option ℕ)
  | unicode (value : List Char) (high : Option ℕ) (left code : ℕ)
  | surrogate (value : List Char) (high : ℕ)
deriving DecidableEq

/-- The tokens so far are kept with the last one first. -/
structure Lexer where
  mode : LexMode
  tokens : List Token
deriving DecidableEq

/-! ## Words -/

/-- The text behind one or more digits. -/
def digits : List Char → Option (List Char)
  | c :: cs => if c.isDigit then some (cs.dropWhile Char.isDigit) else none
  | [] => none

/-- The text behind the integer part of a number. -/
def integer : List Char → Option (List Char)
  | '0' :: cs => some cs
  | cs => digits cs

def fraction : List Char → Option (List Char)
  | '.' :: cs => digits cs
  | cs => some cs

def exponentDigits : List Char → Option (List Char)
  | '+' :: cs => digits cs
  | '-' :: cs => digits cs
  | cs => digits cs

def exponent : List Char → Option (List Char)
  | 'e' :: cs => exponentDigits cs
  | 'E' :: cs => exponentDigits cs
  | cs => some cs

def unsigned : List Char → List Char
  | '-' :: cs => cs
  | cs => cs

def isNumber (word : List Char) : Bool :=
  ((integer (unsigned word)).bind fraction).bind exponent = some []

def wordToken (word : List Char) : Option Token :=
  if word = "true".toList then some (.bool true)
  else if word = "false".toList then some (.bool false)
  else if word = "null".toList then some .null
  else if isNumber word then some (.number word)
  else none

/-- The tokens with the word that a delimiter ends. -/
def endWord (word : List Char) (tokens : List Token) : Option (List Token) :=
  if word = [] then some tokens else (wordToken word).map (· :: tokens)

/-! ## Strings -/

def hexDigit (c : Char) : Option ℕ :=
  if '0' ≤ c ∧ c ≤ '9' then some (c.toNat - '0'.toNat)
  else if 'a' ≤ c ∧ c ≤ 'f' then some (c.toNat - 'a'.toNat + 10)
  else if 'A' ≤ c ∧ c ≤ 'F' then some (c.toNat - 'A'.toNat + 10)
  else none

/-- The character behind a backslash, other than the `u` of a code unit. -/
def escaped : Char → Option Char
  | '"' => some '"'
  | '\\' => some '\\'
  | '/' => some '/'
  | 'b' => some '\x08'
  | 'f' => some '\x0c'
  | 'n' => some '\n'
  | 'r' => some '\r'
  | 't' => some '\t'
  | _ => none

def isHighSurrogate (code : ℕ) : Prop := 0xd800 ≤ code ∧ code < 0xdc00

def isLowSurrogate (code : ℕ) : Prop := 0xdc00 ≤ code ∧ code < 0xe000

instance (code : ℕ) : Decidable (isHighSurrogate code) := inferInstanceAs (Decidable (_ ∧ _))

instance (code : ℕ) : Decidable (isLowSurrogate code) := inferInstanceAs (Decidable (_ ∧ _))

/-- A code unit after its last digit. -/
def codeUnit (value : List Char) (high : Option ℕ) (code : ℕ) : Option LexMode :=
  match high with
  | none =>
      if isHighSurrogate code then some (.surrogate value code)
      else if isLowSurrogate code then none
      else some (.string (value ++ [Char.ofNat code]))
  | some high =>
      if isLowSurrogate code then
        some (.string
          (value ++ [Char.ofNat (0x10000 + (high - 0xd800) * 0x400 + (code - 0xdc00))]))
      else none

/-- The step inside a string, as long as no quotation mark closes it. -/
def LexMode.inside (c : Char) : LexMode → Option LexMode
  | .outside _ => none
  | .string value =>
      if c = '\\' then some (.escape value none)
      else if c.toNat < 0x20 then none
      else some (.string (value ++ [c]))
  | .escape value high =>
      if c = 'u' then some (.unicode value high 3 0)
      else if high = none then (escaped c).map fun d => .string (value ++ [d])
      else none
  | .unicode value high left code =>
      match hexDigit c with
      | none => none
      | some digit =>
          if left = 0 then codeUnit value high (16 * code + digit)
          else some (.unicode value high (left - 1) (16 * code + digit))
  | .surrogate value high => if c = '\\' then some (.escape value (some high)) else none

namespace Lexer

/-- The step outside of the strings. -/
def outside (c : Char) (word : List Char) (tokens : List Token) : Option Lexer :=
  match c with
  | '"' => (endWord word tokens).map fun ts => ⟨.string [], ts⟩
  | '\x7b' => (endWord word tokens).map fun ts => ⟨.outside [], .lbrace :: ts⟩
  | '\x7d' => (endWord word tokens).map fun ts => ⟨.outside [], .rbrace :: ts⟩
  | '[' => (endWord word tokens).map fun ts => ⟨.outside [], .lbracket :: ts⟩
  | ']' => (endWord word tokens).map fun ts => ⟨.outside [], .rbracket :: ts⟩
  | ':' => (endWord word tokens).map fun ts => ⟨.outside [], .colon :: ts⟩
  | ',' => (endWord word tokens).map fun ts => ⟨.outside [], .comma :: ts⟩
  | ' ' => (endWord word tokens).map fun ts => ⟨.outside [], ts⟩
  | '\t' => (endWord word tokens).map fun ts => ⟨.outside [], ts⟩
  | '\n' => (endWord word tokens).map fun ts => ⟨.outside [], ts⟩
  | '\r' => (endWord word tokens).map fun ts => ⟨.outside [], ts⟩
  | _ => some ⟨.outside (word ++ [c]), tokens⟩

def step (l : Lexer) (c : Char) : Option Lexer :=
  match l.mode with
  | .outside word => outside c word l.tokens
  | .string value =>
      if c = '"' then some ⟨.outside [], .string value :: l.tokens⟩
      else ((LexMode.string value).inside c).map fun mode => ⟨mode, l.tokens⟩
  | mode => (mode.inside c).map fun mode => ⟨mode, l.tokens⟩

/-- Before a text. -/
def start : Lexer := ⟨.outside [], []⟩

end Lexer

/-- The tokens of a text, in order. -/
def lex (text : List Char) : Option (List Token) :=
  match run Lexer.step Lexer.start text with
  | some ⟨.outside word, tokens⟩ => (endWord word tokens).map List.reverse
  | _ => none

/-! ## The tokens before a place -/

/-- A lexer that has read some tokens before. -/
def Lexer.after (l : Lexer) (tokens : List Token) : Lexer := ⟨l.mode, l.tokens ++ tokens⟩

theorem endWord_eq (word : List Char) (tokens : List Token) :
    endWord word tokens = (endWord word []).map (· ++ tokens) := by
  unfold endWord
  split
  · rfl
  · rw [Option.map_map]
    rfl

namespace Lexer

theorem outside_eq (c : Char) (word : List Char) (tokens : List Token) :
    outside c word tokens = (outside c word []).map (·.after tokens) := by
  unfold outside
  split
  all_goals first
    | rfl
    | rw [endWord_eq word tokens, Option.map_map, Option.map_map]
      rfl

/-- A step does not look at the tokens before it. -/
theorem step_eq (mode : LexMode) (tokens : List Token) (c : Char) :
    step ⟨mode, tokens⟩ c = (step ⟨mode, []⟩ c).map (·.after tokens) := by
  cases mode with
  | outside word => exact outside_eq c word tokens
  | string value =>
      simp only [step]
      split
      · rfl
      · rw [Option.map_map]
        rfl
  | escape value high =>
      simp only [step]
      rw [Option.map_map]
      rfl
  | unicode value high left code =>
      simp only [step]
      rw [Option.map_map]
      rfl
  | surrogate value high =>
      simp only [step]
      rw [Option.map_map]
      rfl

theorem run_eq (mode : LexMode) (tokens : List Token) (text : List Char) :
    run step ⟨mode, tokens⟩ text = (run step ⟨mode, []⟩ text).map (·.after tokens) := by
  induction text generalizing mode tokens with
  | nil => rfl
  | cons c text ih =>
      rw [run, run, step_eq]
      cases step ⟨mode, []⟩ c with
      | none => rfl
      | some l =>
          obtain ⟨mode', tokens'⟩ := l
          rw [Option.map_some, Option.bind_some, Option.bind_some, after, ih, ih mode' tokens',
            Option.map_map]
          simp [Function.comp_def, after]

end Lexer

/-! ## The inside of a string -/

/-- Between two quotation marks, `body` stands for `value`. -/
def Reads (body value : List Char) : Prop :=
  run Lexer.step ⟨.string [], []⟩ body = some ⟨.string value, []⟩

/-- The characters that stand for themselves in a string. -/
def Plain (body : List Char) : Prop :=
  ∀ c ∈ body, c ≠ '"' ∧ c ≠ '\\' ∧ 0x20 ≤ c.toNat

instance (body : List Char) : Decidable (Plain body) :=
  List.decidableBAll (fun c : Char => c ≠ '"' ∧ c ≠ '\\' ∧ 0x20 ≤ c.toNat) body

namespace LexMode

/-- The length of the value read so far. -/
def size : LexMode → ℕ
  | .outside _ => 0
  | .string value => value.length
  | .escape value _ => value.length
  | .unicode value _ _ _ => value.length
  | .surrogate value _ => value.length

theorem size_codeUnit {value : List Char} {high : Option ℕ} {code : ℕ} {mode : LexMode}
    (h : codeUnit value high code = some mode) : mode.size ≤ value.length + 1 := by
  unfold codeUnit at h
  split at h
  · split at h
    · cases h
      exact Nat.le_succ _
    · split at h
      · cases h
      · cases h
        simp [size]
  · split at h
    · cases h
      simp [size]
    · cases h

theorem size_inside {mode mode' : LexMode} {c : Char} (h : mode.inside c = some mode') :
    mode'.size ≤ mode.size + 1 := by
  cases mode with
  | outside word => cases h
  | string value =>
      simp only [inside] at h
      split at h
      · cases h
        exact Nat.le_succ _
      · split at h
        · cases h
        · cases h
          simp [size]
  | escape value high =>
      simp only [inside] at h
      split at h
      · cases h
        exact Nat.le_succ _
      · split at h
        · obtain ⟨d, -, rfl⟩ := Option.map_eq_some_iff.1 h
          simp [size]
        · cases h
  | unicode value high left code =>
      simp only [inside] at h
      split at h
      · cases h
      · split at h
        · exact size_codeUnit h
        · cases h
          exact Nat.le_succ _
  | surrogate value high =>
      simp only [inside] at h
      split at h
      · cases h
        exact Nat.le_succ _
      · cases h

end LexMode

namespace Lexer

theorem size_step {l l' : Lexer} {c : Char} (h : l.step c = some l') :
    l'.mode.size ≤ l.mode.size + 1 := by
  obtain ⟨mode, tokens⟩ := l
  have hinside : ∀ {mode : LexMode},
      (mode.inside c).map (fun mode => (⟨mode, tokens⟩ : Lexer)) = some l' →
        l'.mode.size ≤ mode.size + 1 := by
    intro mode h
    obtain ⟨mode', hmode, rfl⟩ := Option.map_eq_some_iff.1 h
    exact LexMode.size_inside hmode
  cases mode with
  | outside word =>
      have hzero : l'.mode.size = 0 := by
        simp only [step, outside] at h
        split at h
        all_goals first
          | obtain ⟨ts, -, rfl⟩ := Option.map_eq_some_iff.1 h
            rfl
          | cases h
            rfl
      rw [hzero]
      exact Nat.zero_le _
  | string value =>
      simp only [step] at h
      split at h
      · cases h
        exact Nat.zero_le _
      · exact hinside h
  | escape value high => exact hinside h
  | unicode value high left code => exact hinside h
  | surrogate value high => exact hinside h

theorem size_run {l l' : Lexer} {text : List Char} (h : run step l text = some l') :
    l'.mode.size ≤ l.mode.size + text.length := by
  induction text generalizing l with
  | nil =>
      cases h
      exact le_rfl
  | cons c text ih =>
      obtain ⟨r, hr, hrun⟩ := run_cons_eq_some_iff.1 h
      have hstep := size_step hr
      have hrest := ih hrun
      rw [List.length_cons]
      omega

theorem step_plain {c : Char} (h : c ≠ '"' ∧ c ≠ '\\' ∧ 0x20 ≤ c.toNat) (value : List Char)
    (tokens : List Token) :
    step ⟨.string value, tokens⟩ c = some ⟨.string (value ++ [c]), tokens⟩ := by
  obtain ⟨hquote, hbackslash, hcontrol⟩ := h
  simp [step, LexMode.inside, hquote, hbackslash, Nat.not_lt.2 hcontrol]

theorem run_plain {body : List Char} (h : Plain body) (value : List Char)
    (tokens : List Token) :
    run step ⟨.string value, tokens⟩ body = some ⟨.string (value ++ body), tokens⟩ := by
  induction body generalizing value with
  | nil => rw [List.append_nil, run]
  | cons c body ih =>
      have hbody : Plain body := fun d hd => h d (List.mem_cons_of_mem c hd)
      rw [run, step_plain (h c (List.mem_cons_self ..)), Option.bind_some, ih hbody,
        List.append_assoc, List.singleton_append]

/-- A string that is read as its own text has no escapes: each would take more
characters than it stands for. -/
theorem plain_of_run {body : List Char} (value : List Char)
    (h : run step ⟨.string value, []⟩ body = some ⟨.string (value ++ body), []⟩) :
    Plain body := by
  induction body generalizing value with
  | nil => exact List.forall_mem_nil _
  | cons c body ih =>
      obtain ⟨l, hstep, hrun⟩ := run_cons_eq_some_iff.1 h
      simp only [step] at hstep
      split at hstep
      · cases hstep
        rw [run_eq] at hrun
        obtain ⟨l, -, hl⟩ := Option.map_eq_some_iff.1 hrun
        simp [after] at hl
      rename_i hquote
      simp only [LexMode.inside] at hstep
      split at hstep
      · cases hstep
        have hsize := size_run hrun
        simp only [LexMode.size, List.length_append, List.length_cons] at hsize
        omega
      rename_i hbackslash
      split at hstep
      · cases hstep
      rename_i hcontrol
      cases hstep
      have hbody : Plain body := ih (value ++ [c]) (by simpa using hrun)
      exact List.forall_mem_cons.2 ⟨⟨hquote, hbackslash, Nat.le_of_not_lt hcontrol⟩, hbody⟩

end Lexer

/-- A text is read as itself if and only if none of its characters needs an escape. -/
theorem reads_self_iff {body : List Char} : Reads body body ↔ Plain body :=
  ⟨fun h => Lexer.plain_of_run [] h, fun h => Lexer.run_plain h [] []⟩

theorem Reads.length_le {body value : List Char} (h : Reads body value) :
    value.length ≤ body.length := by
  have hsize := Lexer.size_run h
  rwa [LexMode.size, LexMode.size, List.length_nil, Nat.zero_add] at hsize

namespace Lexer

/-- The tokens that have been read stay. -/
theorem length_tokens_le {l l' : Lexer} {text : List Char} (h : run step l text = some l') :
    l.tokens.length ≤ l'.tokens.length := by
  obtain ⟨mode, tokens⟩ := l
  rw [run_eq] at h
  obtain ⟨r, -, rfl⟩ := Option.map_eq_some_iff.1 h
  rw [after, List.length_append]
  exact Nat.le_add_left _ _

/-- A quotation mark closes a string, or the lexer is in a string behind it. -/
theorem step_quote {l l' : Lexer} (h : l.step '"' = some l') :
    0 < l'.tokens.length ∨ ∃ value, l'.mode = .string value := by
  obtain ⟨mode, tokens⟩ := l
  cases mode with
  | outside word =>
      obtain ⟨ts, -, rfl⟩ := Option.map_eq_some_iff.1 (show
        (endWord word tokens).map (fun ts => (⟨.string [], ts⟩ : Lexer)) = some l' from h)
      exact .inr ⟨[], rfl⟩
  | string value =>
      obtain rfl : (⟨.outside [], .string value :: tokens⟩ : Lexer) = l' := Option.some.inj h
      exact .inl (Nat.succ_pos _)
  | escape value high =>
      cases high with
      | none =>
          obtain rfl : (⟨.string (value ++ ['"']), tokens⟩ : Lexer) = l' := Option.some.inj h
          exact .inr ⟨value ++ ['"'], rfl⟩
      | some high => cases h
  | unicode value high left code => cases h
  | surrogate value high => cases h

end Lexer

/-- The inside of a string has no two quotation marks with plain characters between
them: the second one is not escaped. -/
theorem not_reads_of_quotes {before between after value : List Char} (h : Plain between) :
    ¬ Reads (before ++ '"' :: (between ++ '"' :: after)) value := by
  intro hreads
  obtain ⟨l, -, hquote⟩ := run_append_eq_some_iff.1 hreads
  obtain ⟨l, hstep, hbetween⟩ := run_cons_eq_some_iff.1 hquote
  rcases Lexer.step_quote hstep with hclosed | ⟨opened, hmode⟩
  · exact absurd (hclosed.trans_le (Lexer.length_tokens_le hbetween)) (Nat.lt_irrefl 0)
  · obtain ⟨mode, tokens⟩ := l
    obtain rfl : mode = .string opened := hmode
    rw [run_append (Lexer.run_plain h opened tokens)] at hbetween
    obtain ⟨l, hstep, hafter⟩ := run_cons_eq_some_iff.1 hbetween
    obtain rfl : (⟨.outside [], .string (opened ++ between) :: tokens⟩ : Lexer) = l :=
      Option.some.inj hstep
    exact absurd (Lexer.length_tokens_le hafter) (Nat.not_succ_le_zero _)

/-! ## Holes -/

/-- What follows a quotation mark cannot be the rest of a string. -/
def Resists (rest : List Char) : Prop :=
  ∀ value tokens, run Lexer.step ⟨.string value, tokens⟩ rest = none

theorem Resists.append {rest : List Char} (h : Resists rest) (more : List Char) :
    Resists (rest ++ more) := by
  intro value tokens
  rw [Option.eq_none_iff_forall_ne_some]
  intro l hl
  obtain ⟨l', hl', -⟩ := run_append_eq_some_iff.1 hl
  rw [h] at hl'
  cases hl'

/-- A quotation mark in it closes the string too early. -/
theorem resists_of_plain {body rest : List Char} (hbody : Plain body)
    (hrest : run Lexer.step ⟨.outside [], []⟩ rest = none) : Resists (body ++ '"' :: rest) := by
  intro value tokens
  rw [Option.eq_none_iff_forall_ne_some]
  intro l hl
  obtain ⟨l', hl', hquote⟩ := run_append_eq_some_iff.1 hl
  rw [Lexer.run_plain hbody] at hl'
  cases hl'
  obtain ⟨l', hl', hrun⟩ := run_cons_eq_some_iff.1 hquote
  cases hl'
  rw [Lexer.run_eq, hrest] at hrun
  cases hrun

namespace Lexer

variable {rest : List Char} {l : Lexer}

/-- Before a quotation mark that such a text follows, the lexer is in a string. -/
theorem mode_of_run_quote (hrest : Resists rest) {mode : LexMode} {tokens : List Token}
    (h : run step ⟨mode, tokens⟩ ('"' :: rest) = some l) : ∃ value, mode = .string value := by
  obtain ⟨l', hstep, hrun⟩ := run_cons_eq_some_iff.1 h
  cases mode with
  | string value => exact ⟨value, rfl⟩
  | outside word =>
      obtain ⟨ts, -, rfl⟩ := Option.map_eq_some_iff.1 (show
        (endWord word tokens).map (fun ts => (⟨.string [], ts⟩ : Lexer)) = some l' from hstep)
      rw [hrest] at hrun
      cases hrun
  | escape value high =>
      cases high with
      | none =>
          obtain rfl : (⟨.string (value ++ ['"']), tokens⟩ : Lexer) = l' :=
            Option.some.inj hstep
          rw [hrest] at hrun
          cases hrun
      | some high => cases hstep
  | unicode value high left code => cases hstep
  | surrogate value high => cases hstep

/-- A hole in a string is closed by the quotation mark behind it: what is read in the
hole ends inside a string, after tokens that the filling has added. -/
theorem run_hole_iff (hrest : Resists rest) {body : List Char} {tokens : List Token} :
    run step ⟨.string [], tokens⟩ (body ++ '"' :: rest) = some l ↔
      ∃ value added, run step ⟨.string [], []⟩ body = some ⟨.string value, added⟩ ∧
        run step ⟨.outside [], .string value :: (added ++ tokens)⟩ rest = some l := by
  rw [run_append_eq_some_iff]
  constructor
  · rintro ⟨l', hbody, hquote⟩
    obtain ⟨mode, ts⟩ := l'
    obtain ⟨value, rfl⟩ := mode_of_run_quote hrest hquote
    rw [run_eq] at hbody
    obtain ⟨l', hl', hafter⟩ := Option.map_eq_some_iff.1 hbody
    obtain ⟨mode, added⟩ := l'
    cases hafter
    exact ⟨value, added, hl', hquote⟩
  · rintro ⟨value, added, hbody, hclosed⟩
    exact ⟨⟨.string value, added ++ tokens⟩, by rw [run_eq, hbody]; rfl, hclosed⟩

end Lexer

end Text
