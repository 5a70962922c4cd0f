import Mathlib.Algebra.Order.Field.Rat
import Mathlib.Data.Int.Log
import Mathlib.Data.Rat.Floor

/-!
# Numbers read from text

The C and C++ conversions that the commands use: `std::atoi`, `std::atof` and
`std::stof`. A text is scanned as `strtol` and `strtod` do it: leading white
space, a sign, the longest prefix that is a number, and whatever follows is
ignored. The value is then rounded to the precision of the target type, ties to
even.

`atoi` and `atof` give zero for a text that does not begin with a number.
`stof` throws there, and also where the conversion sets `errno` to `ERANGE`, as glibc does
on a machine that detects tininess after rounding.
-/

namespace Bres

/-- The value of an IEEE number. The two zeros are not told apart. -/
inductive FloatValue where
  | nan
  | infinity (negative : Bool)
  | finite (value : ℚ)
deriving DecidableEq, Repr

instance : Zero FloatValue := ⟨.finite 0⟩

instance : One FloatValue := ⟨.finite 1⟩

namespace FloatValue

/-- A binary interchange format: its precision in bits and its exponent range. -/
structure Format where
  precision : ℕ
  minExponent : ℤ
  maxExponent : ℤ

/-- `float` -/
def single : Format := ⟨24, -126, 127⟩

/-- `double` -/
def double : Format := ⟨53, -1022, 1023⟩

/-- The nearest integer, the even one of two that are equally near. -/
def roundHalfEven (q : ℚ) : ℤ :=
  let r := q - ⌊q⌋
  if r < 1 / 2 then ⌊q⌋
  else if 1 / 2 < r then ⌊q⌋ + 1
  else if ⌊q⌋ % 2 = 0 then ⌊q⌋ else ⌊q⌋ + 1

/-- The number of the format nearest to `q`; an infinity past its range. -/
def ofRat (f : Format) (q : ℚ) : FloatValue :=
  if q = 0 then 0
  else
    let e := max (Int.log 2 |q|) f.minExponent
    let ulp : ℚ := (2 : ℚ) ^ (e - (f.precision - 1))
    let v : ℚ := roundHalfEven (q / ulp) * ulp
    if (2 : ℚ) ^ (f.maxExponent + 1) ≤ |v| then infinity (q < 0) else finite v

/-- Conversion of a value to a format. -/
def convert (f : Format) : FloatValue → FloatValue
  | nan => nan
  | infinity negative => infinity negative
  | finite q => ofRat f q

/-- The value lies below the normal range, also after it has been rounded to the precision of
the format with exponents as small as it needs. -/
def isTiny (f : Format) (q : ℚ) : Bool :=
  match ofRat { f with minExponent := min f.minExponent (Int.log 2 |q|) } q with
  | finite v => decide (|v| < (2 : ℚ) ^ f.minExponent)
  | _ => false

/-- `ERANGE`: the text has a finite value which the format overflows on, or one that is tiny
and is not represented exactly. A value that is tiny may still be rounded up to the least
normal number. -/
def outOfRange (f : Format) : FloatValue → Bool
  | finite q =>
      match ofRat f q with
      | finite v => isTiny f q && decide (v ≠ q)
      | _ => true
  | _ => false

end FloatValue

/-- `c_str()`: a C function sees the text up to its first NUL. -/
def cStr (s : String) : List Char := s.toList.takeWhile (· ≠ '\x00')

/-- `isspace` -/
def isSpace (c : Char) : Bool :=
  c = ' ' || ('\t' ≤ c && c ≤ '\r')

/-- The value of a digit in the given base. -/
def digitValue (base : ℕ) (c : Char) : Option ℕ :=
  let v :=
    if '0' ≤ c ∧ c ≤ '9' then c.toNat - '0'.toNat
    else if 'a' ≤ c ∧ c ≤ 'f' then c.toNat - 'a'.toNat + 10
    else if 'A' ≤ c ∧ c ≤ 'F' then c.toNat - 'A'.toNat + 10
    else base
  if v < base then some v else none

/-- The longest prefix of digits, with the rest of the text. -/
def scanDigits (base : ℕ) : List Char → List ℕ × List Char
  | [] => ([], [])
  | c :: cs =>
      match digitValue base c with
      | some d => (d :: (scanDigits base cs).1, (scanDigits base cs).2)
      | none => ([], c :: cs)

def ofDigits (base : ℕ) (ds : List ℕ) : ℕ :=
  ds.foldl (fun n d => n * base + d) 0

/-- An optional sign, `true` for a minus. -/
def scanSign : List Char → Bool × List Char
  | '-' :: cs => (true, cs)
  | '+' :: cs => (false, cs)
  | cs => (false, cs)

def applySign {α : Type*} [Neg α] (negative : Bool) (v : α) : α :=
  if negative then -v else v

/-- Digits with an optional point, at least one digit in all. -/
def scanMantissa (base : ℕ) (cs : List Char) : Option (ℚ × List Char) :=
  let (whole, rest) := scanDigits base cs
  let (part, rest) :=
    match rest with
    | '.' :: cs => scanDigits base cs
    | _ => ([], rest)
  if whole = [] ∧ part = [] then none
  else some ((ofDigits base (whole ++ part) : ℚ) / (base : ℚ) ^ part.length, rest)

/-- An optional exponent after `mark`, zero where there is none. -/
def scanExponent (mark : Char) : List Char → ℤ
  | c :: cs =>
      if c.toLower = mark then
        let (negative, cs) := scanSign cs
        applySign negative (ofDigits 10 (scanDigits 10 cs).1 : ℤ)
      else 0
  | [] => 0

/-- The subject sequence of `strtod` after white space and sign: infinity, a
NaN, a hexadecimal or a decimal number; `none` where there is no number. -/
def scanMagnitude (cs : List Char) : Option FloatValue :=
  let lower := cs.map Char.toLower
  if "inf".toList <+: lower then some (.infinity false)
  else if "nan".toList <+: lower then some .nan
  else
    match lower with
    | '0' :: 'x' :: hex =>
        match scanMantissa 16 hex with
        | some (m, rest) => some (.finite (m * (2 : ℚ) ^ scanExponent 'p' rest))
        | none => some 0
    | _ =>
        (scanMantissa 10 lower).map fun (m, rest) =>
          .finite (m * (10 : ℚ) ^ scanExponent 'e' rest)

/-- `strtod` before rounding; `none` where no conversion can be performed. -/
def scanFloat (s : String) : Option FloatValue :=
  let (negative, cs) := scanSign ((cStr s).dropWhile isSpace)
  (scanMagnitude cs).map fun
    | .nan => .nan
    | .infinity _ => .infinity negative
    | .finite q => .finite (applySign negative q)

/-- `strtol` in base ten before clamping; `none` where no conversion can be
performed. -/
def scanInt (s : String) : Option ℤ :=
  let (negative, cs) := scanSign ((cStr s).dropWhile isSpace)
  match (scanDigits 10 cs).1 with
  | [] => none
  | ds => some (applySign negative (ofDigits 10 ds : ℤ))

/-- `(unsigned)std::atoi(s)`: `strtol` clamps to `long`, and the casts to `int`
and to `unsigned` keep the low 32 bits. -/
def atoi (s : String) : UInt32 :=
  let v := (scanInt s).getD 0
  let clamped := max (-2 ^ 63) (min v (2 ^ 63 - 1))
  UInt32.ofNat (clamped % 2 ^ 32).toNat

/-- `std::atof(s)` stored in a `float`: rounded to `double` first. -/
def atof (s : String) : FloatValue :=
  (((scanFloat s).getD 0).convert FloatValue.double).convert FloatValue.single

inductive ConversionError where
  | invalidArgument
  | outOfRange
deriving DecidableEq, Repr

/-- `std::stof(s)` -/
def stof (s : String) : Except ConversionError FloatValue :=
  match scanFloat s with
  | none => .error .invalidArgument
  | some v =>
      if v.outOfRange FloatValue.single then .error .outOfRange
      else .ok (v.convert FloatValue.single)

example : stof " -1.5e1px" = .ok (.finite (-15)) := by decide +kernel

example : stof "1e39" = .error .outOfRange := by decide +kernel

example : stof "0x0.ffffffp-126" = .error .outOfRange := by decide +kernel

example : atof "0.1" = .finite (13421773 / 134217728) := by decide +kernel

end Bres
