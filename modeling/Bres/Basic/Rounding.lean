import Bres.Basic.Number
import Mathlib.Data.Nat.Factorization.Basic
import Mathlib.Tactic.Linarith
import Mathlib.Tactic.Positivity

/-!
# Rounding whole numbers

A product of two numbers of a format, and the conversion of a number to an integer
type. A whole number fits a format if it is a number of at most `precision` bits times a
power of two. It is then its own value, and whatever a whole number is rounded to fits.
A number that divides one that fits does so too.
-/

namespace Bres

namespace FloatValue

/-- The product of two numbers of the format. -/
def mul (f : Format) : FloatValue → FloatValue → FloatValue
  | finite a, finite b => ofRat f (a * b)
  | infinity s, finite b => if b = 0 then nan else infinity (s ^^ decide (b < 0))
  | finite a, infinity t => if a = 0 then nan else infinity (decide (a < 0) ^^ t)
  | infinity s, infinity t => infinity (s ^^ t)
  | nan, _ => nan
  | _, nan => nan

/-- The sum of two numbers of the format. -/
def add (f : Format) : FloatValue → FloatValue → FloatValue
  | finite a, finite b => ofRat f (a + b)
  | infinity s, finite _ => infinity s
  | finite _, infinity t => infinity t
  | infinity s, infinity t => if s = t then infinity s else nan
  | nan, _ => nan
  | _, nan => nan

/-- Their difference. -/
def sub (f : Format) (a : FloatValue) : FloatValue → FloatValue
  | finite b => add f a (finite (-b))
  | infinity t => add f a (infinity !t)
  | nan => nan

/-- Conversion to an integer type that has room for the value. -/
def toInteger : FloatValue → ℕ
  | finite q => ⌊q⌋.toNat
  | _ => 0

/-- The number has no more bits than the format, apart from zeros at its end. -/
def Fits (f : Format) (n : ℕ) : Prop := ∃ m k : ℕ, m < 2 ^ f.precision ∧ n = m * 2 ^ k

theorem toInteger_natCast (n : ℕ) : (finite n).toInteger = n := by
  rw [toInteger, Int.floor_natCast, Int.toNat_natCast]

@[simp] theorem roundHalfEven_intCast (z : ℤ) : roundHalfEven (z : ℚ) = z := by
  simp [roundHalfEven]

/-- Rounding stays below a whole number. -/
theorem roundHalfEven_le {q : ℚ} {z : ℤ} (h : q ≤ z) : roundHalfEven q ≤ z := by
  have hfloor : ⌊q⌋ ≤ z := by
    have hle := (Int.floor_le q).trans h
    exact_mod_cast hle
  rcases hfloor.lt_or_eq with hlt | heq
  · have hsucc : ⌊q⌋ + 1 ≤ z := hlt
    simp only [roundHalfEven]
    split_ifs <;> omega
  · have hwhole : q = z := le_antisymm h (heq ▸ Int.floor_le q)
    rw [hwhole, roundHalfEven_intCast]

theorem roundHalfEven_nonneg {q : ℚ} (h : 0 ≤ q) : 0 ≤ roundHalfEven q := by
  have hfloor : 0 ≤ ⌊q⌋ := Int.floor_nonneg.2 h
  simp only [roundHalfEven]
  split_ifs <;> omega

section Format

variable {f : Format}

/-- The bits of a whole number that a format keeps. -/
theorem ofRat_natCast (hmin : f.minExponent ≤ 0) {n : ℕ} (hn : n ≠ 0) :
    ofRat f n =
      let ulp : ℚ := (2 : ℚ) ^ ((Nat.log 2 n : ℤ) - (f.precision - 1))
      let v : ℚ := roundHalfEven (n / ulp) * ulp
      if (2 : ℚ) ^ (f.maxExponent + 1) ≤ |v| then infinity false else finite v := by
  have hzero : (n : ℚ) ≠ 0 := Nat.cast_ne_zero.2 hn
  have hsign : ¬ (n : ℚ) < 0 := not_lt.2 n.cast_nonneg
  have hlog : max (Int.log 2 |(n : ℚ)|) f.minExponent = Nat.log 2 n := by
    rw [Nat.abs_cast, Int.log_natCast]
    exact max_eq_left (hmin.trans (Int.natCast_nonneg _))
  rw [ofRat, if_neg hzero, hlog]
  simp only [hsign, decide_false]

theorem natCast_lt_zpow {n : ℕ} {e : ℤ} (h : (Nat.log 2 n : ℤ) < e) : (n : ℚ) < 2 ^ e := by
  have hlt : n < 2 ^ (Nat.log 2 n + 1) := Nat.lt_pow_succ_log_self one_lt_two n
  calc (n : ℚ) < 2 ^ (Nat.log 2 n + 1) := by exact_mod_cast hlt
    _ = 2 ^ ((Nat.log 2 n + 1 : ℕ) : ℤ) := (zpow_natCast 2 _).symm
    _ ≤ 2 ^ e := zpow_le_zpow_right₀ one_le_two (by push_cast; exact h)

/-- A number that fits is a whole number of units in its last place. -/
theorem Fits.exists_ulps {n : ℕ} (h : Fits f n) (hn : n ≠ 0) :
    ∃ z : ℤ, (n : ℚ) = z * 2 ^ ((Nat.log 2 n : ℤ) - (f.precision - 1)) := by
  obtain ⟨m, k, hm, rfl⟩ := h
  have hbits : 2 ^ Nat.log 2 (m * 2 ^ k) < 2 ^ (f.precision + k) := by
    calc 2 ^ Nat.log 2 (m * 2 ^ k) ≤ m * 2 ^ k := Nat.pow_log_le_self 2 hn
      _ < 2 ^ f.precision * 2 ^ k := Nat.mul_lt_mul_of_pos_right hm (by positivity)
      _ = 2 ^ (f.precision + k) := (pow_add 2 _ _).symm
  have hlog := (Nat.pow_lt_pow_iff_right one_lt_two).1 hbits
  obtain ⟨t, ht⟩ := Nat.exists_eq_add_of_lt hlog
  refine ⟨m * 2 ^ t, ?_⟩
  have hexponent : (k : ℤ) = t + ((Nat.log 2 (m * 2 ^ k) : ℤ) - (f.precision - 1)) := by omega
  have hpower : (2 : ℚ) ^ k =
      2 ^ t * 2 ^ ((Nat.log 2 (m * 2 ^ k) : ℤ) - (f.precision - 1)) := by
    rw [← zpow_natCast, ← zpow_natCast, ← zpow_add₀ two_ne_zero, ← hexponent]
  push_cast
  rw [mul_assoc, ← hpower]

/-- A number that fits is not changed. -/
theorem Fits.ofRat_eq {n : ℕ} (h : Fits f n) (hmin : f.minExponent ≤ 0)
    (hmax : (Nat.log 2 n : ℤ) < f.maxExponent) : ofRat f n = finite n := by
  by_cases hn : n = 0
  · rw [hn, Nat.cast_zero, ofRat, if_pos rfl]
    rfl
  · obtain ⟨z, hz⟩ := h.exists_ulps hn
    have hulp : (2 : ℚ) ^ ((Nat.log 2 n : ℤ) - (f.precision - 1)) ≠ 0 :=
      zpow_ne_zero _ two_ne_zero
    have hround : roundHalfEven (n / 2 ^ ((Nat.log 2 n : ℤ) - (f.precision - 1))) = z := by
      rw [(div_eq_iff hulp).2 hz, roundHalfEven_intCast]
    have hrange : ¬ (2 : ℚ) ^ (f.maxExponent + 1) ≤ |(n : ℚ)| := by
      rw [Nat.abs_cast, not_le]
      exact natCast_lt_zpow (by omega)
    rw [ofRat_natCast hmin hn]
    simp only [hround, ← hz, if_neg hrange]

/-- A number of at most `precision` bits that is shifted, or the next power of two. -/
theorem fits_mul_pow (hprecision : 0 < f.precision) {m : ℕ} (hm : m ≤ 2 ^ f.precision) (s : ℕ) :
    Fits f (m * 2 ^ s) := by
  rcases hm.lt_or_eq with hlt | rfl
  · exact ⟨m, s, hlt, rfl⟩
  · exact ⟨1, f.precision + s, Nat.one_lt_two_pow hprecision.ne', by rw [one_mul, pow_add]⟩

/-- Whatever a whole number is rounded to is a whole number that fits. -/
theorem exists_fits_of_natCast (hprecision : 0 < f.precision) (hmin : f.minExponent ≤ 0) {n : ℕ}
    (hmax : (Nat.log 2 n : ℤ) < f.maxExponent) :
    ∃ c : ℕ, Fits f c ∧ ofRat f n = finite c ∧ c ≤ 2 ^ (Nat.log 2 n + 1) := by
  have hlt : n < 2 ^ (Nat.log 2 n + 1) := Nat.lt_pow_succ_log_self one_lt_two n
  by_cases hsmall : Nat.log 2 n + 1 ≤ f.precision
  · have hbits : n < 2 ^ f.precision := hlt.trans_le (Nat.pow_le_pow_right two_pos hsmall)
    have hfits : Fits f n := ⟨n, 0, hbits, by rw [pow_zero, mul_one]⟩
    exact ⟨n, hfits, hfits.ofRat_eq hmin hmax, hlt.le⟩
  · -- the last place of the format is worth `2 ^ s`
    obtain ⟨s, hs⟩ := Nat.exists_eq_add_of_lt (not_le.1 hsmall)
    have hulp : (Nat.log 2 n : ℤ) - (f.precision - 1) = (s + 1 : ℕ) := by omega
    have hn : n ≠ 0 := by
      rintro rfl
      rw [Nat.log_zero_right] at hs
      omega
    have hle : (n : ℚ) / 2 ^ (s + 1) ≤ (2 ^ f.precision : ℤ) := by
      rw [div_le_iff₀ (by positivity)]
      push_cast
      rw [← pow_add, ← Nat.add_assoc, ← hs]
      exact_mod_cast hlt.le
    obtain ⟨m, hm⟩ := Int.eq_ofNat_of_zero_le
      (roundHalfEven_nonneg (by positivity : 0 ≤ (n : ℚ) / 2 ^ (s + 1)))
    have hmle : m ≤ 2 ^ f.precision := by
      have hround := roundHalfEven_le hle
      rw [hm] at hround
      exact_mod_cast hround
    have hbound : m * 2 ^ (s + 1) ≤ 2 ^ (Nat.log 2 n + 1) := by
      rw [hs, Nat.add_assoc, pow_add 2 f.precision]
      exact Nat.mul_le_mul_right _ hmle
    refine ⟨m * 2 ^ (s + 1), fits_mul_pow hprecision hmle _, ?_, hbound⟩
    have hrange : ¬ (2 : ℚ) ^ (f.maxExponent + 1) ≤ |((m * 2 ^ (s + 1) : ℕ) : ℚ)| := by
      rw [Nat.abs_cast, not_le]
      calc ((m * 2 ^ (s + 1) : ℕ) : ℚ) ≤ 2 ^ (Nat.log 2 n + 1) := by exact_mod_cast hbound
        _ = 2 ^ ((Nat.log 2 n + 1 : ℕ) : ℤ) := (zpow_natCast 2 _).symm
        _ < 2 ^ (f.maxExponent + 1) := zpow_lt_zpow_right₀ one_lt_two (by push_cast; omega)
    have hvalue : ((m : ℤ) : ℚ) * 2 ^ (s + 1) = ((m * 2 ^ (s + 1) : ℕ) : ℚ) := by push_cast; rfl
    rw [ofRat_natCast hmin hn]
    simp only [hulp, zpow_natCast, hm, hvalue, if_neg hrange]

theorem Fits.mul_two_pow {n : ℕ} (h : Fits f n) (i : ℕ) : Fits f (n * 2 ^ i) := by
  obtain ⟨m, k, hm, rfl⟩ := h
  exact ⟨m, k + i, hm, by rw [pow_add, Nat.mul_assoc]⟩

/-- A divisor of a number that fits has no more bits. -/
theorem Fits.of_dvd {a n : ℕ} (h : Fits f n) (hn : n ≠ 0) (ha : a ∣ n) : Fits f a := by
  obtain ⟨m, k, hm, rfl⟩ := h
  obtain ⟨i, b, hodd, rfl⟩ := Nat.exists_eq_two_pow_mul_odd (ne_zero_of_dvd_ne_zero hn ha)
  have hdvd : b ∣ m * 2 ^ k := (Dvd.intro_left _ rfl).trans ha
  have hcoprime : b.Coprime (2 ^ k) := (Nat.coprime_two_right.2 hodd).pow_right k
  have hb : b ≤ m := Nat.le_of_dvd (Nat.pos_of_ne_zero (left_ne_zero_of_mul hn))
    (hcoprime.dvd_of_dvd_mul_right hdvd)
  exact ⟨b, i, hb.trans_lt hm, Nat.mul_comm _ _⟩

end Format

end FloatValue

end Bres
