import Mathlib.Data.Int.Notation
import Mathlib.Data.List.GetD
import Mathlib.Logic.Function.Basic

/-!
# Regions of memory

What a function reaches through a pointer: `size` cells that belong to it, and whatever
lies behind them. Nothing stops an access past the end, so a region has a content at
every offset, and it keeps the offsets that were accessed. The accesses are `Safe` if
all of them lie in front of the end.

In a region of bytes a signed number of 16 bits takes two bytes, the low one first. A
loop that rewrites the numbers at offsets which lie apart rewrites each of them once,
from the number that was there before the loop.
-/

namespace Memory

/-! ## Numbers of 16 bits -/

def IsInt16 (v : ℤ) : Prop := -32768 ≤ v ∧ v ≤ 32767

instance (v : ℤ) : Decidable (IsInt16 v) := inferInstanceAs (Decidable (_ ∧ _))

def lowByte (v : ℤ) : UInt8 := UInt8.ofNat (v % 256).toNat

def highByte (v : ℤ) : UInt8 := UInt8.ofNat (v / 256 % 256).toNat

/-- The number that a low and a high byte stand for. -/
def int16 (low high : UInt8) : ℤ :=
  if high.toNat < 128 then low.toNat + 256 * high.toNat
  else low.toNat + 256 * high.toNat - 65536

theorem int16_range (low high : UInt8) : IsInt16 (int16 low high) := by
  have hlow := low.toNat_lt
  have hhigh := high.toNat_lt
  unfold int16 IsInt16
  split <;> omega

/-- A number of 16 bits is what its bytes stand for. -/
theorem int16_bytes {v : ℤ} (h : IsInt16 v) : int16 (lowByte v) (highByte v) = v := by
  have hlow : (lowByte v).toNat = (v % 256).toNat :=
    UInt8.toNat_ofNat_of_lt' (by rw [UInt8.size]; omega)
  have hhigh : (highByte v).toNat = (v / 256 % 256).toNat :=
    UInt8.toNat_ofNat_of_lt' (by rw [UInt8.size]; omega)
  unfold IsInt16 at h
  unfold int16
  rw [hlow, hhigh]
  split <;> omega

@[simp] theorem int16_zero : int16 0 0 = 0 := by decide

/-- The number at an offset of a string of bytes. -/
def shortAt (bytes : List UInt8) (n : ℕ) : ℤ := int16 (bytes.getD n 0) (bytes.getD (n + 1) 0)

theorem shortAt_range (bytes : List UInt8) (n : ℕ) : IsInt16 (shortAt bytes n) :=
  int16_range ..

/-! ## Regions -/

structure Region (α : Type*) where
  size : ℕ
  cell : ℕ → α
  touched : List ℕ

namespace Region

section Cells

variable {α : Type*} (r : Region α)

/-- Nothing past the end was accessed. -/
def Safe : Prop := ∀ i ∈ r.touched, i < r.size

instance : Decidable r.Safe := inferInstanceAs (Decidable (∀ i ∈ r.touched, i < r.size))

/-- A read access. -/
def read (i : ℕ) : Region α := { r with touched := i :: r.touched }

/-- A write access. -/
def write (i : ℕ) (a : α) : Region α :=
  { r with cell := Function.update r.cell i a, touched := i :: r.touched }

/-- The same content in every cell that belongs to the region. -/
def clear (a : α) : Region α :=
  { r with cell := fun i => if i < r.size then a else r.cell i }

/-- The cells that belong to the region. -/
def contents : List α := (List.range r.size).map r.cell

@[simp] theorem size_read (i : ℕ) : (r.read i).size = r.size := rfl

@[simp] theorem cell_read (i : ℕ) : (r.read i).cell = r.cell := rfl

@[simp] theorem touched_read (i : ℕ) : (r.read i).touched = i :: r.touched := rfl

@[simp] theorem size_write (i : ℕ) (a : α) : (r.write i a).size = r.size := rfl

@[simp] theorem touched_write (i : ℕ) (a : α) : (r.write i a).touched = i :: r.touched := rfl

@[simp] theorem cell_write_self (i : ℕ) (a : α) : (r.write i a).cell i = a :=
  Function.update_self ..

theorem cell_write_of_ne {i j : ℕ} (h : j ≠ i) (a : α) : (r.write i a).cell j = r.cell j :=
  Function.update_of_ne h ..

@[simp] theorem size_clear (a : α) : (r.clear a).size = r.size := rfl

@[simp] theorem touched_clear (a : α) : (r.clear a).touched = r.touched := rfl

theorem cell_clear_of_lt {i : ℕ} (h : i < r.size) (a : α) : (r.clear a).cell i = a := if_pos h

@[simp] theorem length_contents : r.contents.length = r.size := by
  simp [contents]

theorem getElem_contents {i : ℕ} (h : i < r.contents.length) : r.contents[i] = r.cell i := by
  simp [contents]

end Cells

/-! ## Numbers in a region of bytes -/

section Shorts

variable (r : Region UInt8)

/-- The number at an offset. -/
def short (n : ℕ) : ℤ := int16 (r.cell n) (r.cell (n + 1))

def readShort (n : ℕ) : Region UInt8 := (r.read n).read (n + 1)

def writeShort (n : ℕ) (v : ℤ) : Region UInt8 :=
  (r.write n (lowByte v)).write (n + 1) (highByte v)

@[simp] theorem size_readShort (n : ℕ) : (r.readShort n).size = r.size := rfl

@[simp] theorem size_writeShort (n : ℕ) (v : ℤ) : (r.writeShort n v).size = r.size := rfl

@[simp] theorem short_readShort (n m : ℕ) : (r.readShort n).short m = r.short m := rfl

@[simp] theorem mem_touched_readShort {n i : ℕ} :
    i ∈ (r.readShort n).touched ↔ i = n + 1 ∨ i = n ∨ i ∈ r.touched := by
  simp [readShort]

@[simp] theorem mem_touched_writeShort {n i : ℕ} {v : ℤ} :
    i ∈ (r.writeShort n v).touched ↔ i = n + 1 ∨ i = n ∨ i ∈ r.touched := by
  simp [writeShort]

theorem short_writeShort_self (n : ℕ) {v : ℤ} (h : IsInt16 v) :
    (r.writeShort n v).short n = v := by
  have hne : n ≠ n + 1 := by omega
  rw [short, writeShort, cell_write_of_ne _ hne, cell_write_self, cell_write_self,
    int16_bytes h]

/-- Two offsets at which the numbers have no byte in common. -/
def Apart (m n : ℕ) : Prop := m + 2 ≤ n ∨ n + 2 ≤ m

theorem short_writeShort_of_apart {m n : ℕ} (h : Apart m n) (v : ℤ) :
    (r.writeShort n v).short m = r.short m := by
  unfold Apart at h
  rw [short, writeShort, cell_write_of_ne _ (by omega), cell_write_of_ne _ (by omega),
    cell_write_of_ne _ (by omega), cell_write_of_ne _ (by omega), short]

theorem short_clear {n : ℕ} (h : n + 2 ≤ r.size) : (r.clear 0).short n = 0 := by
  rw [short, cell_clear_of_lt _ (by omega), cell_clear_of_lt _ (by omega), int16_zero]

end Shorts

/-! ## Loops that rewrite numbers -/

section Rewrite

variable {g : ℕ → ℤ → ℤ}

/-- Replace the number at `n` by what `g` makes of it. -/
def rewriteShort (g : ℕ → ℤ → ℤ) (r : Region UInt8) (n : ℕ) : Region UInt8 :=
  (r.readShort n).writeShort n (g n (r.short n))

@[simp] theorem size_foldl_rewriteShort (l : List ℕ) (r : Region UInt8) :
    (l.foldl (rewriteShort g) r).size = r.size := by
  induction l generalizing r with
  | nil => rfl
  | cons n l ih => exact ih _

theorem short_foldl_rewriteShort_of_apart {l : List ℕ} {m : ℕ} (h : ∀ n ∈ l, Apart m n)
    (r : Region UInt8) : (l.foldl (rewriteShort g) r).short m = r.short m := by
  induction l generalizing r with
  | nil => rfl
  | cons n l ih =>
      obtain ⟨hn, hl⟩ := List.forall_mem_cons.1 h
      rw [List.foldl_cons, ih hl, rewriteShort, short_writeShort_of_apart _ hn,
        short_readShort]

theorem short_foldl_rewriteShort_of_mem (hg : ∀ n v, IsInt16 (g n v)) {l : List ℕ}
    (hl : l.Pairwise Apart) {m : ℕ} (hm : m ∈ l) (r : Region UInt8) :
    (l.foldl (rewriteShort g) r).short m = g m (r.short m) := by
  induction l generalizing r with
  | nil => cases hm
  | cons n l ih =>
      obtain ⟨hn, hl⟩ := List.pairwise_cons.1 hl
      rw [List.foldl_cons]
      rcases List.mem_cons.1 hm with rfl | hm
      · rw [short_foldl_rewriteShort_of_apart hn, rewriteShort,
          short_writeShort_self _ _ (hg ..)]
      · have hmn : Apart m n := (hn m hm).symm
        rw [ih hl hm, rewriteShort, short_writeShort_of_apart _ hmn, short_readShort]

theorem mem_touched_foldl_rewriteShort {l : List ℕ} {r : Region UInt8} {i : ℕ} :
    i ∈ (l.foldl (rewriteShort g) r).touched ↔
      i ∈ r.touched ∨ ∃ n ∈ l, i = n ∨ i = n + 1 := by
  induction l generalizing r with
  | nil => simp
  | cons n l ih =>
      rw [List.foldl_cons, ih]
      simp only [rewriteShort, mem_touched_writeShort, mem_touched_readShort, List.mem_cons,
        or_and_right, exists_or, exists_eq_left]
      grind

end Rewrite

end Region

end Memory
