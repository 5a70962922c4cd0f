import Mathlib.Algebra.Order.Field.Basic
import Mathlib.Tactic.FieldSimp
import Mathlib.Tactic.LinearCombination
import Mathlib.Tactic.Ring

/-!
# Drawing textured triangles

A vertex is a point of the plane together with the point of the texture that belongs
there. A triangle shows at each of its points the mean of the three texture points,
weighted with the areas of the parts that the point cuts the triangle into. Only
triangles that run counter-clockwise are drawn, and of several the last one is seen.
A point on an edge belongs to the triangle.

The weights add up to the area of the triangle, so a triangle whose texture points
depend on the vertices by one affine map shows the value of that map at every point.
-/

namespace Geometry

/-- A corner at `(x, y)` with the texture point `(s, t)`. -/
structure Vertex (K : Type*) where
  x : K
  y : K
  s : K
  t : K

/-- Three corners in the order in which they are given. -/
structure Triangle (K : Type*) where
  a : Vertex K
  b : Vertex K
  c : Vertex K

section Area

variable {K : Type*} [CommRing K]

/-- Twice the area of the triangle from `p` over `q` to `(x, y)`, with a minus sign if it
runs clockwise. -/
def edge (p q : Vertex K) (x y : K) : K :=
  (q.x - p.x) * (y - p.y) - (q.y - p.y) * (x - p.x)

/-- Twice the area of the triangle, with a minus sign if it runs clockwise. -/
def Triangle.doubleArea (T : Triangle K) : K := edge T.a T.b T.c.x T.c.y

/-- A point cuts a triangle into parts that make it up. -/
theorem Triangle.edge_add_edge_add_edge (T : Triangle K) (x y : K) :
    edge T.b T.c x y + edge T.c T.a x y + edge T.a T.b x y = T.doubleArea := by
  simp only [doubleArea, edge]
  ring

/-- The weights recover the point. -/
theorem Triangle.edge_mul_x (T : Triangle K) (x y : K) :
    edge T.b T.c x y * T.a.x + edge T.c T.a x y * T.b.x + edge T.a T.b x y * T.c.x =
      T.doubleArea * x := by
  simp only [doubleArea, edge]
  ring

theorem Triangle.edge_mul_y (T : Triangle K) (x y : K) :
    edge T.b T.c x y * T.a.y + edge T.c T.a x y * T.b.y + edge T.a T.b x y * T.c.y =
      T.doubleArea * y := by
  simp only [doubleArea, edge]
  ring

end Area

section Mean

variable {K : Type*} [Field K]

/-- The mean of the three values with the weights of the point. -/
def Triangle.mean (T : Triangle K) (value : Vertex K → K) (x y : K) : K :=
  (edge T.b T.c x y * value T.a + edge T.c T.a x y * value T.b +
    edge T.a T.b x y * value T.c) / T.doubleArea

/-- A value that depends on the corners by an affine map is met everywhere. -/
theorem Triangle.mean_eq_of_affine {T : Triangle K} (harea : T.doubleArea ≠ 0)
    {value : Vertex K → K} {k m n : K} (ha : value T.a = k + m * T.a.x + n * T.a.y)
    (hb : value T.b = k + m * T.b.x + n * T.b.y)
    (hc : value T.c = k + m * T.c.x + n * T.c.y) (x y : K) :
    T.mean value x y = k + m * x + n * y := by
  have hone := T.edge_add_edge_add_edge x y
  have hx := T.edge_mul_x x y
  have hy := T.edge_mul_y x y
  rw [mean, div_eq_iff harea, ha, hb, hc]
  linear_combination k * hone + m * hx + n * hy

end Mean

section Drawing

variable {K : Type*} [Field K] [LinearOrder K]

/-- The point belongs to the triangle, and the triangle is seen from its front. -/
def Triangle.Covers (T : Triangle K) (x y : K) : Prop :=
  0 < T.doubleArea ∧ 0 ≤ edge T.b T.c x y ∧ 0 ≤ edge T.c T.a x y ∧ 0 ≤ edge T.a T.b x y

instance (T : Triangle K) (x y : K) : Decidable (T.Covers x y) :=
  inferInstanceAs (Decidable (_ ∧ _ ∧ _ ∧ _))

/-- A point is covered if none of its weights is negative. -/
theorem Triangle.covers_iff_of_weights [IsStrictOrderedRing K] {T : Triangle K}
    (harea : 0 < T.doubleArea) {x y u v w : K} (hu : edge T.b T.c x y = T.doubleArea * u)
    (hv : edge T.c T.a x y = T.doubleArea * v) (hw : edge T.a T.b x y = T.doubleArea * w) :
    T.Covers x y ↔ 0 ≤ u ∧ 0 ≤ v ∧ 0 ≤ w := by
  rw [Covers, hu, hv, hw, mul_nonneg_iff_of_pos_left harea, mul_nonneg_iff_of_pos_left harea,
    mul_nonneg_iff_of_pos_left harea]
  exact and_iff_right harea

/-- The texture point that a triangle shows, if it covers the point. -/
def Triangle.sample (T : Triangle K) (x y : K) : Option (K × K) :=
  if T.Covers x y then some (T.mean Vertex.s x y, T.mean Vertex.t x y) else none

/-- The vertices three by three as triangles, each drawn over the ones in front. -/
def drawArrays : List (Vertex K) → K → K → Option (K × K)
  | a :: b :: c :: vertices, x, y =>
      (drawArrays vertices x y).or ((Triangle.mk a b c).sample x y)
  | _, _, _ => none

/-- What is drawn where all triangles take their texture points from one affine map. -/
theorem Triangle.sample_eq_of_affine {T : Triangle K} {k m n k' m' n' : K}
    (hs : ∀ v ∈ [T.a, T.b, T.c], v.s = k + m * v.x + n * v.y)
    (ht : ∀ v ∈ [T.a, T.b, T.c], v.t = k' + m' * v.x + n' * v.y) (x y : K) :
    T.sample x y =
      if T.Covers x y then some (k + m * x + n * y, k' + m' * x + n' * y) else none := by
  by_cases hcovers : T.Covers x y
  · rw [Triangle.sample, if_pos hcovers, if_pos hcovers,
      mean_eq_of_affine hcovers.1.ne' (hs _ (by simp)) (hs _ (by simp)) (hs _ (by simp)),
      mean_eq_of_affine hcovers.1.ne' (ht _ (by simp)) (ht _ (by simp)) (ht _ (by simp))]
  · rw [Triangle.sample, if_neg hcovers, if_neg hcovers]

end Drawing

end Geometry
