import Presolve.Proofs.Number.Ordered
import Presolve.Problem.Basic

/-!
# Comparing numbers

Numbers are compared linearly, apart from undefined ones, which compare to nothing. `OrderedScalar` says so,
and the rest of this file is what follows for the greatest and the least of a list: one of them is on the
far side of a number exactly if one of the list is. So bounds restrict a problem exactly if one of them is
finite or excludes everything.
-/

namespace Presolve

open Scalar

/-- Numbers whose order is linear on those that compare to themselves. -/
class OrderedScalar (α : Type) [Scalar α] : Prop where
  lt_iff {x y : α} : x < y ↔ x ≤ y ∧ ¬y ≤ x
  trans {x y z : α} (hxy : x ≤ y) (hyz : y ≤ z) : x ≤ z
  total {x y : α} (hx : x ≤ x) (hy : y ≤ y) : x ≤ y ∨ y ≤ x

instance {K : Type} [Field K] [LinearOrder K] [FloorRing K] : OrderedScalar (Extended K) where
  lt_iff := Extended.lt_iff
  trans := Extended.le_trans
  total := Extended.le_total

namespace OrderedScalar

variable {α : Type} [Scalar α] [OrderedScalar α] {x y z : α} {xs : List α}

theorem lt_of_lt_of_le (h : x < y) (h' : y ≤ z) : x < z := by
  rw [lt_iff] at h ⊢
  exact ⟨trans h.1 h', fun hzx => h.2 (trans h' hzx)⟩

theorem lt_of_le_of_lt (h : x ≤ y) (h' : y < z) : x < z := by
  rw [lt_iff] at h' ⊢
  exact ⟨trans h h'.1, fun hzx => h'.2 (trans hzx h)⟩

theorem not_lt (hx : x ≤ x) (hy : y ≤ y) : ¬x < y ↔ y ≤ x := by
  rw [lt_iff]
  exact ⟨fun h => (total hx hy).elim (fun hxy => by_contra fun hyx => h ⟨hxy, hyx⟩) id, fun h h' => h'.2 h⟩

/-! ## Maxima and minima -/

theorem join_cases (hx : x ≤ x) (hy : y ≤ y) :
    join x y = x ∧ y ≤ x ∨ join x y = y ∧ x ≤ y := by
  unfold join
  split
  · next hxy => exact .inr ⟨rfl, hxy⟩
  · next hxy =>
    have hyx : y ≤ x := (total hx hy).resolve_left hxy
    rw [if_pos hyx]
    exact .inl ⟨rfl, hyx⟩

theorem meet_cases (hx : x ≤ x) (hy : y ≤ y) :
    meet x y = x ∧ x ≤ y ∨ meet x y = y ∧ y ≤ x := by
  unfold meet
  split
  · next hxy => exact .inl ⟨rfl, hxy⟩
  · next hxy =>
    have hyx : y ≤ x := (total hx hy).resolve_left hxy
    rw [if_pos hyx]
    exact .inr ⟨rfl, hyx⟩

/-- The greatest of some defined numbers is greater than a number exactly if one of them is. -/
theorem lt_foldl_join_iff (hx : x ≤ x) (hxs : ∀ a ∈ xs, a ≤ a) :
    z < xs.foldl join x ↔ z < x ∨ ∃ a ∈ xs, z < a := by
  induction xs generalizing x with
  | nil => simp
  | cons y xs ih =>
    have hy : y ≤ y := hxs y List.mem_cons_self
    have hrest : ∀ a ∈ xs, a ≤ a := fun a ha => hxs a (List.mem_cons_of_mem _ ha)
    have hstep : (join x y ≤ join x y) ∧ (z < join x y ↔ z < x ∨ z < y) := by
      rcases join_cases hx hy with ⟨h, hle⟩ | ⟨h, hle⟩ <;> rw [h]
      · exact ⟨hx, .inl, fun hz => hz.elim id fun hz => lt_of_lt_of_le hz hle⟩
      · exact ⟨hy, .inr, fun hz => hz.elim (fun hz => lt_of_lt_of_le hz hle) id⟩
    rw [List.foldl_cons, ih hstep.1 hrest, hstep.2]
    simp only [List.exists_mem_cons_iff, or_assoc]

/-- The least of some defined numbers is less than a number exactly if one of them is. -/
theorem foldl_meet_lt_iff (hx : x ≤ x) (hxs : ∀ a ∈ xs, a ≤ a) :
    xs.foldl meet x < z ↔ x < z ∨ ∃ a ∈ xs, a < z := by
  induction xs generalizing x with
  | nil => simp
  | cons y xs ih =>
    have hy : y ≤ y := hxs y List.mem_cons_self
    have hrest : ∀ a ∈ xs, a ≤ a := fun a ha => hxs a (List.mem_cons_of_mem _ ha)
    have hstep : (meet x y ≤ meet x y) ∧ (meet x y < z ↔ x < z ∨ y < z) := by
      rcases meet_cases hx hy with ⟨h, hle⟩ | ⟨h, hle⟩ <;> rw [h]
      · exact ⟨hx, .inl, fun hz => hz.elim id fun hz => lt_of_le_of_lt hle hz⟩
      · exact ⟨hy, .inr, fun hz => hz.elim (fun hz => lt_of_le_of_lt hle hz) id⟩
    rw [List.foldl_cons, ih hstep.1 hrest, hstep.2]
    simp only [List.exists_mem_cons_iff, or_assoc]

theorem lt_maximum?_iff (hxs : ∀ a ∈ xs, a ≤ a) :
    (∃ m, maximum? xs = some m ∧ z < m) ↔ ∃ a ∈ xs, z < a := by
  cases xs with
  | nil => simp [maximum?]
  | cons x xs =>
    have hx : x ≤ x := hxs x List.mem_cons_self
    have hrest : ∀ a ∈ xs, a ≤ a := fun a ha => hxs a (List.mem_cons_of_mem _ ha)
    simp only [maximum?, Option.some.injEq, exists_eq_left', lt_foldl_join_iff hx hrest,
      List.exists_mem_cons_iff]

theorem minimum?_lt_iff (hxs : ∀ a ∈ xs, a ≤ a) :
    (∃ m, minimum? xs = some m ∧ m < z) ↔ ∃ a ∈ xs, a < z := by
  cases xs with
  | nil => simp [minimum?]
  | cons x xs =>
    have hx : x ≤ x := hxs x List.mem_cons_self
    have hrest : ∀ a ∈ xs, a ≤ a := fun a ha => hxs a (List.mem_cons_of_mem _ ha)
    simp only [minimum?, Option.some.injEq, exists_eq_left', foldl_meet_lt_iff hx hrest,
      List.exists_mem_cons_iff]

/-! ## Moving numbers between bounds -/

variable {lo hi : α}

omit [OrderedScalar α] in
theorem atLeast_eq_ite (hx : x ≤ x) : atLeast lo x = if lo < x then x else lo :=
  if_neg (by simpa [isUndefined] using hx)

omit [OrderedScalar α] in
theorem atMost_eq_ite (hx : x ≤ x) : atMost hi x = if x < hi then x else hi :=
  if_neg (by simpa [isUndefined] using hx)

omit [OrderedScalar α] in
theorem atLeast_defined (hlo : lo ≤ lo) (hx : x ≤ x) : atLeast lo x ≤ atLeast lo x := by
  rw [atLeast_eq_ite hx]
  split
  · exact hx
  · exact hlo

theorem atLeast_le_iff (hlo : lo ≤ lo) (hx : x ≤ x) : atLeast lo x ≤ z ↔ lo ≤ z ∧ x ≤ z := by
  rw [atLeast_eq_ite hx]
  split
  · next h => exact ⟨fun hle => ⟨trans (lt_iff.1 h).1 hle, hle⟩, And.right⟩
  · next h => exact ⟨fun hle => ⟨hle, trans ((not_lt hlo hx).1 h) hle⟩, And.left⟩

theorem le_atLeast_iff (hlo : lo ≤ lo) (hx : x ≤ x) : z ≤ atLeast lo x ↔ z ≤ lo ∨ z ≤ x := by
  rw [atLeast_eq_ite hx]
  split
  · next h => exact ⟨.inr, fun hle => hle.elim (trans · (lt_iff.1 h).1) id⟩
  · next h => exact ⟨.inl, fun hle => hle.elim id (trans · ((not_lt hlo hx).1 h))⟩

theorem atMost_le_iff (hhi : hi ≤ hi) (hx : x ≤ x) : atMost hi x ≤ z ↔ hi ≤ z ∨ x ≤ z := by
  rw [atMost_eq_ite hx]
  split
  · next h => exact ⟨.inr, fun hle => hle.elim (trans (lt_iff.1 h).1) id⟩
  · next h => exact ⟨.inl, fun hle => hle.elim id (trans ((not_lt hx hhi).1 h))⟩

theorem le_atMost_iff (hhi : hi ≤ hi) (hx : x ≤ x) : z ≤ atMost hi x ↔ z ≤ hi ∧ z ≤ x := by
  rw [atMost_eq_ite hx]
  split
  · next h => exact ⟨fun hle => ⟨trans hle (lt_iff.1 h).1, hle⟩, And.right⟩
  · next h => exact ⟨fun hle => ⟨hle, trans hle ((not_lt hx hhi).1 h)⟩, And.left⟩

variable (hlo : lo ≤ lo) (hhi : hi ≤ hi) (hx : x ≤ x)
include hlo hhi hx

theorem clamp_le_iff : clamp lo hi x ≤ z ↔ hi ≤ z ∨ lo ≤ z ∧ x ≤ z := by
  rw [clamp, atMost_le_iff hhi (atLeast_defined hlo hx), atLeast_le_iff hlo hx]

theorem le_clamp_iff : z ≤ clamp lo hi x ↔ z ≤ hi ∧ (z ≤ lo ∨ z ≤ x) := by
  rw [clamp, le_atMost_iff hhi (atLeast_defined hlo hx), le_atLeast_iff hlo hx]

/-- A number that is moved between bounds which leave room is between them. -/
theorem clamp_between (hroom : lo ≤ hi) : lo ≤ clamp lo hi x ∧ clamp lo hi x ≤ hi :=
  ⟨(le_clamp_iff hlo hhi hx).2 ⟨hroom, .inl hlo⟩, (clamp_le_iff hlo hhi hx).2 (.inl hhi)⟩

end OrderedScalar

/-- Defined bounds restrict a problem exactly if one of them is above or below the infinity that stands for
no bound. -/
theorem Bounds.restricts_iff {α : Type} [Scalar α] [OrderedScalar α] {b : Bounds α}
    (hlower : ∀ lo ∈ b.lower, lo ≤ lo) (hupper : ∀ hi ∈ b.upper, hi ≤ hi) :
    b.restricts = true ↔ (∃ lo ∈ b.lower, -infinity < lo) ∨ ∃ hi ∈ b.upper, hi < infinity := by
  rw [← OrderedScalar.lt_maximum?_iff hlower, ← OrderedScalar.minimum?_lt_iff hupper, restricts,
    Bool.or_eq_true]
  apply or_congr
  · cases maximum? b.lower <;> simp
  · cases minimum? b.upper <;> simp

end Presolve
