import Presolve.Proofs.Linear.Exact
import Presolve.Proofs.Linear.Vector
import Presolve.Proofs.Number.Ordered
import Presolve.Problem.Basic

/-!
# Points that constraints admit

What it means that a point satisfies the bounds and the linear rows of a problem, over any numbers; and,
over exact ones, what happens to rows and bounds where variables are taken away. The part of a row that
belongs to known values moves to its right-hand side, and bounds that fix a variable are satisfied by the
point half-way between them.
-/

namespace Presolve

open Scalar

section

variable {α : Type} [Scalar α]

/-- The relation between the left and the right side of a row. -/
def SystemName.Relates : SystemName → α → α → Prop
  | inequalities, a, b => a ≤ b
  | equalities, a, b => a ≤ b ∧ b ≤ a

/-- Does a point satisfy every row of a system? -/
def LinearSystem.Holds (name : SystemName) (s : LinearSystem α) (x : List α) : Prop :=
  List.Forall₂ (fun row b => name.Relates (dot row x) b) s.rows s.rhs

/-- Is every variable of a point between its bounds? -/
def Bounds.Contains (b : Bounds α) (x : List α) : Prop :=
  List.Forall₂ (· ≤ ·) b.lower x ∧ List.Forall₂ (· ≤ ·) x b.upper

/-- No bounds of a variable exclude each other, or they would be marked. -/
theorem Bounds.not_upper_lt_lower {b : Bounds α} (h : b.infeasible.any id = false) {m : Nat}
    (hl : m < b.lower.length) (hu : m < b.upper.length) : ¬b.upper[m] < b.lower[m] := by
  have hmark := List.any_eq_false.1 h (decide (b.upper[m] < b.lower[m]))
    (List.mem_iff_getElem.2 ⟨m, by simpa [infeasible] using ⟨hl, hu⟩, by simp [infeasible]⟩)
  simpa using hmark

/-- Does a point satisfy the bounds and both systems of a problem? -/
structure Problem.Admits (p : Problem α) (x : List α) : Prop where
  bounds : p.bounds.Contains x
  inequalities : p.inequalities.Holds .inequalities x
  equalities : p.equalities.Holds .equalities x

/-- Problems admit points alike if each part of their constraints does. -/
theorem Problem.admits_congr {q p : Problem α} {y x : List α}
    (hb : q.bounds.Contains y ↔ p.bounds.Contains x)
    (hi : q.inequalities.Holds .inequalities y ↔ p.inequalities.Holds .inequalities x)
    (he : q.equalities.Holds .equalities y ↔ p.equalities.Holds .equalities x) :
    q.Admits y ↔ p.Admits x := by
  constructor
  · intro h
    exact ⟨hb.1 h.bounds, hi.1 h.inequalities, he.1 h.equalities⟩
  · intro h
    exact ⟨hb.2 h.bounds, hi.2 h.inequalities, he.2 h.equalities⟩

end

variable {K : Type} [Field K] [LinearOrder K] [IsStrictOrderedRing K] [FloorRing K]

namespace Extended

/-! ## Rows along an elimination and a rescaling -/

/-- The part of a row that belongs to known values may move to the right-hand side. -/
theorem relates_sub_iff (name : SystemName) (a s : K) (b : Extended K) :
    name.Relates (finite a) (b - finite s) ↔ name.Relates (finite (a + s)) b := by
  cases name with
  | inequalities => exact le_sub_iff s b a
  | equalities => exact and_congr (le_sub_iff s b a) (sub_le_iff s b a)

/-! ## Bounds -/

variable {lo hi : Extended K}

theorem middle_finite (l u : K) : Bounds.middle (finite l) (finite u) = finite ((l + u) / 2) := by
  rw [Bounds.middle, finite_add, two_eq, finite_div _ two_pos.ne']

/-- Bounds fix a variable if they are numbers that nearly agree. -/
theorem fixes_eq_true : Bounds.fixes lo hi = true ↔
    ∃ l u : K, lo = finite l ∧ hi = finite u ∧ |l - u| < 2 * tiny := by
  cases lo <;> cases hi
  case finite.finite l u =>
    have hwidth : (2 * epsilon : Extended K) = finite (2 * tiny) := by
      rw [two_eq, epsilon_eq, finite_mul]
    rw [Bounds.fixes, decide_eq_true_eq, finite_sub, hwidth, abs_finite, finite_lt]
    simp
  all_goals
    refine iff_of_false (fun h => by cases h) ?_
    rintro ⟨_, _, hl, hu, -⟩
    simp at hl hu

/-- Bounds that fix a variable and do not exclude each other have the point half-way between them. -/
theorem middle_of_fixes (hfixes : Bounds.fixes lo hi = true) (hle : ¬hi < lo) :
    ∃ m : K, Bounds.middle lo hi = finite m ∧ lo ≤ finite m ∧ finite m ≤ hi := by
  obtain ⟨l, u, rfl, rfl, -⟩ := fixes_eq_true.1 hfixes
  have hlu : l ≤ u := by simpa using hle
  refine ⟨(l + u) / 2, middle_finite l u, ?_, ?_⟩
  · rw [finite_le]
    linarith
  · rw [finite_le]
    linarith

end Extended
end Presolve
