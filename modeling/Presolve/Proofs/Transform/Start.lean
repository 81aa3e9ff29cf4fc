import Presolve.Proofs.Problem.Stated
import Presolve.Transform.Start

/-!
# Feasible starts in closed form

A start that is moved is the old one, the old one moved into the bounds, or a point that the search
found, moved into the bounds. How the search works is open; `KeepsDimension` says what is relied on.
-/

namespace Presolve

open Scalar

variable {α : Type}

/-- A point that the search finds for a well-formed problem has an entry for every variable. -/
def NearestSearch.KeepsDimension (search : NearestSearch α) : Prop :=
  ∀ p n x, Problem.Fits p n → search p.nearestQuery = .ok (.point x) → x.length = n

/-- The search that stays where it is, as any does from a start that satisfies the constraints. -/
def NearestSearch.stay : NearestSearch α := fun q => .ok (.point q.start)

theorem NearestSearch.stay_keepsDimension : (stay : NearestSearch α).KeepsDimension := by
  intro p n x hp hx
  cases hx
  exact hp.length_start

variable [Scalar α]

theorem Bounds.clip_eq {b : Bounds α} {x : List α} {n : Nat} (hl : b.lower.length = n)
    (hu : b.upper.length = n) (hx : x.length = n) :
    b.clip x = .ok (List.zipWith atMost b.upper (List.zipWith atLeast b.lower x)) := by
  rw [Bounds.clip, entrywise_of_length_eq _ (hl.trans hx.symm)]
  exact entrywise_of_length_eq _ (by simp [hl, hu, hx])

/-- The excess over all lower bounds, and over all upper ones. -/
theorem Bounds.excess_eq {b : Bounds α} {x : List α} {n : Nat} (hl : b.lower.length = n)
    (hu : b.upper.length = n) (hx : x.length = n) :
    b.excess x = .ok (List.zipWith (· / ·) (List.zipWith (· - ·) b.lower x) (b.lower.map rhsSize)
      ++ List.zipWith (· / ·) (List.zipWith (· - ·) x b.upper) (b.upper.map rhsSize)) := by
  have hbelow : (List.zipWith (· - ·) b.lower x).length = (b.lower.map rhsSize).length := by
    simp [hl, hx]
  rw [← List.zipWith_append hbelow, ← List.map_append, excess,
    entrywise_of_length_eq _ (hl.trans hx.symm), entrywise_of_length_eq _ (hx.trans hu.symm)]
  exact entrywise_of_length_eq _ (by simp [hl, hu, hx])

namespace Problem

/-- Where a feasible start comes from. -/
theorem feasibleStart_eq_ok {search : NearestSearch α} {kind : ProblemKind} {p : Problem α}
    {start : List α} {failure : Option String}
    (h : p.feasibleStart search kind = .ok (start, failure)) :
    start = p.start ∨ p.bounds.clip p.start = .ok start ∨
      ∃ x, search p.nearestQuery = .ok (.point x) ∧ p.bounds.clip x = .ok start := by
  -- by kind: the start is kept, moved into the bounds, or searched for and then moved there
  cases kind with
  | unconstrained | nonlinearlyConstrained =>
    cases h
    exact .inl rfl
  | boundConstrained =>
    obtain ⟨x, hx, hpair⟩ := map_eq_ok.1 h
    cases hpair
    exact .inr (.inl hx)
  | linearlyConstrained =>
    obtain ⟨clipped, hclipped, h⟩ := bind_eq_ok.1 h
    split at h
    · cases h
    · obtain ⟨found, hfound, h⟩ := bind_eq_ok.1 h
      cases found with
      | point x =>
        obtain ⟨y, hy, hpair⟩ := bind_eq_ok.1 h
        cases hpair
        exact .inr (.inr ⟨x, hfound, hy⟩)
      | failure reason =>
        cases h
        exact .inr (.inl hclipped)

theorem Fits.length_clip {p : Problem α} {n : Nat} (hp : p.Fits n) {x y : List α}
    (hx : x.length = n) (h : p.bounds.clip x = .ok y) : y.length = n := by
  rw [Bounds.clip_eq hp.length_lower hp.length_upper hx] at h
  cases h
  simp [hp.length_lower, hp.length_upper, hx]

/-- A feasible start has an entry for every variable. -/
theorem length_feasibleStart {search : NearestSearch α} (hsearch : search.KeepsDimension)
    {kind : ProblemKind} {p : Problem α} {n : Nat} (hp : p.Fits n) {start : List α}
    {failure : Option String} (h : p.feasibleStart search kind = .ok (start, failure)) :
    start.length = n := by
  rcases feasibleStart_eq_ok h with rfl | h | ⟨x, hx, h⟩
  · exact hp.length_start
  · exact hp.length_clip hp.length_start h
  · exact hp.length_clip (hsearch p n x hp hx) h

/-- The same without a search for the start. -/
theorem length_feasibleStart_of_ne {search : NearestSearch α} {kind : ProblemKind}
    (hkind : kind ≠ .linearlyConstrained) {p : Problem α} {n : Nat} (hp : p.Fits n) {start : List α}
    {failure : Option String} (h : p.feasibleStart search kind = .ok (start, failure)) :
    start.length = n := by
  have hstay : p.feasibleStart .stay kind = p.feasibleStart search kind := by
    cases kind with
    | linearlyConstrained => exact absurd rfl hkind
    | _ => rfl
  exact length_feasibleStart NearestSearch.stay_keepsDimension hp (hstay.trans h)

end Problem
end Presolve
