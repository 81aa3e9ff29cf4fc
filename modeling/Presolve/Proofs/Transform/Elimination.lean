import Presolve.Proofs.Problem.Stated

/-!
# Elimination in closed form

Eliminating variables from a problem whose parts fit never fails. This file gives the result without
the checks of lengths that the program makes on its way: `Problem.eliminate_eq`.
-/

namespace Presolve

open Scalar

variable {α : Type}

/-! ## Points -/

/-- A vector that is spread has as many entries as were asked for. -/
theorem length_spread {count : Nat} {xs ys : List α} (h : spread count xs = .ok ys) : ys.length = count := by
  unfold spread at h
  split at h
  · next hlen =>
    cases h
    exact hlen
  · split at h
    · cases h
      exact List.length_replicate
    · cases h

/-- The values of an elimination are as many as its fixed variables. -/
def Elimination.Fits (e : Elimination α) (n : Nat) : Prop :=
  e.free.length = n ∧ e.fixedValues.length = Mask.count e.fixed

namespace Elimination.Fits

variable {e : Elimination α} {n : Nat}

theorem expand_eq (h : e.Fits n) {y : List α} (hy : y.length = e.dimension) :
    e.expand y = .ok (Mask.merge e.free y e.fixedValues) :=
  Mask.fill_eq hy h.2

/-- Any vector is filled up in the same way, once it is spread to the free variables. -/
theorem expand_eq_map (h : e.Fits n) (y : List α) :
    e.expand y = (spread e.dimension y).map fun y => Mask.merge e.free y e.fixedValues := by
  have hfixed : spread (Mask.count (Mask.others e.free)) e.fixedValues = .ok e.fixedValues := if_pos h.2
  rw [Elimination.expand, Mask.fill, Elimination.dimension]
  cases spread (Mask.count e.free) y with
  | error x => rfl
  | ok y =>
    show (spread _ e.fixedValues >>= fun unmarked => Except.ok (Mask.merge e.free y unmarked)) = _
    rw [hfixed]
    rfl

theorem restrict_eq (h : e.Fits n) {x : List α} (hx : x.length = n) :
    e.restrict x = .ok (Mask.select e.free x) :=
  Mask.pick_eq (h.1.trans hx.symm)

theorem length_expand (h : e.Fits n) {y : List α} (hy : y.length = e.dimension) :
    (Mask.merge e.free y e.fixedValues).length = n :=
  (Mask.length_merge hy h.2).trans h.1

theorem length_restrict (h : e.Fits n) {x : List α} (hx : x.length = n) :
    (Mask.select e.free x).length = e.dimension :=
  Mask.length_select (h.1.trans hx.symm)

theorem length_fixed (h : e.Fits n) : e.fixed.length = n := by
  rw [Elimination.fixed, Mask.length_others, h.1]

end Elimination.Fits

variable [Scalar α]

/-! ## Systems -/

/-- The columns of the fixed variables moved to the right-hand sides. -/
def Elimination.reducedSystem (e : Elimination α) (s : LinearSystem α) : LinearSystem α where
  rows := s.rows.map (Mask.select e.free)
  rhs := List.zipWith (· - ·) s.rhs
    (s.rows.map fun row => dot (Mask.select e.fixed row) e.fixedValues)

theorem Elimination.Fits.reduceSystem_eq {e : Elimination α} {s : LinearSystem α} {n : Nat}
    (h : e.Fits n) (hs : s.Fits n) (hn : 0 < n) :
    e.reduceSystem s = .ok (e.reducedSystem s) := by
  unfold Elimination.reduceSystem
  by_cases hrows : s.hasRows = true
  · have hfixed : s.rows.mapM (Mask.pick e.fixed) = .ok (s.rows.map (Mask.select e.fixed)) := by
      apply mapM_of_forall
      intro row hrow
      exact Mask.pick_eq (h.length_fixed.trans (hs.length_row row hrow).symm)
    have hfree : s.rows.mapM e.restrict = .ok (s.rows.map (Mask.select e.free)) := by
      apply mapM_of_forall
      intro row hrow
      exact h.restrict_eq (hs.length_row row hrow)
    have hlen : ∀ row ∈ s.rows.map (Mask.select e.fixed), row.length = e.fixedValues.length := by
      intro row hrow
      obtain ⟨row', hrow', rfl⟩ := List.mem_map.1 hrow
      rw [Mask.length_select (h.length_fixed.trans (hs.length_row row' hrow').symm), h.2]
    have happly := applyRows_eq hlen
    rw [List.map_map] at happly
    have hshift : LinearSystem.shiftedRhs (s.rows.map (Mask.select e.fixed)) s.rhs e.fixedValues
        = .ok (e.reducedSystem s).rhs := by
      rw [LinearSystem.shiftedRhs, happly]
      exact entrywise_of_length_eq _ (by simpa using hs.length_rhs)
    rw [if_pos hrows, hfixed]
    simp only [bind_eq_ok, pure_eq_ok, Except.ok.injEq, exists_eq_left']
    exact ⟨_, hshift, _, hfree, rfl⟩
  · -- a system without rows is left alone, and so it is in closed form
    rw [if_neg hrows, hs.eq_empty hn (by simpa using hrows)]
    rfl

theorem Elimination.Fits.reducedSystem_fits {e : Elimination α} {s : LinearSystem α} {n : Nat}
    (h : e.Fits n) (hs : s.Fits n) : (e.reducedSystem s).Fits e.dimension := by
  constructor
  · simp [Elimination.reducedSystem, hs.length_rhs]
  · intro row hrow
    obtain ⟨row', hrow', rfl⟩ := List.mem_map.1 hrow
    exact h.length_restrict (hs.length_row row' hrow')

/-! ## Problems -/

/-- The elimination of the variables that a mask marks. -/
def Bounds.elimination (b : Bounds α) (fixed : List Bool) : Elimination α where
  free := Mask.others fixed
  fixedValues := List.zipWith Bounds.middle (Mask.select fixed b.lower) (Mask.select fixed b.upper)

theorem Bounds.middles_eq {b : Bounds α} {fixed : List Bool} {n : Nat} (hl : b.lower.length = n)
    (hu : b.upper.length = n) (hf : fixed.length = n) :
    b.middles fixed = .ok (b.elimination fixed).fixedValues := by
  have hlen : (Mask.select fixed b.lower).length = (Mask.select fixed b.upper).length := by
    rw [Mask.length_select (hf.trans hl.symm), Mask.length_select (hf.trans hu.symm)]
  rw [Bounds.middles, Mask.pick_eq (hf.trans hl.symm), Mask.pick_eq (hf.trans hu.symm)]
  exact entrywise_of_length_eq _ hlen

theorem Bounds.elimination_fits {b : Bounds α} {fixed : List Bool} {n : Nat}
    (hl : b.lower.length = n) (hu : b.upper.length = n) (hf : fixed.length = n) :
    (b.elimination fixed).Fits n := by
  constructor
  · simp [Bounds.elimination, hf]
  · simp only [Bounds.elimination, Elimination.fixed, Mask.others_others, List.length_zipWith]
    rw [Mask.length_select (hf.trans hl.symm), Mask.length_select (hf.trans hu.symm), Nat.min_self]

/-- A problem in the free variables of an elimination. -/
def Problem.reducedBy (e : Elimination α) (p : Problem α) : Problem α where
  objective := some (e.onFree p.objective)
  start := Mask.select e.free p.start
  inequalities := e.reducedSystem p.inequalities
  equalities := e.reducedSystem p.equalities
  bounds := ⟨Mask.select e.free p.bounds.lower, Mask.select e.free p.bounds.upper⟩
  constraints := p.constraints.map fun c => e.onFree (some c)

/-- The variables that are left exclude every point if they did before. -/
theorem Problem.infeasible_reducedBy (e : Elimination α) (p : Problem α) :
    (p.reducedBy e).bounds.infeasible = Mask.select e.free p.bounds.infeasible :=
  (Mask.select_zipWith _ _ _ _).symm

theorem Problem.fixed_reducedBy (e : Elimination α) (p : Problem α) :
    (p.reducedBy e).bounds.fixed = Mask.select e.free p.bounds.fixed :=
  (Mask.select_zipWith _ _ _ _).symm

/-- Elimination of marked variables from a problem whose parts fit and whose systems are reduced in closed
form. -/
theorem Problem.eliminate_eq_of_systems {p : Problem α} {fixed : List Bool} {n : Nat} (hp : p.Fits n)
    (hf : fixed.length = n)
    (hineq : (p.bounds.elimination fixed).reduceSystem p.inequalities
      = .ok ((p.bounds.elimination fixed).reducedSystem p.inequalities))
    (heq : (p.bounds.elimination fixed).reduceSystem p.equalities
      = .ok ((p.bounds.elimination fixed).reducedSystem p.equalities)) :
    p.eliminate fixed = .ok (p.reducedBy (p.bounds.elimination fixed), p.bounds.elimination fixed) := by
  have he := Bounds.elimination_fits hp.length_lower hp.length_upper hf
  rw [Problem.eliminate, Bounds.middles_eq hp.length_lower hp.length_upper hf]
  have heta : (⟨Mask.others fixed, (p.bounds.elimination fixed).fixedValues⟩ : Elimination α)
      = p.bounds.elimination fixed := rfl
  simp only [bind_eq_ok, pure_eq_ok, Except.ok.injEq, exists_eq_left', heta]
  -- both systems first, then the start and the bounds
  exact ⟨_, hineq, _, heq, _, he.restrict_eq hp.length_start, _, he.restrict_eq hp.length_lower,
    _, he.restrict_eq hp.length_upper, rfl⟩

/-- Elimination of marked variables from a problem whose parts fit. -/
theorem Problem.eliminate_eq {p : Problem α} {fixed : List Bool} {n : Nat} (hp : p.Fits n)
    (hn : 0 < n) (hf : fixed.length = n) :
    p.eliminate fixed = .ok (p.reducedBy (p.bounds.elimination fixed), p.bounds.elimination fixed) := by
  have he := Bounds.elimination_fits hp.length_lower hp.length_upper hf
  exact eliminate_eq_of_systems hp hf (he.reduceSystem_eq hp.inequalities hn)
    (he.reduceSystem_eq hp.equalities hn)

theorem Problem.reducedBy_fits {p : Problem α} {e : Elimination α} {n : Nat} (hp : p.Fits n)
    (he : e.Fits n) : (p.reducedBy e).Fits e.dimension :=
  ⟨he.length_restrict hp.length_start, he.length_restrict hp.length_lower,
    he.length_restrict hp.length_upper, he.reducedSystem_fits hp.inequalities,
    he.reducedSystem_fits hp.equalities⟩

end Presolve
