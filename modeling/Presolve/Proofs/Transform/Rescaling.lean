import Presolve.Proofs.Problem.Stated
import Presolve.Transform.Rescaling

/-!
# Rescaling in closed form

On a problem whose parts fit, rescaling can fail for one reason only, a factor that is too small. This
file gives its result without the checks of lengths: the factor and the shift of a variable are
`factorAt` and `shiftAt` of its own bounds and start (`Rescaling.ofBounds_eq_ok_iff`), and
`Problem.rescale_eq_ok_iff` is the problem in the new variables.
-/

namespace Presolve

open Scalar

variable {α : Type} [Scalar α]

namespace Rescaling

/-- A rescaling of `n` variables. -/
def Fits (r : Rescaling α) (n : Nat) : Prop := r.factor.length = n ∧ r.shift.length = n

/-! ## Points -/

section

variable {r : Rescaling α} {n : Nat} {x : List α}

theorem Fits.toUnscaled_eq (h : r.Fits n) (hx : x.length = n) :
    r.toUnscaled x = .ok (List.zipWith (· + ·) (List.zipWith (· * ·) r.factor x) r.shift) := by
  rw [toUnscaled, entrywise_of_length_eq _ (h.1.trans hx.symm)]
  exact entrywise_of_length_eq _ (by simp [h.1, h.2, hx])

theorem Fits.toCanonical_eq (h : r.Fits n) (hx : x.length = n) :
    r.toCanonical x = .ok (List.zipWith (· / ·) (List.zipWith (· - ·) x r.shift) r.factor) := by
  rw [toCanonical, entrywise_of_length_eq _ (hx.trans h.2.symm)]
  exact entrywise_of_length_eq _ (by simp [h.1, h.2, hx])

theorem Fits.length_toUnscaled (h : r.Fits n) (hx : x.length = n) :
    (List.zipWith (· + ·) (List.zipWith (· * ·) r.factor x) r.shift).length = n := by
  simp [h.1, h.2, hx]

theorem Fits.length_toCanonical (h : r.Fits n) (hx : x.length = n) :
    (List.zipWith (· / ·) (List.zipWith (· - ·) x r.shift) r.factor).length = n := by
  simp [h.1, h.2, hx]

end

/-! ## Factors and shifts -/

/-- The factor of a variable: half the width between two finite bounds, and one otherwise. -/
def factorAt (lo hi : α) : α := if isBoxed lo hi then halfWidth lo hi else 1

/-- The shift of a variable: the point half-way between two finite bounds, and the start otherwise. -/
def shiftAt (lo hi x : α) : α := if isBoxed lo hi then Bounds.middle lo hi else x

/-- The rescaling for a start and bounds. -/
def fitted (start : List α) (b : Bounds α) : Rescaling α where
  factor := List.zipWith factorAt b.lower b.upper
  shift := List.zipWith (fun p x => shiftAt p.1 p.2 x) (List.zip b.lower b.upper) start

theorem fitted_fits {start : List α} {b : Bounds α} {n : Nat} (hs : start.length = n)
    (hl : b.lower.length = n) (hu : b.upper.length = n) : (fitted start b).Fits n := by
  constructor <;> simp [fitted, hs, hl, hu]

/-- Widths at the boxed places and ones elsewhere are the factors. -/
theorem merge_widths {b : Bounds α} {m : List Bool} (hm : m = List.zipWith isBoxed b.lower b.upper)
    (hlen : b.upper.length = b.lower.length) :
    Mask.merge m (List.zipWith halfWidth (Mask.select m b.lower) (Mask.select m b.upper))
      (List.replicate (Mask.count (Mask.others m)) 1) = List.zipWith factorAt b.lower b.upper := by
  subst hm
  -- ones are the other entries of a vector of ones, so that the general law of merging applies
  have hothers : (Mask.others (List.zipWith isBoxed b.lower b.upper)).length = b.lower.length := by
    simp [hlen]
  rw [← Mask.select_replicate hothers, Mask.merge_zipWith isBoxed halfWidth hlen (by simp)]
  apply List.ext_getElem
  · simp [hlen]
  · intro i _ _
    simp [factorAt]

/-- The rescaling for bounds is the fitted one, unless a factor is too small. -/
theorem ofBounds_eq {start : List α} {b : Bounds α} {n : Nat} (hs : start.length = n)
    (hl : b.lower.length = n) (hu : b.upper.length = n) :
    ofBounds start b = match minimum? (fitted start b).factor with
      | some least => if least < epsilon then .error (.defect .vanishingFactor) else .ok (fitted start b)
      | none => .ok (fitted start b) := by
  have hlu : b.upper.length = b.lower.length := hu.trans hl.symm
  -- the lengths that the steps check are those of the mask, so each result is in closed form
  obtain ⟨boxed, hboxed⟩ : ∃ boxed, boxed = List.zipWith isBoxed b.lower b.upper := ⟨_, rfl⟩
  have hlenl : boxed.length = b.lower.length := by simp [hboxed, hlu]
  have hlenu : boxed.length = b.upper.length := hlenl.trans hlu.symm
  have hleno : (Mask.others boxed).length = start.length := by simp [hlenl, hl, hs]
  have hselect : (Mask.select boxed b.lower).length = (Mask.select boxed b.upper).length := by
    rw [Mask.length_select hlenl, Mask.length_select hlenu]
  have hcount (f : α → α → α) :
      (List.zipWith f (Mask.select boxed b.lower) (Mask.select boxed b.upper)).length
        = Mask.count boxed := by
    rw [List.length_zipWith, hselect, Nat.min_self, Mask.length_select hlenu]
  have hshift : Mask.merge boxed
      (List.zipWith Bounds.middle (Mask.select boxed b.lower) (Mask.select boxed b.upper))
      (Mask.select (Mask.others boxed) start) = (fitted start b).shift := by
    rw [hboxed, Mask.merge_zipWith isBoxed Bounds.middle hlu (hs.trans hl.symm)]
    rfl
  have hfactor : Mask.merge boxed
      (List.zipWith halfWidth (Mask.select boxed b.lower) (Mask.select boxed b.upper))
      (List.replicate (Mask.count (Mask.others boxed)) 1) = (fitted start b).factor :=
    merge_widths hboxed hlu
  rw [ofBounds, entrywise_of_length_eq _ hlu.symm, ← hboxed]
  simp only [bind, Except.bind, Mask.pick_eq hlenl, Mask.pick_eq hlenu,
    Mask.pick_eq hleno, entrywise_of_length_eq _ hselect,
    Mask.fill_eq (hcount halfWidth) List.length_replicate, hfactor,
    Mask.fill_eq (hcount Bounds.middle) (Mask.length_select hleno), hshift]
  cases minimum? (fitted start b).factor with
  | none => rfl
  | some least =>
    dsimp only
    split <;> rfl

theorem ofBounds_eq_ok_iff {start : List α} {b : Bounds α} {n : Nat} {r : Rescaling α}
    (hs : start.length = n) (hl : b.lower.length = n) (hu : b.upper.length = n) :
    ofBounds start b = .ok r ↔ r = fitted start b ∧
      ∀ least, minimum? (fitted start b).factor = some least → ¬least < epsilon := by
  rw [ofBounds_eq hs hl hu]
  cases minimum? (fitted start b).factor with
  | none =>
    -- only a vector without entries has no least one
    simp only [reduceCtorEq, false_implies, implies_true, and_true, Except.ok.injEq]
    exact eq_comm
  | some least =>
    simp only [Option.some.injEq, forall_eq']
    split
    · next hsmall => exact iff_of_false (fun h => nomatch h) fun h => h.2 hsmall
    · next hfine =>
      rw [and_iff_left hfine, Except.ok.injEq]
      exact eq_comm

/-! ## Systems -/

/-- A system whose rows are stretched by the factors and whose right-hand sides are moved by the shift. -/
def rescaledSystem (r : Rescaling α) (s : LinearSystem α) : LinearSystem α where
  rows := s.rows.map fun row => List.zipWith (· * ·) row r.factor
  rhs := List.zipWith (· - ·) s.rhs (s.rows.map (dot · r.shift))

theorem Fits.rescaleSystem_eq {r : Rescaling α} {s : LinearSystem α} {n : Nat} (h : r.Fits n)
    (hs : s.Fits n) (hn : 0 < n) : r.rescaleSystem s = .ok (r.rescaledSystem s) := by
  unfold rescaleSystem
  by_cases hrows : s.hasRows = true
  · have happly : applyRows s.rows r.shift = .ok (s.rows.map (dot · r.shift)) := by
      apply applyRows_eq
      intro row hrow
      exact (hs.length_row row hrow).trans h.2.symm
    have hshift : LinearSystem.shiftedRhs s.rows s.rhs r.shift = .ok (r.rescaledSystem s).rhs := by
      rw [LinearSystem.shiftedRhs, happly]
      exact entrywise_of_length_eq _ (by simpa using hs.length_rhs)
    have hstretch : s.rows.mapM (fun row => entrywise (· * ·) row r.factor)
        = .ok (r.rescaledSystem s).rows := by
      apply mapM_of_forall
      intro row hrow
      exact entrywise_of_length_eq _ ((hs.length_row row hrow).trans h.1.symm)
    rw [if_pos hrows, hshift, hstretch]
    rfl
  · rw [if_neg hrows, hs.eq_empty hn (by simpa using hrows)]
    rfl

theorem Fits.rescaledSystem_fits {r : Rescaling α} {s : LinearSystem α} {n : Nat} (h : r.Fits n)
    (hs : s.Fits n) : (r.rescaledSystem s).Fits n := by
  constructor
  · simp [rescaledSystem, hs.length_rhs]
  · intro row hrow
    obtain ⟨row', hrow', rfl⟩ := List.mem_map.1 hrow
    simp [hs.length_row row' hrow', h.1]

end Rescaling

/-! ## Problems -/

/-- A problem in the canonical variables of a rescaling. -/
def Problem.rescaledBy (r : Rescaling α) (p : Problem α) : Problem α where
  objective := some (r.onCanonical p.objective)
  start := List.zipWith (· / ·) (List.zipWith (· - ·) p.start r.shift) r.factor
  inequalities := r.rescaledSystem p.inequalities
  equalities := r.rescaledSystem p.equalities
  bounds := ⟨List.zipWith (· / ·) (List.zipWith (· - ·) p.bounds.lower r.shift) r.factor,
    List.zipWith (· / ·) (List.zipWith (· - ·) p.bounds.upper r.shift) r.factor⟩
  constraints := p.constraints.map fun c => r.onCanonical (some c)

/-- Rescaling where no step on a system fails: the rest can only fail with the change of variables. -/
theorem Problem.rescale_eq_of_systems {p : Problem α} {n : Nat} (hp : p.Fits n)
    (hinequalities : (Rescaling.fitted p.start p.bounds).rescaleSystem p.inequalities
      = .ok ((Rescaling.fitted p.start p.bounds).rescaledSystem p.inequalities))
    (hequalities : (Rescaling.fitted p.start p.bounds).rescaleSystem p.equalities
      = .ok ((Rescaling.fitted p.start p.bounds).rescaledSystem p.equalities)) :
    p.rescale = (Rescaling.ofBounds p.start p.bounds).map fun r => (p.rescaledBy r, r) := by
  have hfitted := Rescaling.fitted_fits hp.length_start hp.length_lower hp.length_upper
  unfold Problem.rescale
  cases hbounds : Rescaling.ofBounds p.start p.bounds with
  | error f => rfl
  | ok r =>
    obtain ⟨rfl, -⟩ := (Rescaling.ofBounds_eq_ok_iff hp.length_start hp.length_lower
      hp.length_upper).1 hbounds
    simp only [bind, Except.bind, hinequalities, hequalities, hfitted.toCanonical_eq hp.length_start,
      hfitted.toCanonical_eq hp.length_lower, hfitted.toCanonical_eq hp.length_upper]
    rfl

/-- Rescaling of a problem whose parts fit. -/
theorem Problem.rescale_eq_ok_iff {p q : Problem α} {r : Rescaling α} {n : Nat} (hp : p.Fits n)
    (hn : 0 < n) : p.rescale = .ok (q, r) ↔ r = .fitted p.start p.bounds ∧ q = p.rescaledBy r ∧
      ∀ least, minimum? r.factor = some least → ¬least < epsilon := by
  have hfitted := Rescaling.fitted_fits hp.length_start hp.length_lower hp.length_upper
  rw [rescale_eq_of_systems hp (hfitted.rescaleSystem_eq hp.inequalities hn)
    (hfitted.rescaleSystem_eq hp.equalities hn), map_eq_ok]
  simp only [Rescaling.ofBounds_eq_ok_iff hp.length_start hp.length_lower hp.length_upper,
    Prod.mk.injEq]
  constructor
  · rintro ⟨_, ⟨rfl, hfine⟩, rfl, rfl⟩
    exact ⟨rfl, rfl, hfine⟩
  · rintro ⟨rfl, rfl, hfine⟩
    exact ⟨_, ⟨rfl, hfine⟩, rfl, rfl⟩

theorem Problem.rescaledBy_fits {p : Problem α} {r : Rescaling α} {n : Nat} (hp : p.Fits n)
    (hr : r.Fits n) : (p.rescaledBy r).Fits n :=
  ⟨hr.length_toCanonical hp.length_start, hr.length_toCanonical hp.length_lower,
    hr.length_toCanonical hp.length_upper, hr.rescaledSystem_fits hp.inequalities,
    hr.rescaledSystem_fits hp.equalities⟩

end Presolve
