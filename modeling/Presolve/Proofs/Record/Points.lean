import Presolve.Proofs.Preparation.Course

/-!
# The points of a record

A record maps points of the canonical space to points of the caller's variables and back. The maps of a
record that a preparation ends with never fail on points of the right length, and this file gives them
in closed form: `Record.Fits.restore_eq` and `Record.Fits.canonicalPoint_eq`.
-/

namespace Presolve

open Scalar

variable {α : Type} [Scalar α]

namespace Record

/-! ## The maps without their checks -/

/-- A canonical point in the unscaled variables. -/
def unscaled (r : Record α) (y : List α) : List α :=
  match r.rescaling with
  | some s => List.zipWith (· + ·) (List.zipWith (· * ·) s.factor y) s.shift
  | none => y

/-- A point of the variables that are left, with the values of the others. -/
def expanded (r : Record α) (x : List α) : List α :=
  match r.elimination with
  | some e => Mask.merge e.free x e.fixedValues
  | none => x

/-- The entries of a point for the variables that are left. -/
def restricted (r : Record α) (x : List α) : List α :=
  match r.elimination with
  | some e => Mask.select e.free x
  | none => x

/-- A point of the variables that are left in the canonical ones. -/
def scaled (r : Record α) (x : List α) : List α :=
  match r.rescaling with
  | some s => List.zipWith (· / ·) (List.zipWith (· - ·) x s.shift) s.factor
  | none => x

/-- The maps of a record go between points of its two dimensions. -/
structure Fits (r : Record α) : Prop where
  rescaling : ∀ s, r.rescaling = some s → s.Fits r.refinedDimension
  elimination : ∀ e, r.elimination = some e → e.Fits r.rawDimension ∧ e.dimension = r.refinedDimension
  dimension : r.elimination = none → r.refinedDimension = r.rawDimension

namespace Fits

variable {r : Record α} {x y : List α}

theorem length_unscaled (h : r.Fits) (hy : y.length = r.refinedDimension) :
    (r.unscaled y).length = r.refinedDimension := by
  unfold unscaled
  split
  · next s hs => exact (h.rescaling s hs).length_toUnscaled hy
  · exact hy

theorem length_scaled (h : r.Fits) (hx : x.length = r.refinedDimension) :
    (r.scaled x).length = r.refinedDimension := by
  unfold scaled
  split
  · next s hs => exact (h.rescaling s hs).length_toCanonical hx
  · exact hx

omit [Scalar α] in
theorem length_expanded (h : r.Fits) (hx : x.length = r.refinedDimension) :
    (r.expanded x).length = r.rawDimension := by
  unfold expanded
  split
  · next e he =>
    obtain ⟨hfits, hdim⟩ := h.elimination e he
    exact hfits.length_expand (hx.trans hdim.symm)
  · next hnone => exact hx.trans (h.dimension hnone)

omit [Scalar α] in
theorem length_restricted (h : r.Fits) (hx : x.length = r.rawDimension) :
    (r.restricted x).length = r.refinedDimension := by
  unfold restricted
  split
  · next e he =>
    obtain ⟨hfits, hdim⟩ := h.elimination e he
    exact (hfits.length_restrict hx).trans hdim
  · next hnone => exact hx.trans (h.dimension hnone).symm

/-- Undoing the rescaling never fails, whatever is done next. -/
theorem bind_unscaled {β : Type} (h : r.Fits) (hy : y.length = r.refinedDimension)
    (next : List α → Except Fault β) :
    (match r.rescaling with
      | some s => s.toUnscaled y >>= next
      | none => Except.ok y >>= next) = next (r.unscaled y) := by
  unfold unscaled
  split
  · next s hs =>
    rw [(h.rescaling s hs).toUnscaled_eq hy]
    rfl
  · rfl

omit [Scalar α] in
/-- Leaving out the eliminated variables never fails, whatever is done next. -/
theorem bind_restricted {β : Type} (h : r.Fits) (hx : x.length = r.rawDimension)
    (next : List α → Except Fault β) :
    (match r.elimination with
      | some e => e.restrict x >>= next
      | none => Except.ok x >>= next) = next (r.restricted x) := by
  unfold restricted
  split
  · next e he =>
    rw [(h.elimination e he).1.restrict_eq hx]
    rfl
  · rfl

/-- Restoring undoes the rescaling first and the elimination second. -/
theorem restore_eq (h : r.Fits) (hfree : r.facts.allFixed = false)
    (hy : y.length = r.refinedDimension) : r.restore y = .ok (r.expanded (r.unscaled y)) := by
  have hlen := h.length_unscaled hy
  rw [restore, hfree, if_neg Bool.false_ne_true]
  refine (h.bind_unscaled hy fun x => match r.elimination with
    | some e => e.expand x
    | none => pure x).trans ?_
  unfold expanded
  split
  · next e he =>
    obtain ⟨hfits, hdim⟩ := h.elimination e he
    exact hfits.expand_eq (hlen.trans hdim.symm)
  · rfl

/-- A canonical point is found by elimination first and rescaling second. -/
theorem canonicalPoint_eq (h : r.Fits) (hx : x.length = r.rawDimension) :
    r.canonicalPoint x = .ok (r.scaled (r.restricted x)) := by
  have hlen := h.length_restricted hx
  unfold canonicalPoint
  refine (h.bind_restricted hx fun x => match r.rescaling with
    | some s => s.toCanonical x
    | none => pure x).trans ?_
  unfold scaled
  split
  · next s hs => exact (h.rescaling s hs).toCanonical_eq hlen
  · rfl

omit [Scalar α] in
/-- The values of the variables that are left come back from a point that was expanded. -/
theorem restricted_expanded (h : r.Fits) (hx : x.length = r.refinedDimension) :
    r.restricted (r.expanded x) = x := by
  rw [restricted, expanded]
  split
  · next e he =>
    obtain ⟨hfits, hdim⟩ := h.elimination e he
    exact Mask.select_merge (hx.trans hdim.symm) hfits.2
  · rfl

omit [Scalar α] in
/-- A point comes back with the known values of the variables that were eliminated. -/
theorem expanded_restricted (h : r.Fits) (hx : x.length = r.rawDimension) :
    match r.elimination with
    | some e => Mask.select e.fixed (r.expanded (r.restricted x)) = e.fixedValues ∧
        Mask.select e.free (r.expanded (r.restricted x)) = Mask.select e.free x
    | none => r.expanded (r.restricted x) = x := by
  rw [expanded, restricted]
  cases he : r.elimination with
  | some e =>
    have hfits := (h.elimination e he).1
    have hselect := hfits.length_restrict hx
    exact ⟨Mask.select_others_merge hselect hfits.2, Mask.select_merge hselect hfits.2⟩
  | none => rfl

end Fits
end Record

/-! ## Preparations -/

variable [Interchange α] {search : NearestSearch α} {invoker : Invoker} {i : Input α}
  {e : Option Category} {j k : Journal α} {r : Record α}

/-- The maps of a record fit where the settled problem does. -/
theorem Course.record_fits_of_settled (c : Course search invoker i e j r k)
    (hsettled : c.settled.Fits r.refinedDimension) : r.Fits := by
  -- whether there is a rescaling and an elimination says which branch the stages took
  constructor
  · intro s hs
    have h := c.problem_eq hsettled
    split at h
    · obtain rfl := Option.some.inj (hs.symm.trans h.1)
      exact c.rescaling_fits hsettled
    · rw [h.1] at hs
      cases hs
  · intro el hel
    have h := c.reduced_eq
    split at h
    · obtain rfl := Option.some.inj (hel.symm.trans h.1)
      rw [c.rawDimension_eq_dimension, c.refinedDimension_eq, h.2]
      have hreduced := Problem.reducedBy_fits c.checked_fits c.elimination_fits
      exact ⟨c.elimination_fits, hreduced.length_start.symm⟩
    · rw [h.1] at hel
      cases hel
  · intro hnone
    have h := c.reduced_eq
    split at h
    · rw [h.1] at hnone
      cases hnone
    · rw [c.refinedDimension_eq, c.rawDimension_eq, h.2]

/-- The maps of a record that a preparation ends with fit. -/
theorem Course.record_fits (c : Course search invoker i e j r k) (hsearch : search.KeepsDimension) :
    r.Fits := c.record_fits_of_settled (c.settled_fits hsearch)

end Presolve
