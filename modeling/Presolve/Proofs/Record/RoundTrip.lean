import Presolve.Proofs.Preparation.Exact

/-!
# There and back again

The two maps of a record undo each other, as far as they can: a canonical point comes back as it was, and
a point of the caller's variables comes back with the values of the eliminated variables.
-/

namespace Presolve

open Scalar Extended

variable {K : Type} [Field K] [LinearOrder K] [IsStrictOrderedRing K] [FloorRing K]

/-! ## Rescaling -/

namespace Rescaling

variable {r : Rescaling (Extended K)} {n : Nat} {x y : List (Extended K)}

theorem IsProper.toCanonical_toUnscaled (h : r.IsProper) (hr : r.Fits n) (hy : y.length = n) :
    List.zipWith (· / ·) (List.zipWith (· - ·)
      (List.zipWith (· + ·) (List.zipWith (· * ·) r.factor y) r.shift) r.shift) r.factor = y := by
  apply List.ext_getElem
  · simp [hr.1, hr.2, hy]
  · intro m hm hmy
    have hfactor : m < r.factor.length := by rwa [hr.1, ← hy]
    have hshift : m < r.shift.length := by rwa [hr.2, ← hy]
    obtain ⟨f, s, hpos, hf, hs⟩ := h.exists_entries hfactor hshift
    simp only [List.getElem_zipWith, hf, hs]
    exact affine_inverse s hpos y[m]

theorem IsProper.toUnscaled_toCanonical (h : r.IsProper) (hr : r.Fits n) (hx : x.length = n) :
    List.zipWith (· + ·) (List.zipWith (· * ·) r.factor
      (List.zipWith (· / ·) (List.zipWith (· - ·) x r.shift) r.factor)) r.shift = x := by
  apply List.ext_getElem
  · simp [hr.1, hr.2, hx]
  · intro m hm hmx
    have hfactor : m < r.factor.length := by rwa [hr.1, ← hx]
    have hshift : m < r.shift.length := by rwa [hr.2, ← hx]
    obtain ⟨f, s, hpos, hf, hs⟩ := h.exists_entries hfactor hshift
    simp only [List.getElem_zipWith, hf, hs]
    exact inverse_affine s hpos x[m]

end Rescaling

namespace Record.Fits

variable {r : Record (Extended K)} {x y : List (Extended K)}

theorem scaled_unscaled (h : r.Fits) (hproper : ∀ s, r.rescaling = some s → s.IsProper)
    (hy : y.length = r.refinedDimension) : r.scaled (r.unscaled y) = y := by
  rw [scaled, unscaled]
  split
  · next s hs => exact (hproper s hs).toCanonical_toUnscaled (h.rescaling s hs) hy
  · rfl

theorem unscaled_scaled (h : r.Fits) (hproper : ∀ s, r.rescaling = some s → s.IsProper)
    (hx : x.length = r.refinedDimension) : r.unscaled (r.scaled x) = x := by
  rw [scaled, unscaled]
  split
  · next s hs => exact (hproper s hs).toUnscaled_toCanonical (h.rescaling s hs) hx
  · rfl

end Record.Fits

/-! ## Preparations -/

variable [Interchange (Extended K)] {search : NearestSearch (Extended K)} {invoker : Invoker}
  {i : Input (Extended K)} {e : Option Category} {r : Record (Extended K)} {given : Problem (Extended K)}

/-- Unless every variable is fixed, each map of a record undoes the other: a canonical point comes back
unchanged, and a point of the caller's variables keeps its entries except for those of eliminated
variables, which get the recorded values. -/
theorem prepare_round_trip (hdim : search.KeepsDimension) (hfinite : search.FindsFinite)
    (h : (Prep.run e (prepare search invoker i)).1 = .ok r)
    (hgiven : i.stated invoker.name = .ok given) (hproper : given.IsProper)
    (hfree : r.facts.allFixed = false) :
    (∀ y, y.length = r.refinedDimension →
      ∃ x, x.length = r.rawDimension ∧ r.restore y = .ok x ∧ r.canonicalPoint x = .ok y) ∧
    (∀ x, x.length = r.rawDimension →
      ∃ y x', r.canonicalPoint x = .ok y ∧ r.restore y = .ok x' ∧ x'.length = r.rawDimension ∧
        match r.elimination with
        | some el => el.fixed = r.facts.fixed ∧ el.fixed.length = r.rawDimension ∧
            Mask.select el.fixed x' = r.facts.fixedValues ∧
            Mask.select el.free x' = Mask.select el.free x
        | none => x' = x) := by
  obtain ⟨c⟩ := exists_course (Prod.ext h rfl)
  obtain rfl := Except.ok.inj (hgiven.symm.trans c.stated_eq)
  have hfits := c.record_fits hdim
  have hscaling : ∀ s, r.rescaling = some s → s.IsProper :=
    fun s hs => c.rescaling_isProper hdim hfinite hproper hs
  constructor
  · intro y hy
    have hlen := hfits.length_expanded (hfits.length_unscaled hy)
    refine ⟨_, hlen, hfits.restore_eq hfree hy, ?_⟩
    rw [hfits.canonicalPoint_eq hlen, hfits.restricted_expanded (hfits.length_unscaled hy),
      hfits.scaled_unscaled hscaling hy]
  · intro x hx
    have hrestricted := hfits.length_restricted hx
    have hscaled := hfits.length_scaled hrestricted
    have hback := hfits.restore_eq hfree hscaled
    rw [hfits.unscaled_scaled hscaling hrestricted] at hback
    refine ⟨_, _, hfits.canonicalPoint_eq hx, hback, hfits.length_expanded hrestricted, ?_⟩
    have hentries := hfits.expanded_restricted hx
    cases hel : r.elimination with
    | some el =>
      obtain ⟨hfixed, hvalues⟩ := c.elimination_facts hel
      have hlen := (hfits.elimination el hel).1.length_fixed
      rw [hel] at hentries
      refine ⟨hfixed, hlen, ?_, hentries.2⟩
      rw [← hvalues]
      exact hentries.1
    | none =>
      rw [hel] at hentries
      exact hentries

/-- A variable between bounds and one that they fix, to be rescaled. -/
def halfPinnedInput : Input (Extended ℚ) where
  objective := zeroObjective
  start := .list [.int 0, .int 1]
  lower := .list [.int (-1), .int 1]
  upper := .list [.int 3, .int 1]
  options := .mapping [(.text "scale", .bool true)]

/-- One point goes there and back again: the bounds of its first entry become one, and its second entry
becomes the value that it is fixed to. -/
theorem prepare_round_trip_halfPinnedInput : ∃ r,
    (Prep.run none (prepare NearestSearch.stay .frontEnd halfPinnedInput)).1 = .ok r ∧
      (r.isReduced, r.isScaled) = (true, true) ∧
      (∃ x, x.length = 2 ∧ r.restore [finite 1] = .ok x ∧ r.canonicalPoint x = .ok [finite 1]) ∧
      ∃ y, r.canonicalPoint [finite 3, finite 7] = .ok y ∧
        r.restore y = .ok [finite 3, finite 1] := by
  have hrun : (Prep.run none (prepare NearestSearch.stay .frontEnd halfPinnedInput)).1.toOption.map
      (fun r => (r.isReduced, r.isScaled, r.facts.allFixed, r.rawDimension, r.refinedDimension))
        = some (true, true, false, 2, 1) := by decide +kernel
  have hpoint : (Prep.run none (prepare NearestSearch.stay .frontEnd halfPinnedInput)).1.toOption.map
      (fun r => (r.canonicalPoint [finite 3, finite 7] >>= r.restore).toOption)
        = some (some [finite 3, finite 1]) := by decide +kernel
  have hstated : (halfPinnedInput.stated Invoker.frontEnd.name).toOption.map
      (fun p => (p.start, p.bounds.lower, p.bounds.upper))
        = some ([finite 0, finite 1], [finite (-1), finite 1], [finite 3, finite 1]) := by
    decide +kernel
  obtain ⟨r, hr, hrecord⟩ := exists_of_toOption_map hrun
  obtain ⟨given, hgiven, hparts⟩ := exists_of_toOption_map hstated
  simp only [Prod.mk.injEq] at hrecord hparts
  have hproper : given.IsProper := by
    constructor
    · simp [hparts.1]
    · simp [hparts.2.1, IsLowerBound]
    · simp [hparts.2.2, IsUpperBound]
  obtain ⟨hthere, hback⟩ := prepare_round_trip NearestSearch.stay_keepsDimension
    NearestSearch.stay_findsFinite hr hgiven hproper hrecord.2.2.1
  rw [hrecord.2.2.2.1] at hthere hback
  obtain ⟨y, x', hy, hx', -⟩ := hback [finite 3, finite 7] rfl
  have hx : x' = [finite 3, finite 1] := by
    have h : (r.canonicalPoint [finite 3, finite 7] >>= r.restore).toOption
        = some [finite 3, finite 1] := by
      rw [hr] at hpoint
      exact Option.some.inj hpoint
    have hboth : r.canonicalPoint [finite 3, finite 7] >>= r.restore = .ok x' :=
      bind_eq_ok.2 ⟨y, hy, hx'⟩
    rw [hboth] at h
    exact Option.some.inj h
  rw [hx] at hx'
  refine ⟨r, hr, by rw [hrecord.1, hrecord.2.1], ?_, y, hy, hx'⟩
  exact hthere [finite 1] (by rw [hrecord.2.2.2.2]; rfl)

end Presolve
