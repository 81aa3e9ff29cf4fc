import Presolve.Proofs.Number.Comparison
import Presolve.Proofs.Number.Steady
import Presolve.Proofs.Transform.Rescaling
import Presolve.Proofs.Transform.Successive

/-!
# The normal form of a rescaling

In exact arithmetic a problem is in its normal form after one rescaling: the bounds of a variable are `-1`
and `1`, or one of them is infinite and its start is zero. The rescaling that fits a problem in normal form
changes nothing, so a second pass leaves the problem as it is, its functions included.

A rescaling exists unless two finite bounds of a variable are too close to each other.
-/

namespace Presolve

open Scalar Extended

/-- A vector of any length is combined with one of `n` entries in the same way, once it is spread to `n`
entries; a vector of one entry is spread itself. -/
theorem entrywise_eq_spread {α β γ : Type} (f : α → β → γ) {xs : List α} {n : Nat} (hx : xs.length = n)
    (hn : n ≠ 1) (ys : List β) : entrywise f xs ys = (spread n ys).map (List.zipWith f xs) := by
  subst hx
  unfold entrywise spread
  by_cases h : xs.length = ys.length
  · rw [if_pos h, if_pos h.symm]
    rfl
  · rw [if_neg h, if_neg (Ne.symm h)]
    match xs, ys with
    | [], [] => exact absurd rfl h
    | [_], _ => exact absurd rfl hn
    | [], [_] => rfl
    | [], _ :: _ :: _ => rfl
    | _ :: _ :: _, [] => rfl
    | _ :: _ :: _, _ :: _ :: _ => rfl
    | x :: x' :: xs, [y] =>
      refine congrArg Except.ok (List.ext_getElem (by simp) fun i _ _ => ?_)
      simp only [List.getElem_map, List.getElem_zipWith, List.getElem_replicate]

variable {K : Type} [Field K] [LinearOrder K] [FloorRing K]

/-! ## The rescaling that changes nothing -/

namespace Extended

theorem finite_one_mul (x : Extended K) [IsStrictOrderedRing K] : finite 1 * x = x := by
  cases x with
  | finite x => rw [finite_mul, one_mul]
  | top => exact mul_top one_pos
  | bottom => exact mul_bottom one_pos
  | undefined => rfl

theorem add_finite_zero (x : Extended K) : x + finite 0 = x := by
  cases x with
  | finite x => rw [finite_add, add_zero]
  | top | bottom | undefined => rfl

/-- A number that is moved and stretched stays above the least infinity and below the greatest one. -/
theorem neg_infinity_lt_affine {f : K} (s : K) (hf : 0 < f) (x : Extended K) :
    -infinity < (x - finite s) / finite f ↔ -infinity < x := by
  cases x with
  | finite x =>
    rw [finite_sub, finite_div _ hf.ne']
    exact Iff.rfl
  | top => rw [top_sub, top_div hf]
  | bottom => rw [bottom_sub, bottom_div hf]
  | undefined => rw [undefined_sub, undefined_div]

theorem affine_lt_infinity {f : K} (s : K) (hf : 0 < f) (x : Extended K) :
    (x - finite s) / finite f < infinity ↔ x < infinity := by
  cases x with
  | finite x =>
    rw [finite_sub, finite_div _ hf.ne']
    exact Iff.rfl
  | top => rw [top_sub, top_div hf]
  | bottom => rw [bottom_sub, bottom_div hf]
  | undefined => rw [undefined_sub, undefined_div]

theorem dot_zeros {row : List (Extended K)} (hrow : ∀ a ∈ row, IsFinite a) (n : Nat) :
    dot row (List.replicate n 0) = finite 0 := by
  obtain ⟨row, rfl⟩ := exists_map_finite hrow
  have hproduct : List.zipWith (· * ·) row (List.replicate n (0 : K))
      = List.replicate (min row.length n) 0 :=
    List.ext_getElem (by simp) fun i _ _ => by simp
  rw [zero_eq, ← List.map_replicate, dot_map_finite, Extended.inner, hproduct, List.sum_replicate, smul_zero]

end Extended

namespace Rescaling

/-- The change of `n` variables that changes nothing. -/
def identity (n : Nat) : Rescaling (Extended K) := ⟨List.replicate n 1, List.replicate n 0⟩

theorem identity_fits (n : Nat) : (identity n : Rescaling (Extended K)).Fits n :=
  ⟨List.length_replicate, List.length_replicate⟩

variable {r : Rescaling (Extended K)} {n : Nat} {x : List (Extended K)}

theorem toCanonical_identity (hx : x.length = n) :
    List.zipWith (· / ·) (List.zipWith (· - ·) x (identity n).shift) (identity n).factor = x := by
  apply List.ext_getElem
  · simp [identity, hx]
  · intro i _ _
    simp only [identity, List.getElem_zipWith, List.getElem_replicate, zero_eq, sub_finite_zero, div_one_eq]

variable [IsStrictOrderedRing K]

theorem stretch_identity (hx : x.length = n) :
    List.zipWith (· * ·) (identity n).factor x = x := by
  apply List.ext_getElem
  · simp [identity, hx]
  · intro i _ _
    simp only [identity, List.getElem_zipWith, List.getElem_replicate, one_eq, finite_one_mul]

theorem unscaled_identity (hx : x.length = n) :
    List.zipWith (· + ·) (List.zipWith (· * ·) (identity n).factor x) (identity n).shift = x := by
  rw [stretch_identity hx]
  apply List.ext_getElem
  · simp [identity, hx]
  · intro i _ _
    simp only [identity, List.getElem_zipWith, List.getElem_replicate, zero_eq, add_finite_zero]

omit [IsStrictOrderedRing K] in
theorem Fits.toUnscaled_eq_spread (h : r.Fits n) (hn : n ≠ 1) (x : List (Extended K)) :
    r.toUnscaled x = (spread n x).map fun x =>
      List.zipWith (· + ·) (List.zipWith (· * ·) r.factor x) r.shift := by
  rw [toUnscaled, entrywise_eq_spread _ h.1 hn]
  cases hs : spread n x with
  | error f => rfl
  | ok y => exact entrywise_of_length_eq _ (by simp [h.1, h.2, length_spread hs])

/-- The change of variables after one that changes nothing, for points of any length. -/
theorem toUnscaled_identity_bind (h : r.Fits n) (x : List (Extended K)) :
    (identity n).toUnscaled x >>= r.toUnscaled = r.toUnscaled x := by
  by_cases hn : n = 1
  · -- a single variable goes with every entry of a longer point
    subst hn
    have hsame : (identity 1).toUnscaled x = .ok x := by
      by_cases hx : x.length = 1
      · rw [(identity_fits 1).toUnscaled_eq hx, unscaled_identity hx]
      · match x with
        | [_] => exact absurd rfl hx
        | [] => rfl
        | a :: b :: x =>
          show Except.ok (((a :: b :: x).map (1 * ·)).map (· + 0)) = _
          simp only [one_eq, zero_eq, finite_one_mul, add_finite_zero, List.map_id']
    rw [hsame]
    rfl
  · rw [(identity_fits n).toUnscaled_eq_spread hn, h.toUnscaled_eq_spread hn]
    cases hs : spread n x with
    | error f => rfl
    | ok y =>
      have hy := length_spread hs
      show r.toUnscaled (List.zipWith _ _ _) = _
      rw [unscaled_identity hy, h.toUnscaled_eq hy]
      rfl

theorem onCanonical_identity (h : r.Fits n) (f : Option (Evaluator (Extended K))) :
    (identity n).onCanonical (some (r.onCanonical f)) = r.onCanonical f := by
  funext x
  show (identity n).toUnscaled x >>= (fun y => r.toUnscaled y >>= _) = r.toUnscaled x >>= _
  rw [← bind_assoc, toUnscaled_identity_bind h]

omit [IsStrictOrderedRing K] in
/-- A system with finite coefficients stays as it is, whatever its right-hand sides are. -/
theorem rescaledSystem_identity {s : LinearSystem (Extended K)} (hs : s.Fits n) (hrows : s.HasFiniteRows) :
    (identity n).rescaledSystem s = s := by
  obtain ⟨rows, rhs⟩ := s
  refine congrArg₂ LinearSystem.mk ?_ ?_
  · refine (List.map_congr_left fun row hrow => ?_).trans (List.map_id rows)
    apply List.ext_getElem
    · simp [identity, hs.length_row row hrow]
    · intro i hi _
      obtain ⟨a, ha⟩ := hrows row hrow row[i] (List.getElem_mem _)
      simp [identity, one_eq, ha]
  · have hdot : rows.map (dot · (identity n).shift) = rows.map fun _ => finite (0 : K) :=
      List.map_congr_left fun row hrow => dot_zeros (hrows row hrow) n
    rw [hdot]
    apply List.ext_getElem
    · simp [hs.length_rhs]
    · intro i _ _
      simp only [List.getElem_zipWith, List.getElem_map, sub_finite_zero]

end Rescaling

/-! ## One variable -/

/-- A variable of a problem with its bounds and its start. -/
structure Problem.HasVariable (p : Problem (Extended K)) (i : Nat) (lo hi x : Extended K) : Prop where
  lower : p.bounds.lower[i]? = some lo
  upper : p.bounds.upper[i]? = some hi
  start : p.start[i]? = some x

omit [Field K] [LinearOrder K] [FloorRing K] in
theorem Problem.Fits.exists_hasVariable {p : Problem (Extended K)} {n i : Nat} (hp : p.Fits n) (hi : i < n) :
    ∃ lo hi x, p.HasVariable i lo hi x :=
  ⟨_, _, _, List.getElem?_eq_getElem (hp.length_lower ▸ hi), List.getElem?_eq_getElem (hp.length_upper ▸ hi),
    List.getElem?_eq_getElem (hp.length_start ▸ hi)⟩

omit [Field K] [LinearOrder K] [FloorRing K] in
theorem Problem.HasVariable.isProper {p : Problem (Extended K)} {i : Nat} {lo hi x : Extended K}
    (h : p.HasVariable i lo hi x) (hp : p.IsProper) : IsLowerBound lo ∧ IsUpperBound hi ∧ IsFinite x :=
  ⟨hp.lower lo (List.mem_of_getElem? h.lower), hp.upper hi (List.mem_of_getElem? h.upper),
    hp.start x (List.mem_of_getElem? h.start)⟩

namespace Rescaling

/-- Bounds and start of a variable in normal form. -/
def IsNormal (lo hi x : Extended K) : Prop :=
  lo = finite (-1) ∧ hi = finite 1 ∨ isBoxed lo hi = false ∧ x = finite 0

/-- A value of a variable after the rescaling that fits its bounds and its start. -/
def canonicalAt (lo hi x y : Extended K) : Extended K := (y - shiftAt lo hi x) / factorAt lo hi

theorem rescaledBy_hasVariable {p : Problem (Extended K)} {i : Nat} {lo hi x : Extended K}
    (h : p.HasVariable i lo hi x) :
    (fitted p.start p.bounds).factor[i]? = some (factorAt lo hi) ∧
      (p.rescaledBy (fitted p.start p.bounds)).HasVariable i (canonicalAt lo hi x lo)
        (canonicalAt lo hi x hi) (canonicalAt lo hi x x) := by
  refine ⟨?_, ?_, ?_, ?_⟩ <;>
    simp [Problem.rescaledBy, fitted, canonicalAt, List.getElem?_zipWith, List.zip, h.lower, h.upper, h.start]

variable {lo hi x : Extended K}

/-- A variable is boxed if both of its bounds are numbers. -/
theorem isBoxed_eq_true_iff (hlo : IsLowerBound lo) (hhi : IsUpperBound hi) :
    isBoxed lo hi = true ↔ IsFinite lo ∧ IsFinite hi := by
  constructor
  · intro h
    obtain ⟨l, u, rfl, rfl⟩ := isFinite_of_isBoxed hlo hhi h
    exact ⟨isFinite_finite l, isFinite_finite u⟩
  · rintro ⟨⟨l, rfl⟩, ⟨u, rfl⟩⟩
    rfl

theorem factorAt_finite (l u : K) : factorAt (finite l) (finite u) = finite ((u - l) / 2) := by
  show halfWidth (finite l) (finite u) = _
  rw [halfWidth, finite_sub, two_eq, finite_div _ two_ne_zero]

theorem shiftAt_finite (l u : K) (x : Extended K) :
    shiftAt (finite l) (finite u) x = finite ((l + u) / 2) := by
  show Bounds.middle (finite l) (finite u) = _
  rw [Bounds.middle, finite_add, two_eq, finite_div _ two_ne_zero]

theorem canonicalAt_of_boxed {l u : K} (hwidth : 0 < (u - l) / 2) (x : Extended K) :
    canonicalAt (finite l) (finite u) x (finite l) = finite (-1) ∧
      canonicalAt (finite l) (finite u) x (finite u) = finite 1 := by
  have hwidth' : u - l ≠ 0 := fun h => by simp [h] at hwidth
  have hlower : (l - (l + u) / 2) / ((u - l) / 2) = -1 := by
    field_simp
    ring
  have hupper : (u - (l + u) / 2) / ((u - l) / 2) = 1 := by
    field_simp
    ring
  simp only [canonicalAt, factorAt_finite, shiftAt_finite, finite_sub, finite_div _ hwidth.ne', hlower,
    hupper, and_self]

theorem canonicalAt_of_not_boxed (h : isBoxed lo hi = false) (x y : Extended K) :
    factorAt lo hi = finite 1 ∧ canonicalAt lo hi x y = y - x := by
  have hfactor : factorAt lo hi = 1 := if_neg (by simp [h])
  refine ⟨hfactor.trans one_eq, ?_⟩
  rw [canonicalAt, hfactor, shiftAt, if_neg (by simp [h]), div_one_eq]

/-- What rescaling makes of a variable whose factor is positive. -/
theorem canonicalAt_spec (hlo : IsLowerBound lo) (hhi : IsUpperBound hi) (hx : IsFinite x)
    (hfactor : IsPositive (factorAt lo hi)) :
    (IsFinite lo ∧ IsFinite hi →
      canonicalAt lo hi x lo = finite (-1) ∧ canonicalAt lo hi x hi = finite 1) ∧
    (¬(IsFinite lo ∧ IsFinite hi) → factorAt lo hi = finite 1 ∧ canonicalAt lo hi x x = finite 0 ∧
      (lo = bottom → canonicalAt lo hi x lo = bottom) ∧ (hi = top → canonicalAt lo hi x hi = top)) := by
  constructor
  · rintro ⟨⟨l, rfl⟩, ⟨u, rfl⟩⟩
    obtain ⟨f, hpos, hf⟩ := hfactor
    rw [factorAt_finite] at hf
    cases hf
    exact canonicalAt_of_boxed hpos x
  · intro h
    have hopen : isBoxed lo hi = false := by
      rwa [← isBoxed_eq_true_iff hlo hhi, Bool.not_eq_true] at h
    obtain ⟨a, rfl⟩ := hx
    refine ⟨(canonicalAt_of_not_boxed hopen (finite a) (finite a)).1, ?_, ?_, ?_⟩
    · rw [(canonicalAt_of_not_boxed hopen _ _).2, finite_sub, sub_self]
    · rintro rfl
      exact (canonicalAt_of_not_boxed hopen _ _).2
    · rintro rfl
      exact (canonicalAt_of_not_boxed hopen _ _).2

/-- Rescaling brings a variable into its normal form. -/
theorem isNormal_canonicalAt (hlo : IsLowerBound lo) (hhi : IsUpperBound hi) (hx : IsFinite x)
    (hfactor : IsPositive (factorAt lo hi)) :
    IsNormal (canonicalAt lo hi x lo) (canonicalAt lo hi x hi) (canonicalAt lo hi x x) := by
  obtain ⟨hboxed, hopen⟩ := canonicalAt_spec hlo hhi hx hfactor
  by_cases h : IsFinite lo ∧ IsFinite hi
  · exact .inl (hboxed h)
  · obtain ⟨-, hstart, hlower, hupper⟩ := hopen h
    refine .inr ⟨?_, hstart⟩
    -- an infinite bound of the variable is still infinite
    rcases not_and_or.1 h with h | h
    · rw [hlower (hlo.resolve_left h)]
      rfl
    · rw [hupper (hhi.resolve_left h)]
      exact Bool.and_false _

/-- The rescaling that fits a variable in normal form does not change it. -/
theorem IsNormal.factorAt_eq (h : IsNormal lo hi x) : factorAt lo hi = 1 ∧ shiftAt lo hi x = 0 := by
  rcases h with ⟨rfl, rfl⟩ | ⟨h, rfl⟩
  · rw [factorAt_finite, shiftAt_finite, one_eq, zero_eq]
    norm_num
  · exact ⟨if_neg (by simp [h]), (if_neg (by simp [h])).trans zero_eq.symm⟩

end Rescaling

/-! ## The problem -/

section

variable {p : Problem (Extended K)} {r : Rescaling (Extended K)} {n : Nat}

/-- The entries of a vector that is moved and stretched. -/
theorem Rescaling.exists_mem_iff {ys : List (Extended K)} {P : Extended K → Prop} (hr : r.IsProper)
    (hfits : r.Fits n) (hy : ys.length = n)
    (hP : ∀ (f s : K) y, 0 < f → (P ((y - finite s) / finite f) ↔ P y)) :
    (∃ y ∈ List.zipWith (· / ·) (List.zipWith (· - ·) ys r.shift) r.factor, P y) ↔ ∃ y ∈ ys, P y := by
  have hlen := hfits.length_toCanonical hy
  -- the entries at one place have a positive factor and a finite shift between them
  have hentry (i : Nat) (hi : i < n) :
      P (List.zipWith (· / ·) (List.zipWith (· - ·) ys r.shift) r.factor)[i] ↔ P ys[i] := by
    obtain ⟨f, s, hf, hfactor, hshift⟩ :=
      hr.exists_entries (m := i) (hfits.1.symm ▸ hi) (hfits.2.symm ▸ hi)
    simp only [List.getElem_zipWith, hfactor, hshift]
    exact hP f s _ hf
  constructor
  · rintro ⟨y, hy, h⟩
    obtain ⟨i, hi, rfl⟩ := List.mem_iff_getElem.1 hy
    exact ⟨ys[i], List.getElem_mem _, (hentry i (by omega)).1 h⟩
  · rintro ⟨y, hy, h⟩
    obtain ⟨i, hi, rfl⟩ := List.mem_iff_getElem.1 hy
    exact ⟨_, List.getElem_mem _, (hentry i (by omega)).2 h⟩

/-- Rescaling takes points to points and bounds to bounds. -/
theorem Problem.IsProper.rescaledBy [IsStrictOrderedRing K] (hp : p.IsProper) (hr : r.IsProper) :
    (p.rescaledBy r).IsProper := by
  -- an entry comes from an entry of the vector, a finite shift and a positive factor
  have hentry {ys : List (Extended K)} {a : Extended K}
      (ha : a ∈ List.zipWith (· / ·) (List.zipWith (· - ·) ys r.shift) r.factor) :
      ∃ y ∈ ys, ∃ s f : K, 0 < f ∧ a = (y - finite s) / finite f := by
    obtain ⟨b, hb, f, hf, rfl⟩ := exists_of_mem_zipWith ha
    obtain ⟨y, hy, s, hs, rfl⟩ := exists_of_mem_zipWith hb
    obtain ⟨s, rfl⟩ := hr.shift s hs
    obtain ⟨f, hpos, rfl⟩ := hr.factor f hf
    exact ⟨y, hy, s, f, hpos, rfl⟩
  have hfinite (y s : K) {f : K} (hf : 0 < f) : IsFinite ((finite y - finite s) / finite f) := by
    rw [finite_sub, finite_div _ hf.ne']
    exact isFinite_finite _
  constructor
  · intro a ha
    obtain ⟨y, hy, s, f, hf, rfl⟩ := hentry ha
    obtain ⟨y, rfl⟩ := hp.start y hy
    exact hfinite y s hf
  · intro a ha
    obtain ⟨y, hy, s, f, hf, rfl⟩ := hentry ha
    rcases hp.lower y hy with ⟨y, rfl⟩ | rfl
    · exact .inl (hfinite y s hf)
    · exact .inr (by rw [bottom_sub, bottom_div hf])
  · intro a ha
    obtain ⟨y, hy, s, f, hf, rfl⟩ := hentry ha
    rcases hp.upper y hy with ⟨y, rfl⟩ | rfl
    · exact .inl (hfinite y s hf)
    · exact .inr (by rw [top_sub, top_div hf])

theorem Problem.HasFiniteRows.rescaledBy (hp : p.HasFiniteRows) (hr : r.IsProper) :
    (p.rescaledBy r).HasFiniteRows := by
  have hsystem (s : LinearSystem (Extended K)) (hs : s.HasFiniteRows) :
      (r.rescaledSystem s).HasFiniteRows := by
    intro row hrow a ha
    obtain ⟨row', hrow', rfl⟩ := List.mem_map.1 hrow
    obtain ⟨b, hb, f, hf, rfl⟩ := exists_of_mem_zipWith ha
    obtain ⟨b, rfl⟩ := hs row' hrow' b hb
    obtain ⟨f, -, rfl⟩ := hr.factor f hf
    exact isFinite_finite _
  exact ⟨hsystem _ hp.1, hsystem _ hp.2⟩

/-- Stretching the rows of a system leaves it as many entries. -/
theorem Rescaling.hasRows_rescaledSystem {s : LinearSystem (Extended K)} (hr : r.Fits n)
    (hs : s.Fits n) : (r.rescaledSystem s).hasRows = s.hasRows := by
  rw [Bool.eq_iff_iff]
  simp only [LinearSystem.hasRows, rescaledSystem, List.any_map, List.any_eq_true, Function.comp]
  refine exists_congr fun row => and_congr_right fun hrow => ?_
  have hlen : row.length = r.factor.length := (hs.length_row row hrow).trans hr.1.symm
  cases row <;> cases hf : r.factor <;> simp_all

/-- Rescaling leaves the kind of a problem as it is. -/
theorem Problem.kind_rescaledBy [IsStrictOrderedRing K] (hp : p.Fits n) (hproper : p.IsProper)
    (hr : r.IsProper) (hfits : r.Fits n) : (p.rescaledBy r).kind = p.kind := by
  have hlower {q : Problem (Extended K)} (hq : q.IsProper) : ∀ lo ∈ q.bounds.lower, lo ≤ lo := by
    intro lo hlo
    rcases hq.lower lo hlo with ⟨a, rfl⟩ | rfl <;> simp
  have hupper {q : Problem (Extended K)} (hq : q.IsProper) : ∀ hi ∈ q.bounds.upper, hi ≤ hi := by
    intro hi hhi
    rcases hq.upper hi hhi with ⟨a, rfl⟩ | rfl <;> simp
  have hscaled := hproper.rescaledBy hr
  have hrestricts : (p.rescaledBy r).bounds.restricts = p.bounds.restricts := by
    rw [Bool.eq_iff_iff, Bounds.restricts_iff (hlower hscaled) (hupper hscaled),
      Bounds.restricts_iff (hlower hproper) (hupper hproper)]
    -- a bound is finite in the one problem exactly if it is in the other
    apply or_congr
    · refine Rescaling.exists_mem_iff hr hfits hp.length_lower fun f s y hf => ?_
      rw [neg_infinity_lt_affine s hf]
    · refine Rescaling.exists_mem_iff hr hfits hp.length_upper fun f s y hf => ?_
      rw [affine_lt_infinity s hf]
  have hconstraints : (p.rescaledBy r).constraints.isSome = p.constraints.isSome := Option.isSome_map
  have hinequalities : (p.rescaledBy r).inequalities.hasRows = p.inequalities.hasRows :=
    Rescaling.hasRows_rescaledSystem hfits hp.inequalities
  have hequalities : (p.rescaledBy r).equalities.hasRows = p.equalities.hasRows :=
    Rescaling.hasRows_rescaledSystem hfits hp.equalities
  rw [kind, kind, ProblemKind.ofConstraints, ProblemKind.ofConstraints, hrestricts, hconstraints,
    hinequalities, hequalities]

/-- The rescaling that fits a problem in normal form changes nothing. -/
theorem Rescaling.fitted_eq_identity (hp : p.Fits n)
    (h : ∀ i lo hi x, p.HasVariable i lo hi x → IsNormal lo hi x) :
    fitted p.start p.bounds = identity n := by
  have hfitted := fitted_fits hp.length_start hp.length_lower hp.length_upper
  have hentries (i : Nat) (hi : i < n) : (fitted p.start p.bounds).factor[i]? = some 1 ∧
      (fitted p.start p.bounds).shift[i]? = some 0 := by
    obtain ⟨lo, hi, x, hvar⟩ := hp.exists_hasVariable hi
    obtain ⟨hfactor, hshift⟩ := (h i lo hi x hvar).factorAt_eq
    rw [← hfactor, ← hshift]
    simp [fitted, List.getElem?_zipWith, List.zip, hvar.lower, hvar.upper, hvar.start]
  refine congrArg₂ Rescaling.mk (List.eq_replicate_iff.2 ⟨hfitted.1, fun a ha => ?_⟩)
    (List.eq_replicate_iff.2 ⟨hfitted.2, fun a ha => ?_⟩)
  · obtain ⟨i, hi, rfl⟩ := List.mem_iff_getElem.1 ha
    exact Option.some.inj ((List.getElem?_eq_getElem hi).symm.trans (hentries i (hfitted.1 ▸ hi)).1)
  · obtain ⟨i, hi, rfl⟩ := List.mem_iff_getElem.1 ha
    exact Option.some.inj ((List.getElem?_eq_getElem hi).symm.trans (hentries i (hfitted.2 ▸ hi)).2)

theorem Rescaling.rescaleSystem_eq_exact {s : LinearSystem (Extended K)} (hr : r.Fits n) (hs : s.Fits n) :
    r.rescaleSystem s = .ok (r.rescaledSystem s) := by
  rcases Nat.eq_zero_or_pos n with rfl | hn
  · -- rows without entries stay as they are, and so do their right-hand sides
    have hempty := hs.rows_eq_replicate
    have hentries : s.hasRows = false := by simp [LinearSystem.hasRows, hempty]
    have hidentity : r = identity 0 :=
      congrArg₂ Rescaling.mk (List.length_eq_zero_iff.1 hr.1) (List.length_eq_zero_iff.1 hr.2)
    have hfinite : s.HasFiniteRows := by simp [LinearSystem.HasFiniteRows, hempty]
    rw [hidentity, rescaledSystem_identity hs hfinite, rescaleSystem, if_neg (by simp [hentries])]
  · exact hr.rescaleSystem_eq hs hn

theorem Problem.rescale_eq_exact (hp : p.Fits n) :
    p.rescale = (Rescaling.ofBounds p.start p.bounds).map fun r => (p.rescaledBy r, r) := by
  have hfitted := Rescaling.fitted_fits hp.length_start hp.length_lower hp.length_upper
  exact rescale_eq_of_systems hp (Rescaling.rescaleSystem_eq_exact hfitted hp.inequalities)
    (Rescaling.rescaleSystem_eq_exact hfitted hp.equalities)

/-- A rescaled problem stays as it is, also where its functions are called. -/
theorem Problem.rescaledBy_identity [IsStrictOrderedRing K] (hp : p.Fits n) (hr : r.Fits n)
    (hrows : (p.rescaledBy r).HasFiniteRows) :
    (p.rescaledBy r).rescaledBy (Rescaling.identity n) = p.rescaledBy r := by
  have hfits := Problem.rescaledBy_fits hp hr
  have hconstraints : (p.rescaledBy r).constraints.map (fun c => (Rescaling.identity n).onCanonical (some c))
      = (p.rescaledBy r).constraints := by
    cases hc : p.constraints with
    | none => simp [Problem.rescaledBy, hc]
    | some c => simp [Problem.rescaledBy, hc, Rescaling.onCanonical_identity hr]
  have hobjective : some ((Rescaling.identity n).onCanonical (p.rescaledBy r).objective)
      = (p.rescaledBy r).objective := congrArg some (Rescaling.onCanonical_identity hr p.objective)
  rw [Problem.rescaledBy, hobjective, hconstraints, Rescaling.toCanonical_identity hfits.length_start,
    Rescaling.toCanonical_identity hfits.length_lower, Rescaling.toCanonical_identity hfits.length_upper,
    Rescaling.rescaledSystem_identity hfits.inequalities hrows.1,
    Rescaling.rescaledSystem_identity hfits.equalities hrows.2]

/-- The factors of a problem with a finite start and proper bounds are numbers. -/
theorem Problem.IsProper.factor_defined [IsStrictOrderedRing K] (hproper : p.IsProper) :
    ∀ f ∈ (Rescaling.fitted p.start p.bounds).factor, f ≤ f := by
  intro f hf
  obtain ⟨lo, hlo, hi, hhi, rfl⟩ := exists_of_mem_zipWith hf
  obtain ⟨a, ha⟩ := Rescaling.isFinite_factorAt (hproper.lower lo hlo) (hproper.upper hi hhi)
  rw [ha, finite_le]

/-- A factor is too small only where two finite bounds of a variable are too close. -/
theorem Rescaling.exists_factor_lt_iff [IsStrictOrderedRing K] (hp : p.Fits n) (hproper : p.IsProper) :
    (∃ f ∈ (fitted p.start p.bounds).factor, f < epsilon) ↔
      ∃ (i : Nat) (l u : K), p.bounds.lower[i]? = some (finite l) ∧ p.bounds.upper[i]? = some (finite u) ∧
        (u - l) / 2 < tiny := by
  have hfitted := fitted_fits hp.length_start hp.length_lower hp.length_upper
  constructor
  · rintro ⟨f, hf, hsmall⟩
    obtain ⟨i, hi, rfl⟩ := List.mem_iff_getElem.1 hf
    obtain ⟨lo, hi', x, hvar⟩ := hp.exists_hasVariable (hfitted.1 ▸ hi)
    have hfactor : (fitted p.start p.bounds).factor[i] = factorAt lo hi' :=
      Option.some.inj ((List.getElem?_eq_getElem hi).symm.trans (rescaledBy_hasVariable hvar).1)
    rw [hfactor] at hsmall
    -- a variable that is not boxed has factor one
    by_cases hboxed : isBoxed lo hi' = true
    · obtain ⟨hlo, hhi, -⟩ := hvar.isProper hproper
      obtain ⟨l, u, rfl, rfl⟩ := isFinite_of_isBoxed hlo hhi hboxed
      rw [factorAt_finite, epsilon_eq, finite_lt] at hsmall
      exact ⟨i, l, u, hvar.lower, hvar.upper, hsmall⟩
    · rw [factorAt, if_neg hboxed] at hsmall
      exact absurd hsmall not_one_lt_tiny
  · rintro ⟨i, l, u, hlo, hhi, hsmall⟩
    refine ⟨factorAt (finite l) (finite u), ?_, ?_⟩
    · apply List.mem_of_getElem? (i := i)
      simp [fitted, List.getElem?_zipWith, hlo, hhi]
    · rwa [factorAt_finite, epsilon_eq, finite_lt]

/-- Rescaling in exact arithmetic: it fails only for a factor that is too small, and its result is the problem
in the variables of the fitted rescaling. -/
theorem Problem.rescale_cases [IsStrictOrderedRing K] (hp : p.Fits n) (hproper : p.IsProper) :
    p.rescale = if ∃ f ∈ (Rescaling.fitted p.start p.bounds).factor, f < epsilon
      then .error (.defect .vanishingFactor)
      else .ok (p.rescaledBy (.fitted p.start p.bounds), .fitted p.start p.bounds) := by
  rw [rescale_eq_exact hp, Rescaling.ofBounds_eq hp.length_start hp.length_lower hp.length_upper]
  simp only [← OrderedScalar.minimum?_lt_iff hproper.factor_defined]
  cases minimum? (Rescaling.fitted p.start p.bounds).factor with
  | none => simp [Except.map]
  | some least =>
    simp only [Option.some.injEq, exists_eq_left']
    split <;> rfl

/-- The factors of a problem in normal form are not too small, so it is rescaled and stays as it is. -/
theorem Problem.rescale_rescaledBy [IsStrictOrderedRing K] (hp : p.Fits n) (hproper : p.IsProper)
    (hrows : p.HasFiniteRows) (hr : (Rescaling.fitted p.start p.bounds).IsProper) :
    (p.rescaledBy (.fitted p.start p.bounds)).rescale
      = .ok (p.rescaledBy (.fitted p.start p.bounds), .identity n) := by
  have hfitted := Rescaling.fitted_fits hp.length_start hp.length_lower hp.length_upper
  have hfits := Problem.rescaledBy_fits hp hfitted
  have hnormal := Rescaling.fitted_eq_identity hfits fun i lo' hi' x' hvar' => by
    -- the variable is what has become of one of the stated problem
    have hi : i < n := by
      rw [← hfits.length_start]
      exact (List.getElem?_eq_some_iff.1 hvar'.start).1
    obtain ⟨lo, hi, x, hvar⟩ := hp.exists_hasVariable hi
    obtain ⟨hfactor, hcanonical⟩ := Rescaling.rescaledBy_hasVariable hvar
    obtain ⟨hlo, hhi, hx⟩ := hvar.isProper hproper
    obtain rfl := Option.some.inj (hvar'.lower.symm.trans hcanonical.lower)
    obtain rfl := Option.some.inj (hvar'.upper.symm.trans hcanonical.upper)
    obtain rfl := Option.some.inj (hvar'.start.symm.trans hcanonical.start)
    exact Rescaling.isNormal_canonicalAt hlo hhi hx (hr.factor _ (List.mem_of_getElem? hfactor))
  rw [rescale_cases hfits (hproper.rescaledBy hr), hnormal, rescaledBy_identity hp hfitted (hrows.rescaledBy hr)]
  apply if_neg
  rintro ⟨f, hf, hsmall⟩
  rw [List.eq_of_mem_replicate hf] at hsmall
  exact not_one_lt_tiny hsmall

/-- Rescaling brings a problem into its normal form, which another rescaling leaves as it is; and it fails
exactly where two finite bounds of a variable are too close. -/
theorem Problem.rescale_normalizes [IsStrictOrderedRing K] (hp : p.Fits n) (hproper : p.IsProper)
    (hrows : p.HasFiniteRows) :
    (∀ f, p.rescale = .error f ↔ f = .defect .vanishingFactor ∧
      ∃ (i : Nat) (l u : K), p.bounds.lower[i]? = some (finite l) ∧ p.bounds.upper[i]? = some (finite u) ∧
        (u - l) / 2 < tiny) ∧
    ∀ q r, p.rescale = .ok (q, r) →
      q.Fits n ∧ (∀ f ∈ r.factor, epsilon ≤ f) ∧
      (∀ i lo hi x, p.HasVariable i lo hi x →
        ∃ f lo' hi' x', r.factor[i]? = some f ∧ q.HasVariable i lo' hi' x' ∧
          (IsFinite lo ∧ IsFinite hi → lo' = finite (-1) ∧ hi' = finite 1) ∧
          (¬(IsFinite lo ∧ IsFinite hi) → f = finite 1 ∧ x' = finite 0 ∧
            (lo = bottom → lo' = bottom) ∧ (hi = top → hi' = top))) ∧
      q.kind = p.kind ∧ q.rescale = .ok (q, .identity n) := by
  have hfitted := Rescaling.fitted_fits hp.length_start hp.length_lower hp.length_upper
  rw [rescale_cases hp hproper]
  constructor
  · intro f
    rw [← Rescaling.exists_factor_lt_iff hp hproper]
    split
    · next hsmall => rw [and_iff_left hsmall, Except.error.injEq, eq_comm]
    · next hfine => exact iff_of_false (fun h => nomatch h) fun h => hfine h.2
  · intro q r hr
    split at hr
    · cases hr
    next hfine =>
    cases hr
    have hleast : ∀ f ∈ (Rescaling.fitted p.start p.bounds).factor, epsilon ≤ f := by
      intro f hf
      rw [← Extended.not_lt (hproper.factor_defined f hf) epsilon_defined]
      exact fun hsmall => hfine ⟨f, hf, hsmall⟩
    have hr := hproper.fitted fun least hmin hsmall =>
      hfine ((OrderedScalar.minimum?_lt_iff hproper.factor_defined).1 ⟨least, hmin, hsmall⟩)
    refine ⟨Problem.rescaledBy_fits hp hfitted, hleast, fun i lo hi x hvar => ?_,
      kind_rescaledBy hp hproper hr hfitted, rescale_rescaledBy hp hproper hrows hr⟩
    obtain ⟨hfactor, hcanonical⟩ := Rescaling.rescaledBy_hasVariable hvar
    obtain ⟨hlo, hhi, hx⟩ := hvar.isProper hproper
    exact ⟨_, _, _, _, hfactor, hcanonical,
      Rescaling.canonicalAt_spec hlo hhi hx (hr.factor _ (List.mem_of_getElem? hfactor))⟩

end

/-- Variables with two finite bounds, with a lower one, with an upper one and with none. -/
def variouslyBoundedProblem : Problem (Extended ℚ) where
  objective := some fun x => .ok (.ofList x)
  start := [finite 2, finite 3, finite (-1), finite 5]
  inequalities := ⟨[[finite 1, finite 2, finite 0, finite 1]], [finite 10]⟩
  equalities := .empty
  bounds := ⟨[finite 0, finite 1, bottom, bottom], [finite 6, top, finite 2, top]⟩
  constraints := none

/-- The first variable is moved into `[-1, 1]`, and the others are moved by their starts. -/
theorem rescale_normalizes_variouslyBoundedProblem : ∃ q r, variouslyBoundedProblem.rescale = .ok (q, r) ∧
    q.bounds = ⟨[finite (-1), finite (-2), bottom, bottom], [finite 1, top, finite 3, top]⟩ ∧
    r.factor = [finite 3, finite 1, finite 1, finite 1] ∧ q.kind = .linearlyConstrained ∧
    q.rescale = .ok (q, .identity 4) := by
  have hfits : variouslyBoundedProblem.Fits 4 :=
    ⟨rfl, rfl, rfl, ⟨rfl, by simp [variouslyBoundedProblem]⟩,
      ⟨rfl, by simp [variouslyBoundedProblem, LinearSystem.empty]⟩⟩
  have hproper : variouslyBoundedProblem.IsProper := by
    constructor <;> simp [variouslyBoundedProblem, IsLowerBound, IsUpperBound]
  have hrows : variouslyBoundedProblem.HasFiniteRows := by
    constructor <;> simp [LinearSystem.HasFiniteRows, variouslyBoundedProblem, LinearSystem.empty]
  obtain ⟨-, hnormal⟩ := Problem.rescale_normalizes hfits hproper hrows
  have hrun : variouslyBoundedProblem.rescale.toOption.map (fun s =>
      (s.1.bounds.lower, s.1.bounds.upper, s.2.factor))
        = some ([finite (-1), finite (-2), bottom, bottom], [finite 1, top, finite 3, top],
          [finite 3, finite 1, finite 1, finite 1]) := by
    decide +kernel
  obtain ⟨⟨q, r⟩, hq, hparts⟩ := exists_of_toOption_map hrun
  simp only [Prod.mk.injEq] at hparts
  obtain ⟨hlower, hupper, hfactor⟩ := hparts
  obtain ⟨-, -, -, hkind, hagain⟩ := hnormal q r hq
  exact ⟨q, r, hq, congrArg₂ Bounds.mk hlower hupper, hfactor, hkind, hagain⟩

end Presolve
