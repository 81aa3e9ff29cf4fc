import Presolve.Proofs.Preparation.Safety
import Presolve.Proofs.Preparation.Stages
import Presolve.Proofs.Solver.RadiusLimit

/-!
# Radii that are revised

Settings that were resolved are revised in two places. Where the factors of a rescaling are very different
the radii are reset, and where the table selects a solver they are cut to the bounds. Over exact numbers
both keep them in order: the last radius is not tiny and at most the first, which is a number
(`Settings.HasOrderedRadii`).

Selection cuts both radii in proportion and raises each of them to `epsilon` by itself. The order is kept
because a last radius that is raised belongs to a first one that is raised to the same number or is greater.
-/

namespace Presolve

open Scalar

/-! ## Revisions on the way of a preparation -/

section

variable {α : Type} [Scalar α]

/-- Were variables rescaled by very different factors? -/
def Rescaling.HasStretched (r? : Option (Rescaling α)) : Prop :=
  ∃ r, r? = some r ∧ r.isSubstantial = .ok true

/-- Rescaling resets the radii if the factors are very different, and changes no setting otherwise. -/
theorem rescaleIfAsked_revises [Interchange α] {source : String} {f : Facts α} {p q : Problem α}
    {r? : Option (Rescaling α)} {s t : Settings α}
    (h : (rescaleIfAsked source f p s).Yields (q, r?, t)) :
    Rescaling.HasStretched r? ∧ t = s.withUnitRadius ∨ ¬Rescaling.HasStretched r? ∧ t = s := by
  unfold rescaleIfAsked at h
  split at h
  · obtain ⟨⟨q', r, t'⟩, hr, h⟩ := h.of_bind
    rw [Prep.yields_pure] at h
    cases h
    obtain ⟨⟨q'', r'⟩, -, hr⟩ := hr.of_bind
    obtain ⟨ratio, hratio, hr⟩ := hr.of_step.of_bind
    rw [Prep.yields_lift] at hratio
    have hsubstantial : r'.isSubstantial = .ok (rescaleVariables.substantial ratio) := by
      rw [Rescaling.isSubstantial, hratio]
      rfl
    split at hr
    · next hyes =>
      obtain ⟨_, -, hr⟩ := hr.of_bind
      rw [Prep.yields_pure] at hr
      cases hr
      exact .inl ⟨⟨_, rfl, hyes ▸ hsubstantial⟩, rfl⟩
    · next hno =>
      rw [Prep.yields_pure] at hr
      cases hr
      refine .inr ⟨?_, rfl⟩
      rintro ⟨_, hr, hyes⟩
      cases hr
      exact hno (Except.ok.inj (hsubstantial.symm.trans hyes))
  · rw [Prep.yields_pure] at h
    cases h
    refine .inr ⟨?_, rfl⟩
    rintro ⟨_, hr, -⟩
    cases hr

end

namespace Extended

variable {K : Type} [Field K] [LinearOrder K] [FloorRing K]

/-! ## Cut radii -/

theorem larger_finite (x y : K) : larger (finite x) (finite y) = (finite (max x y) : Extended K) := by
  unfold larger
  by_cases h : x < y
  · rw [if_pos ((finite_lt x y).2 h), max_eq_right h.le]
  · rw [if_neg ((finite_lt x y).not.2 h), max_eq_left (not_lt.1 h)]

/-- The smaller of a number of the field and any other number is at most the former, and a number of the
field unless it is less than all of them. -/
theorem smaller_finite_cases (x : K) (y : Extended K) :
    smaller (finite x) y = bottom ∨ ∃ m, smaller (finite x) y = finite m ∧ m ≤ x := by
  have hx : (finite x : Extended K) ≤ finite x := (finite_le x x).2 le_rfl
  have hle : smaller (finite x) y ≤ finite x := smaller_le_left hx
  cases h : smaller (finite x) y with
  | finite m => exact .inr ⟨m, rfl, (finite_le m x).1 (h ▸ hle)⟩
  | bottom => exact .inl rfl
  | top => simp [h] at hle
  | undefined => simp [h] at hle

variable [IsStrictOrderedRing K]

omit [FloorRing K] in
theorem tiny_le_one : (tiny : K) ≤ 1 := by
  unfold tiny
  rw [div_le_one (by positivity)]
  exact one_le_pow₀ one_le_two

omit [FloorRing K] in
/-- A part of a number is at most that number, or else at most every number that is not negative. -/
theorem mul_le_max {q m e : K} (hq : 0 ≤ q) (hq1 : q ≤ 1) (he : 0 ≤ e) : q * m ≤ max m e := by
  rcases le_total 0 m with hm | hm
  · calc q * m ≤ 1 * m := mul_le_mul_of_nonneg_right hq1 hm
      _ = m := one_mul m
      _ ≤ max m e := le_max_left m e
  · calc q * m ≤ 0 := mul_nonpos_of_nonneg_of_nonpos hq hm
      _ ≤ e := he
      _ ≤ max m e := le_max_right m e

/-- Radii that fit between bounds are in order if the given ones are, and in the proportion of these unless
the last one would be tiny. -/
theorem fittedRadii_ordered {first last : K} (halfWidth : Extended K) (hlast : tiny ≤ last)
    (hle : last ≤ first) :
    ∃ a b, fittedRadii (finite first) (finite last) halfWidth = (finite a, finite b) ∧
      tiny ≤ b ∧ b ≤ a ∧ a ≤ first ∧
      (¬finite last / finite first * smaller (finite first) halfWidth < epsilon →
        b / a = last / first) := by
  have hlast0 : 0 < last := lt_of_lt_of_le tiny_pos hlast
  have hfirst0 : 0 < first := lt_of_lt_of_le hlast0 hle
  have hq : 0 < last / first := div_pos hlast0 hfirst0
  have hq1 : last / first ≤ 1 := (div_le_one hfirst0).2 hle
  rw [fittedRadii, finite_div _ hfirst0.ne', epsilon_eq]
  rcases smaller_finite_cases first halfWidth with h | ⟨m, h, hm⟩
  · -- nothing fits, and both radii are raised
    rw [h, mul_bottom hq]
    refine ⟨tiny, tiny, rfl, le_rfl, le_rfl, hlast.trans hle, ?_⟩
    intro hnot
    exact absurd rfl hnot
  · rw [h, finite_mul]
    refine ⟨max m tiny, max (last / first * m) tiny, ?_, le_max_right _ _, ?_, ?_, ?_⟩
    · simp only [larger_finite]
    · exact max_le (mul_le_max hq.le hq1 tiny_pos.le) (le_max_right m tiny)
    · exact max_le hm (hlast.trans hle)
    · intro hnot
      have htiny : tiny ≤ last / first * m := by
        rw [finite_lt, not_lt] at hnot
        exact hnot
      -- a first radius that is not greater than zero would have no such part
      have hm0 : 0 < m := by
        by_contra hneg
        have hpart : last / first * m ≤ 0 := mul_nonpos_of_nonneg_of_nonpos hq.le (not_lt.1 hneg)
        exact absurd (tiny_pos.trans_le (htiny.trans hpart)) (lt_irrefl 0)
      have hpart : last / first * m ≤ m := mul_le_of_le_one_left hm0.le hq1
      rw [max_eq_left htiny, max_eq_left (htiny.trans hpart), mul_div_cancel_right₀ _ hm0.ne']

/-- Half a defined number is defined. -/
theorem half_defined {x : Extended K} (hx : x ≤ x) : x / 2 ≤ x / 2 := by
  rw [two_eq]
  cases x with
  | finite x => rw [finite_div _ two_ne_zero, finite_le]
  | top => rw [top_div two_pos]; exact hx
  | bottom => rw [bottom_div two_pos]; exact hx
  | undefined => exact absurd hx (not_undefined_le _)

omit [IsStrictOrderedRing K] in
/-- The lesser of two defined numbers is defined. -/
theorem meet_defined {x y : Extended K} (hx : x ≤ x) (hy : y ≤ y) : meet x y ≤ meet x y := by
  unfold meet
  split
  · exact hx
  · next hxy =>
    rw [if_pos ((Extended.le_total hx hy).resolve_left hxy)]
    exact hy

omit [IsStrictOrderedRing K] in
/-- The least of defined numbers is defined. -/
theorem minimum?_defined {xs : List (Extended K)} {m : Extended K} (h : minimum? xs = some m)
    (hxs : ∀ x ∈ xs, x ≤ x) : m ≤ m := by
  cases xs with
  | nil => cases h
  | cons x xs =>
    cases h
    refine List.foldlRecOn (motive := fun m => m ≤ m) xs meet (hxs x List.mem_cons_self) ?_
    intro m hm y hy
    exact meet_defined hm (hxs y (List.mem_cons_of_mem x hy))

end Extended

/-! ## Settings that are revised -/

variable {K : Type} [Field K] [LinearOrder K] [FloorRing K]

open Extended

namespace Settings

/-- The last radius is not tiny, and at most the first one, which is a number. -/
structure HasOrderedRadii (s : Settings (Extended K)) : Prop where
  epsilon_le : epsilon ≤ s.rhoend
  rhoend_le : s.rhoend ≤ s.rhobeg
  isFinite : IsFinite s.rhobeg

/-- The settings `t` are settings `s` for another solver between bounds the least width of which is given.
No setting but the number of points, the radii and the solver has changed. -/
structure Reselects (s t : Settings (Extended K)) (width : Extended K) : Prop where
  others : ∃ npt rhobeg rhoend solver, t = { s with npt, rhobeg, rhoend, solver := some solver }
  ordered : t.HasOrderedRadii
  rhobeg_le : t.rhobeg ≤ s.rhobeg
  limit : t.solver = some .bobyqa → t.rhobeg ≤ larger epsilon (width / 2)
  proportion : t.rhoend / t.rhobeg = s.rhoend / s.rhobeg ∨
    t.solver = some .bobyqa ∧ s.rhoend / s.rhobeg * smaller s.rhobeg (width / 2) < epsilon

variable {s t : Settings (Extended K)}

/-- Ordered radii are positive numbers. -/
theorem HasOrderedRadii.exists_radii (h : s.HasOrderedRadii) :
    ∃ first last : K, s.rhobeg = finite first ∧ s.rhoend = finite last ∧ tiny ≤ last ∧ last ≤ first := by
  obtain ⟨first, hfirst⟩ := h.isFinite
  have hlow := h.epsilon_le
  have hhigh := h.rhoend_le
  rw [epsilon_eq] at hlow
  rw [hfirst] at hhigh
  obtain ⟨last, hlast⟩ := isFinite_of_between hlow hhigh
  rw [hlast, finite_le] at hlow hhigh
  exact ⟨first, last, hfirst, hlast, hlow, hhigh⟩

theorem hasOrderedRadii_of_eq {first last : K} (hfirst : s.rhobeg = finite first)
    (hlast : s.rhoend = finite last) (hlow : tiny ≤ last) (hle : last ≤ first) : s.HasOrderedRadii where
  epsilon_le := by rw [epsilon_eq, hlast, finite_le]; exact hlow
  rhoend_le := by rw [hlast, hfirst, finite_le]; exact hle
  isFinite := ⟨first, hfirst⟩

variable [IsStrictOrderedRing K]

/-- Radii that are reset are in order. -/
theorem HasOrderedRadii.withUnitRadius (h : s.HasOrderedRadii) : s.withUnitRadius.HasOrderedRadii := by
  obtain ⟨first, last, hfirst, hlast, hlow, hle⟩ := h.exists_radii
  have hfirst0 : 0 < first := lt_of_lt_of_le (lt_of_lt_of_le tiny_pos hlow) hle
  have hrhoend : s.withUnitRadius.rhoend = finite (max (last / first) tiny) := by
    show larger (s.rhoend / s.rhobeg) epsilon = _
    rw [hfirst, hlast, finite_div _ hfirst0.ne', epsilon_eq, larger_finite]
  refine hasOrderedRadii_of_eq one_eq hrhoend (le_max_right _ _) ?_
  exact max_le ((div_le_one hfirst0).2 hle) tiny_le_one

/-- Radii that are cut to bounds of defined width are in order. -/
theorem HasOrderedRadii.adapt (h : s.HasOrderedRadii) {solver : Solver} {n : Nat}
    {bounds : Bounds (Extended K)} {width : Extended K} (hwidth : bounds.halfWidth = .ok (width / 2))
    (hdef : width / 2 ≤ width / 2) (hadapt : s.adapt solver n bounds = .ok t) :
    s.Reselects t width := by
  obtain ⟨first, last, hfirst, hlast, hlow, hle⟩ := h.exists_radii
  have hsolver : t.solver = some solver := (adapt_eq_ok hadapt).1
  have hothers : ∃ npt rhobeg rhoend solver, t = { s with npt, rhobeg, rhoend, solver := some solver } := by
    obtain ⟨npt, rhobeg, rhoend, ht⟩ := adapt_changes hadapt
    exact ⟨npt, rhobeg, rhoend, solver, ht⟩
  by_cases hlimits : solver.limitsRadius = true
  · have hbobyqa : solver = .bobyqa := by
      cases solver <;> first | rfl | cases hlimits
    obtain ⟨_, hwidth', hradii⟩ := adapt_radii hlimits hadapt
    obtain rfl := Except.ok.inj (hwidth.symm.trans hwidth')
    obtain ⟨a, b, hfitted, hb, hba, ha, hratio⟩ :=
      fittedRadii_ordered (width / 2) hlow hle
    rw [hfirst, hlast, hfitted, Prod.mk.injEq] at hradii
    obtain ⟨hrhobeg, hrhoend⟩ := hradii
    constructor
    case others => exact hothers
    case ordered => exact hasOrderedRadii_of_eq hrhobeg hrhoend hb hba
    case rhobeg_le =>
      rw [hrhobeg, hfirst, finite_le]
      exact ha
    case limit =>
      intro _
      exact adapt_rhobeg_le hlimits hadapt (by rw [hfirst, finite_le]) hwidth hdef
    case proportion =>
      have ha0 : a ≠ 0 := (lt_of_lt_of_le tiny_pos (hb.trans hba)).ne'
      have hfirst0 : first ≠ 0 := (lt_of_lt_of_le tiny_pos (hlow.trans hle)).ne'
      rw [or_iff_not_imp_right, hrhobeg, hrhoend, hfirst, hlast]
      intro hfloor
      rw [finite_div _ ha0, finite_div _ hfirst0]
      exact congrArg finite (hratio fun hlt => hfloor ⟨hbobyqa ▸ hsolver, hlt⟩)
  · -- any other solver leaves the radii alone
    have hkept : t.rhobeg = s.rhobeg ∧ t.rhoend = s.rhoend := by
      unfold Settings.adapt at hadapt
      simp only [if_neg hlimits] at hadapt
      cases hadapt
      exact ⟨rfl, rfl⟩
    constructor
    case others => exact hothers
    case ordered => exact hasOrderedRadii_of_eq (hkept.1.trans hfirst) (hkept.2.trans hlast) hlow hle
    case rhobeg_le => rw [hkept.1, hfirst, finite_le]
    case limit =>
      intro hbobyqa
      rw [hsolver, Option.some.injEq] at hbobyqa
      exact absurd (hbobyqa ▸ rfl) hlimits
    case proportion =>
      left
      rw [hkept.1, hkept.2]

end Settings

/-- Half the least width of bounds whose widths are defined. -/
theorem Bounds.exists_least_width {b : Bounds (Extended K)} {n : Nat} (hn : 0 < n)
    (hl : b.lower.length = n) (hu : b.upper.length = n)
    (hdef : ∀ d ∈ List.zipWith (· - ·) b.upper b.lower, d ≠ Extended.undefined) :
    ∃ width ∈ List.zipWith (· - ·) b.upper b.lower,
      (∀ d ∈ List.zipWith (· - ·) b.upper b.lower, width ≤ d) ∧ b.halfWidth = .ok (width / 2) := by
  obtain ⟨halfWidth, hwidth⟩ := Bounds.exists_halfWidth (hu.trans hl.symm)
  obtain ⟨width, hleast, rfl⟩ := Bounds.halfWidth_eq_ok hl hu hn hwidth
  have hdefined : width ≤ width := minimum?_defined hleast fun d hd => by
    by_contra h
    exact hdef d hd (eq_undefined h)
  obtain ⟨hmem, hle⟩ := minimum?_spec hleast hdefined
  exact ⟨width, hmem, hle, hwidth⟩

variable [IsStrictOrderedRing K] [Interchange (Extended K)]

/-- Ordered radii stay in order. Where they are reset after a rescaling, the first one is one. Where the
table selects a solver they do not grow, the first one fits between the bounds if the solver limits it, and
their proportion is kept unless the last one would be tiny. Nothing but the radii, and in a selection the
number of points and the solver, changes. -/
theorem revised_radii_ordered {s : Settings (Extended K)} (hs : s.HasOrderedRadii) :
    (s.withUnitRadius.HasOrderedRadii ∧ s.withUnitRadius.rhobeg = 1 ∧
      ∃ rhobeg rhoend, s.withUnitRadius = { s with rhobeg, rhoend }) ∧
    (∀ source facts p q r? t, (rescaleIfAsked source facts p s).Yields (q, r?, t) →
      Rescaling.HasStretched r? ∧ t = s.withUnitRadius ∨ ¬Rescaling.HasStretched r? ∧ t = s) ∧
    ∀ kind n (bounds : Bounds (Extended K)), 0 < n → bounds.lower.length = n → bounds.upper.length = n →
      (∀ d ∈ List.zipWith (· - ·) bounds.upper bounds.lower, d ≠ Extended.undefined) →
      (∃ t, (Prep.run none (selectSolver SelectionRule.table s kind n bounds .frontEnd)).1 = .ok t) ∧
      ∃ width ∈ List.zipWith (· - ·) bounds.upper bounds.lower,
        (∀ d ∈ List.zipWith (· - ·) bounds.upper bounds.lower, width ≤ d) ∧
        ∀ t, (selectSolver SelectionRule.table s kind n bounds .frontEnd).Yields t →
          t = s ∨ s.Reselects t width := by
  refine ⟨⟨hs.withUnitRadius, rfl, _, _, rfl⟩, fun _ _ _ _ _ _ h => rescaleIfAsked_revises h, ?_⟩
  intro kind n bounds hn hl hu hdef
  refine ⟨Prep.FailsOnly.exists_ok (selectSolver_failsOnly (hu.trans hl.symm)) {}, ?_⟩
  obtain ⟨width, hmem, hle, hwidth⟩ := Bounds.exists_least_width hn hl hu hdef
  refine ⟨width, hmem, hle, ?_⟩
  rintro t ⟨e, j, k, h⟩
  have h := selectSolver_outcome h
  have hadapts (hadapts : s.AdaptsTo SelectionRule.table kind n bounds t) : s.Reselects t width := by
    obtain ⟨rule, -, -, hadapt⟩ := hadapts
    exact hs.adapt hwidth (half_defined (hle width hmem)) hadapt
  cases hsolver : s.solver with
  | some solver =>
    simp only [hsolver] at h
    split at h
    · exact .inl h.1
    · exact .inr (hadapts h.1)
  | none =>
    simp only [hsolver] at h
    exact .inr (hadapts h.1)

/-- Settings without a solver. -/
def unassignedSettings : Settings (Extended ℚ) where
  npt := none
  maxfun := 1000
  rhobeg := finite 1
  rhoend := finite (1 / 10)
  ftarget := bottom
  classical := false
  scale := false
  quiet := true
  debug := false
  chkfunval := false
  solver := none

/-- The table selects a solver that limits its radius. Between bounds that are half a unit apart both radii
are cut in proportion; between bounds that exclude each other both are raised. -/
theorem revised_radii_ordered_unassignedSettings : unassignedSettings.HasOrderedRadii ∧
    unassignedSettings.withUnitRadius.HasOrderedRadii ∧
    (∃ t, (Prep.run none (selectSolver SelectionRule.table unassignedSettings .boundConstrained 2
        ⟨[finite 0, finite 0], [top, finite (1 / 2)]⟩ .frontEnd)).1 = .ok t ∧ t.HasOrderedRadii ∧
      (t.solver, t.rhobeg, t.rhoend) = (some .bobyqa, finite (1 / 4), finite (1 / 40))) ∧
    ∃ t, (Prep.run none (selectSolver SelectionRule.table unassignedSettings .boundConstrained 2
        ⟨[finite 0, finite 0], [top, finite (-1)]⟩ .frontEnd)).1 = .ok t ∧ t.HasOrderedRadii ∧
      (t.solver, t.rhobeg, t.rhoend) = (some .bobyqa, epsilon, epsilon) := by
  have hs : unassignedSettings.HasOrderedRadii := by
    have hlow : (tiny : ℚ) ≤ 1 / 10 := by norm_num [tiny]
    have hle : (1 / 10 : ℚ) ≤ 1 := by norm_num
    exact Settings.hasOrderedRadii_of_eq rfl rfl hlow hle
  have hnarrow : (Prep.run none (selectSolver SelectionRule.table unassignedSettings .boundConstrained 2
      ⟨[finite 0, finite 0], [top, finite (1 / 2)]⟩ .frontEnd)).1.toOption.map
      (fun t => (t.solver, t.rhobeg, t.rhoend)) = some (some .bobyqa, finite (1 / 4), finite (1 / 40)) := by
    decide +kernel
  have hcrossed : (Prep.run none (selectSolver SelectionRule.table unassignedSettings .boundConstrained 2
      ⟨[finite 0, finite 0], [top, finite (-1)]⟩ .frontEnd)).1.toOption.map
      (fun t => (t.solver, t.rhobeg, t.rhoend)) = some (some .bobyqa, epsilon, epsilon) := by
    decide +kernel
  obtain ⟨t, ht, hradii⟩ := exists_of_toOption_map hnarrow
  obtain ⟨u, hu, hraised⟩ := exists_of_toOption_map hcrossed
  obtain ⟨⟨hunit, -, -⟩, -, hselect⟩ := revised_radii_ordered hs
  -- neither is as before, since a solver was selected
  have hselected {t : Settings (Extended ℚ)} (h : t.solver = some .bobyqa) : t ≠ unassignedSettings := by
    rintro rfl
    cases h
  refine ⟨hs, hunit, ⟨t, ht, ?_⟩, u, hu, ?_, hraised⟩
  · obtain ⟨-, width, -, -, hyields⟩ := hselect .boundConstrained 2
      ⟨[finite 0, finite 0], [top, finite (1 / 2)]⟩ (by decide) rfl rfl (by decide +kernel)
    have hsolver : t.solver = some .bobyqa := congrArg Prod.fst hradii
    have h := (hyields t (Prep.yields_of_outcome (Prod.ext ht rfl))).resolve_left (hselected hsolver)
    exact ⟨h.ordered, hradii⟩
  · obtain ⟨-, width, -, -, hyields⟩ := hselect .boundConstrained 2
      ⟨[finite 0, finite 0], [top, finite (-1)]⟩ (by decide) rfl rfl (by decide +kernel)
    have hsolver : u.solver = some .bobyqa := congrArg Prod.fst hraised
    exact ((hyields u (Prep.yields_of_outcome (Prod.ext hu rfl))).resolve_left
      (hselected hsolver)).ordered

end Presolve
