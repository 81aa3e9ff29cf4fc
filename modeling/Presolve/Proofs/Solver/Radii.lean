import Presolve.Proofs.Number.Ordered
import Presolve.Proofs.Solver.Resolved

/-!
# Resolved radii

The radii that options are resolved to, first as functions of the numbers that the options hold and then
by their order. Both radii are at least `epsilon`, and the last one is at most the first one in all but one
case, `Context.Stretches`: a solver that limits its radius, a problem that will be rescaled, and bounds
closer together than twice the default last radius. The last radius is then derived from a proportion that
is greater than one.
-/

namespace Presolve

open Scalar

variable {α : Type} [Scalar α] [Interchange α]

namespace Resolution

variable {c : Context α}

/-! ## What the options hold -/

/-- The number that an option holds. -/
def Context.number? (c : Context α) (name : OptionName) : Option α :=
  (c.find? name).bind fun value => value.realScalar?.toOption.join

/-- The flag that an option holds. -/
def Context.flag? (c : Context α) (name : OptionName) : Option Bool :=
  (c.find? name).bind fun value => value.flag?.toOption.join

/-- The first radius that is asked for, if it is a valid one. -/
def Context.askedRhobeg? (c : Context α) : Option α :=
  (c.number? .rhobeg).filter fun x => decide (0 < x)

theorem Context.number?_eq {name : OptionName} {value : Value α} {x? : Option α}
    (hfound : c.find? name = some value) (hvalue : value.realScalar? = .ok x?) :
    c.number? name = x? := by
  rw [number?, hfound, Option.bind_some, hvalue]
  cases x? <;> rfl

theorem Context.number?_eq_none {name : OptionName} (h : c.find? name = none) :
    c.number? name = none := by
  rw [number?, h, Option.bind_none]

theorem Context.flag?_eq {name : OptionName} {value : Value α} {b? : Option Bool}
    (hfound : c.find? name = some value) (hvalue : value.flag? = .ok b?) : c.flag? name = b? := by
  rw [flag?, hfound, Option.bind_some, hvalue]
  cases b? <;> rfl

theorem flag_yields {name : FlagName} {b : Bool} (h : (flag c name).Yields b) :
    b = (c.flag? name.option).getD name.default := by
  unfold flag at h
  split at h
  · next hnone =>
    rw [Context.flag?, hnone]
    exact (Prep.yields_pure.1 h).symm
  · next value hvalue =>
    obtain ⟨b?, hb, h⟩ := h.of_bind
    rw [Prep.yields_lift] at hb
    rw [Context.flag?_eq hvalue hb]
    cases b? with
    | none => exact h.of_bind.elim fun _ h => (Prep.yields_pure.1 h.2).symm
    | some b => exact (Prep.yields_pure.1 h).symm

/-! ## Closed forms -/

/-- The default radii of a solver that limits its radius, between bounds of the given half width. -/
def fittedDefaults (halfWidth : α) (scaled : Bool) : α × α :=
  let first := smaller defaultRhobeg halfWidth
  (first, if scaled then defaultRhoend else defaultRhoend / defaultRhobeg * first)

theorem defaultRadii_eq_ok {s? : Option Solver} {radii : α × α} {scaled : Bool}
    (h : defaultRadii c s? = .ok radii) (hscaled : (flag c .scale).Yields scaled) :
    if s?.any Solver.limitsRadius then
      ∃ halfWidth, c.bounds.halfWidth = .ok halfWidth ∧ radii = fittedDefaults halfWidth scaled
    else radii = (defaultRhobeg, defaultRhoend) := by
  unfold defaultRadii at h
  split at h
  · next hlimits =>
    rw [if_pos hlimits]
    obtain ⟨halfWidth, hwidth, h⟩ := bind_eq_ok.1 h
    refine ⟨halfWidth, hwidth, ?_⟩
    -- an unset flag counts as one that is not raised
    have hraised : c.flag? .scale = some true ↔ scaled = true := by
      have hdefault := flag_yields hscaled
      simp only [FlagName.option, FlagName.default] at hdefault
      rw [hdefault]
      cases c.flag? .scale <;> simp
    rw [fittedDefaults]
    simp only [← hraised]
    split at h
    · next value hvalue =>
      obtain ⟨scaled?, hasked, h⟩ := bind_eq_ok.1 h
      rw [Context.flag?_eq hvalue hasked]
      exact (Except.ok.inj h).symm
    · next hnone =>
      rw [Context.flag?, hnone]
      exact (Except.ok.inj h).symm
  · next hfree =>
    rw [if_neg hfree]
    cases h
    rfl

/-- The first radius before it is raised to `epsilon`: the one that is asked for, cut to the limit if there
is one, or else the default or a greater last radius. -/
def Context.firstRadius (c : Context α) (limit? : Option α) (default : α) : α :=
  match c.askedRhobeg? with
  | some x => limit?.elim x (smaller x)
  | none => (c.number? .rhoend).elim default (larger default)

theorem fallbackRhobeg_eq_ok {default r : α} (h : fallbackRhobeg c default = .ok r) :
    r = (c.number? .rhoend).elim default (larger default) := by
  unfold fallbackRhobeg at h
  split at h
  · next hnone =>
    cases h
    rw [Context.number?_eq_none hnone]
    rfl
  · next value hvalue =>
    obtain ⟨x?, hx, h⟩ := map_eq_ok.1 h
    rw [Context.number?_eq hvalue hx]
    exact h.symm

theorem rhobeg_yields {s? : Option Solver} {default r : α} (h : (rhobeg c s? default).Yields r) :
    ∃ halfWidth, c.bounds.halfWidth = .ok halfWidth ∧
      r = larger (c.firstRadius (if s?.any Solver.limitsRadius then some halfWidth else none) default)
        epsilon := by
  obtain ⟨halfWidth, hwidth, h⟩ := h.of_bind
  refine ⟨halfWidth, Prep.yields_lift.1 hwidth, ?_⟩
  -- without a valid radius the rest of the step yields the fallback
  have hfallback (hnone : c.askedRhobeg? = none) {v : α}
      (hv : (liftM (fallbackRhobeg c default) : Prep α α).Yields v) {limit? : Option α} :
      v = c.firstRadius limit? default := by
    rw [Context.firstRadius, hnone]
    exact fallbackRhobeg_eq_ok (Prep.yields_lift.1 hv)
  split at h
  · next hnone =>
    obtain ⟨v, hv, h⟩ := h.of_bind
    rw [Prep.yields_pure] at h
    have hasked : c.askedRhobeg? = none := by
      rw [Context.askedRhobeg?, Context.number?_eq_none hnone, Option.filter_none]
    rw [← h, hfallback hasked hv]
  · next value hvalue =>
    obtain ⟨x?, hx, h⟩ := h.of_bind
    have hasked : c.askedRhobeg? = x?.filter fun x => decide (0 < x) := by
      rw [Context.askedRhobeg?, Context.number?_eq hvalue (Prep.yields_lift.1 hx)]
    split at h
    · next hinvalid =>
      obtain ⟨_, -, h⟩ := h.of_bind
      obtain ⟨v, hv, h⟩ := h.of_bind
      rw [Prep.yields_pure] at h
      rw [← h, hfallback (hasked.trans hinvalid) hv]
    · next x hvalid =>
      rw [Context.firstRadius, hasked, hvalid]
      cases s? with
      | none =>
        rw [← Prep.yields_pure.1 h]
        rfl
      | some s =>
        by_cases hlimits : s.limitsRadius = true
        · simp only [Option.filter, Option.any, hlimits, if_true] at h ⊢
          rw [Option.elim, smaller]
          split at h
          · next hwide =>
            obtain ⟨_, -, h⟩ := h.of_bind
            rw [if_pos hwide, ← Prep.yields_pure.1 h]
          · next hfits => rw [if_neg hfits, ← Prep.yields_pure.1 h]
        · simp only [Option.filter, Option.any, hlimits] at h ⊢
          rw [← Prep.yields_pure.1 h]
          rfl

theorem rhoend_yields {first ratio r : α} (h : (rhoend c first ratio).Yields r) :
    r = larger (((c.number? .rhoend).filter fun x => decide (x ≤ first)).getD (ratio * first))
      epsilon := by
  unfold rhoend at h
  split at h
  · next hnone =>
    rw [Context.number?_eq_none hnone]
    exact (Prep.yields_pure.1 h).symm
  · next value hvalue =>
    obtain ⟨x?, hx, h⟩ := h.of_bind
    rw [Context.number?_eq hvalue (Prep.yields_lift.1 hx)]
    split at h
    · next x hvalid =>
      rw [hvalid]
      exact (Prep.yields_pure.1 h).symm
    · next hinvalid =>
      rw [hinvalid]
      exact h.of_bind.elim fun _ h => (Prep.yields_pure.1 h.2).symm

/-- The first radius that is resolved for a solver that limits it. -/
theorem settings_rhobeg {s : Settings α} (h : Leads c s)
    (hlimits : s.solver.any Solver.limitsRadius = true) :
    ∃ halfWidth, c.bounds.halfWidth = .ok halfWidth ∧
      s.rhobeg = larger (c.firstRadius (some halfWidth) (smaller defaultRhobeg halfWidth)) epsilon := by
  obtain ⟨first, last, hdefaults, hfirst, -⟩ := h.radii
  have hradii := defaultRadii_eq_ok hdefaults h.scale
  rw [if_pos hlimits] at hradii
  obtain ⟨halfWidth, hwidth, hradii⟩ := hradii
  obtain ⟨_, hwidth', hrhobeg⟩ := rhobeg_yields hfirst
  obtain rfl := Except.ok.inj (hwidth.symm.trans hwidth')
  rw [if_pos hlimits, show first = smaller defaultRhobeg halfWidth from congrArg Prod.fst hradii]
    at hrhobeg
  exact ⟨halfWidth, hwidth, hrhobeg⟩

/-! ## The order of the radii -/

/-- The one case in which the last radius of settings `s` exceeds the first one. The default radii are those
of a solver that limits its radius, for a problem that will be rescaled, so the first one shrinks with the
bounds and the last one does not; and no last radius is asked for that the first one exceeds. -/
structure Context.Stretches (c : Context α) (s : Settings α) : Prop where
  limits : s.solver.any Solver.limitsRadius = true
  scale : s.scale = true
  tight : ∃ halfWidth, c.bounds.halfWidth = .ok halfWidth ∧ 0 < halfWidth ∧ halfWidth < defaultRhoend
  unasked : ∀ x, c.number? .rhoend = some x → ¬x ≤ s.rhobeg

section

open Extended

variable {K : Type} [Field K] [LinearOrder K] [IsStrictOrderedRing K] [FloorRing K]

omit [IsStrictOrderedRing K] in
theorem defaultRhobeg_eq : (defaultRhobeg : Extended K) = finite 1 := one_eq

omit [IsStrictOrderedRing K] in
theorem defaultRhobeg_defined : (defaultRhobeg : Extended K) ≤ defaultRhobeg := by
  rw [defaultRhobeg_eq, finite_le]

omit [IsStrictOrderedRing K] in
theorem defaultRhoend_eq : (defaultRhoend : Extended K) = finite (1 / 10 ^ 6) := by
  show (finite (((1 : Int) : K) / ((1000000 : Nat) : K)) : Extended K) = finite (1 / 10 ^ 6)
  norm_num

omit [IsStrictOrderedRing K] in
theorem radiusRatio_default :
    radiusRatio defaultRhobeg defaultRhoend = (finite (1 / 10 ^ 6) : Extended K) := by
  have hone : (1 : K) ≠ 0 := one_ne_zero
  rw [radiusRatio, defaultRhobeg_eq, defaultRhoend_eq, finite_div _ hone, div_one, ite_self]

/-- The proportion of the default radii of a solver that limits its radius: it exceeds one only if the last
radius does not shrink with the first one. -/
theorem exists_radiusRatio (halfWidth : Extended K) (scaled : Bool) : ∃ q : K, 0 < q ∧
    radiusRatio (fittedDefaults halfWidth scaled).1 (fittedDefaults halfWidth scaled).2 = finite q ∧
      (1 < q ↔ scaled = true ∧ 0 < halfWidth ∧ halfWidth < defaultRhoend) := by
  have hsmall : (0 : K) < 1 / 10 ^ 6 := by positivity
  have hless : (1 / 10 ^ 6 : K) < 1 := by norm_num
  have hbelow : (finite (1 / 10 ^ 6) : Extended K) < finite 1 := (finite_lt _ _).2 hless
  have hone : (1 : K) ≠ 0 := one_ne_zero
  simp only [fittedDefaults, radiusRatio, defaultRhobeg_eq, defaultRhoend_eq, zero_eq,
    finite_div _ hone, div_one]
  by_cases hpos : finite 0 < smaller (finite 1) halfWidth
  · rw [if_pos hpos]
    obtain ⟨r, hr⟩ := isFinite_of_between (Extended.le_of_lt hpos)
      (smaller_le_left ((finite_le _ _).2 (le_refl (1 : K))))
    rw [hr] at hpos ⊢
    have hr0 : 0 < r := (finite_lt _ _).1 hpos
    -- half the width is the default first radius where that is small
    have htight : r < 1 / 10 ^ 6 ↔ finite 0 < halfWidth ∧ halfWidth < finite (1 / 10 ^ 6) := by
      unfold smaller at hr
      split at hr
      · rw [hr, finite_lt, finite_lt]
        exact (and_iff_right hr0).symm
      · next hwide =>
        obtain rfl : (1 : K) = r := by simpa using hr
        exact iff_of_false hless.not_gt fun h =>
          hwide (Extended.lt_of_lt_of_le h.2 (Extended.le_of_lt hbelow))
    cases scaled with
    | true =>
      refine ⟨1 / 10 ^ 6 / r, div_pos hsmall hr0, ?_, ?_⟩
      · rw [if_pos rfl, finite_div _ hr0.ne']
      · rw [one_lt_div hr0, htight, eq_self, true_and]
    | false =>
      refine ⟨1 / 10 ^ 6, hsmall, ?_, iff_of_false hless.not_gt (by simp)⟩
      rw [if_neg Bool.false_ne_true, finite_mul, finite_div _ hr0.ne', mul_div_cancel_right₀ _ hr0.ne']
  · rw [if_neg hpos]
    refine ⟨1 / 10 ^ 6, hsmall, rfl, iff_of_false hless.not_gt ?_⟩
    rintro ⟨-, hw0, hw⟩
    rw [smaller, if_pos (Extended.lt_of_lt_of_le hw (Extended.le_of_lt hbelow))] at hpos
    exact hpos hw0

variable [Interchange (Extended K)] {c : Context (Extended K)}

/-- The proportion of the default radii exceeds one only for a solver that limits its radius, on a problem
with tight bounds that will be rescaled. -/
theorem exists_proportion {s? : Option Solver} {scaled : Bool} {first last : Extended K}
    (hdefaults : defaultRadii c s? = .ok (first, last)) (hscaled : (flag c .scale).Yields scaled) :
    ∃ q : K, 0 < q ∧ radiusRatio first last = finite q ∧
      (1 < q ↔ s?.any Solver.limitsRadius = true ∧ scaled = true ∧ ∃ halfWidth,
        c.bounds.halfWidth = .ok halfWidth ∧ 0 < halfWidth ∧ halfWidth < defaultRhoend) := by
  have hradii := defaultRadii_eq_ok hdefaults hscaled
  split at hradii
  · next hlimits =>
    obtain ⟨halfWidth, hwidth, hradii⟩ := hradii
    obtain ⟨q, hq, hratio, hgreater⟩ := exists_radiusRatio halfWidth scaled
    rw [← hradii] at hratio
    refine ⟨q, hq, hratio, ?_⟩
    rw [hgreater, hwidth]
    simp [hlimits]
  · next hfree =>
    cases hradii
    refine ⟨1 / 10 ^ 6, by positivity, radiusRatio_default, iff_of_false ?_ fun h => hfree h.1⟩
    norm_num

omit [IsStrictOrderedRing K] in
theorem Context.askedRhobeg?_defined {x : Extended K} (h : c.askedRhobeg? = some x) : x ≤ x := by
  rw [askedRhobeg?, Option.filter_eq_some_iff] at h
  have hpos : 0 < x := by simpa using h.2
  exact defined_right (Extended.le_of_lt hpos)

omit [IsStrictOrderedRing K] in
theorem Context.firstRadius_defined {limit? : Option (Extended K)} {default : Extended K}
    (hdefault : default ≤ default) :
    c.firstRadius limit? default ≤ c.firstRadius limit? default := by
  unfold firstRadius
  split
  · next x hasked =>
    have hx := c.askedRhobeg?_defined hasked
    cases limit? with
    | none => exact hx
    | some limit => exact smaller_defined hx
  · cases c.number? .rhoend with
    | none => exact hdefault
    | some x => exact larger_defined hdefault

omit [IsStrictOrderedRing K] in
theorem defaultRadii_defined {s? : Option Solver} {scaled : Bool} {first last : Extended K}
    (hdefaults : defaultRadii c s? = .ok (first, last)) (hscaled : (flag c .scale).Yields scaled) :
    first ≤ first := by
  have hradii := defaultRadii_eq_ok hdefaults hscaled
  split at hradii
  · obtain ⟨halfWidth, -, hradii⟩ := hradii
    cases hradii
    exact smaller_defined defaultRhobeg_defined
  · cases hradii
    exact defaultRhobeg_defined

omit [IsStrictOrderedRing K] in
/-- The first radius of a solver that limits it fits between the bounds, unless a greater last radius is
asked for. -/
theorem Context.firstRadius_le {halfWidth : Extended K} (hwidth : halfWidth ≤ halfWidth)
    (hunasked : ∀ x, c.askedRhobeg? = none → c.number? .rhoend = some x → x ≤ halfWidth ∨ ¬x ≤ x) :
    c.firstRadius (some halfWidth) (smaller defaultRhobeg halfWidth) ≤ halfWidth := by
  have hdefault : smaller defaultRhobeg halfWidth ≤ halfWidth := smaller_le_right defaultRhobeg_defined hwidth
  unfold firstRadius
  split
  · next x hasked => exact smaller_le_right (c.askedRhobeg?_defined hasked) hwidth
  · next hnone =>
    cases hlast : c.number? .rhoend with
    | none => exact hdefault
    | some x =>
      rcases hunasked x hnone hlast with hx | hx
      · rw [Option.elim, larger_le_iff (smaller_defined defaultRhobeg_defined) (defined_left hx)]
        exact ⟨hdefault, hx⟩
      · -- an undefined radius is not greater than any other
        have hless : ¬smaller defaultRhobeg halfWidth < x := fun h =>
          hx (defined_right (Extended.le_of_lt h))
        rw [Option.elim, larger, if_neg hless]
        exact hdefault

/-- A stretched first radius is a number of the field: it fits between the bounds. -/
theorem Context.Stretches.rhobeg_ne_top {s : Settings (Extended K)} (hs : c.Stretches s)
    (h : Leads c s) : s.rhobeg ≠ top := by
  obtain ⟨halfWidth, hwidth, hpos, htight⟩ := hs.tight
  obtain ⟨_, hwidth', hrhobeg⟩ := settings_rhobeg h hs.limits
  obtain rfl := Except.ok.inj (hwidth.symm.trans hwidth')
  have hfit := c.firstRadius_le (defined_right (Extended.le_of_lt hpos)) fun x hnone hx => by
    -- the first radius would be at least a last one that is asked for
    refine .inr fun hxdef => hs.unasked x hx ?_
    have hraised := le_larger_right (smaller_defined (y := halfWidth) defaultRhobeg_defined) hxdef
    have hle : x ≤ c.firstRadius (some halfWidth) (smaller defaultRhobeg halfWidth) := by
      rw [firstRadius, hnone, hx]
      exact hraised
    rw [hrhobeg]
    exact Extended.le_trans hle (le_larger_left (defined_right hle))
  have hwidth_le : halfWidth ≤ finite 1 := by
    rw [defaultRhoend_eq] at htight
    refine Extended.le_trans (Extended.le_of_lt htight) ((finite_le _ _).2 ?_)
    norm_num
  have htiny : (epsilon : Extended K) ≤ finite 1 := by
    rw [epsilon_eq, finite_le, tiny]
    norm_num
  have hle : s.rhobeg ≤ finite 1 := by
    rw [hrhobeg]
    exact (larger_le_iff (defined_left hfit) epsilon_defined).2
      ⟨Extended.le_trans hfit hwidth_le, htiny⟩
  intro htop
  rw [htop] at hle
  exact not_top_le_finite _ hle

/-- The radii of resolved settings: neither is less than `epsilon`, and the last one is at most the first
one except where it stretches. -/
theorem settings_radii {s : Settings (Extended K)} (h : (settings c).Yields s) :
    epsilon ≤ s.rhobeg ∧ epsilon ≤ s.rhoend ∧ (s.rhoend ≤ s.rhobeg ↔ ¬c.Stretches s) := by
  have hsteps := settings_yields h
  obtain ⟨first, last, hdefaults, hfirst, hlast⟩ := hsteps.radii
  obtain ⟨q, hq, hratio, hgreater⟩ := exists_proportion hdefaults hsteps.scale
  obtain ⟨halfWidth, hwidth, hrhobeg⟩ := rhobeg_yields hfirst
  have hrhoend := rhoend_yields hlast
  have hdefined {limit? : Option (Extended K)} :
      c.firstRadius limit? first ≤ c.firstRadius limit? first :=
    c.firstRadius_defined (defaultRadii_defined hdefaults hsteps.scale)
  have hbeg : epsilon ≤ s.rhobeg := by
    rw [hrhobeg]
    exact le_larger_right hdefined epsilon_defined
  refine ⟨hbeg, ?_⟩
  by_cases hasked : ∃ x, c.number? .rhoend = some x ∧ x ≤ s.rhobeg
  · -- a valid last radius is kept
    obtain ⟨x, hx, hle⟩ := hasked
    rw [hx, Option.filter_some, if_pos (decide_eq_true hle), Option.getD_some] at hrhoend
    rw [hrhoend]
    have hxdef := defined_left hle
    refine ⟨le_larger_right hxdef epsilon_defined, iff_of_true ?_ fun hs => hs.unasked x hx hle⟩
    exact (larger_le_iff hxdef epsilon_defined).2 ⟨hle, hbeg⟩
  · -- otherwise the last radius is in proportion to the first one
    have hproportion : s.rhoend = larger (finite q * s.rhobeg) epsilon := by
      rw [hrhoend, ← hratio, Option.filter_eq_none_iff.2, Option.getD_none]
      intro x hx hle
      exact hasked ⟨x, hx, by simpa using hle⟩
    have hstretches : c.Stretches s ↔ 1 < q := by
      rw [hgreater]
      exact ⟨fun hs => ⟨hs.limits, hs.scale, hs.tight⟩, fun hs =>
        ⟨hs.1, hs.2.1, hs.2.2, fun x hx hle => hasked ⟨x, hx, hle⟩⟩⟩
    obtain ⟨hmul, hshrinks⟩ := finite_mul_le_iff hbeg hq
    rw [hproportion, larger_le_iff hmul epsilon_defined, hshrinks, hstretches, not_lt]
    refine ⟨le_larger_right hmul epsilon_defined, fun h => ?_, fun h => ⟨.inl h, hbeg⟩⟩
    rcases h.1 with h | htop
    · exact h
    · by_contra hq1
      exact (hstretches.2 (not_le.1 hq1)).rhobeg_ne_top hsteps htop

end

end Resolution

section

open Extended Resolution

variable {K : Type} [Field K] [LinearOrder K] [IsStrictOrderedRing K] [FloorRing K]
  [Interchange (Extended K)]

/-- Whatever is asked for, the radii that options are resolved to are at least `epsilon`, and the last one
is at most the first one unless the proportion of the default radii is stretched. -/
theorem resolveOptions_radii {invoker : Invoker} {options : Value (Extended K)} {n : Nat}
    {bounds : Bounds (Extended K)} {e : Option Category} {s : Settings (Extended K)}
    (h : (Prep.run e (resolveOptions invoker options n bounds)).1 = .ok s) :
    ∃ entries, readEntries invoker.name options = .ok entries ∧
      epsilon ≤ s.rhobeg ∧ epsilon ≤ s.rhoend ∧
      (s.rhoend ≤ s.rhobeg ↔ ¬Context.Stretches ⟨invoker, n, bounds, entries⟩ s) := by
  obtain ⟨entries, hentries, hsettings⟩ := resolveOptions_yields (Prep.yields_of_outcome (Prod.ext h rfl))
  exact ⟨entries, hentries, settings_radii hsettings⟩

/-- One variable between bounds that are closer together than twice the default last radius. -/
def tightBounds : Bounds (Extended ℚ) := ⟨[.finite 0], [.finite (1 / 2 ^ 22)]⟩

/-- Options for a problem that will be rescaled. -/
def scalingOptions : Value (Extended ℚ) := .mapping [(.text "scale", .bool true)]

/-- Options for a problem that will be rescaled, with a last radius. -/
def scalingOptionsWithRadius : Value (Extended ℚ) :=
  .mapping [(.text "scale", .bool true), (.text "rhoend", .real (.finite (1 / 10 ^ 8)))]

/-- Between tight bounds a last radius that is asked for is kept. -/
theorem resolveOptions_radii_tightBounds : ∃ s,
    (Prep.run none (resolveOptions (.solver .bobyqa) scalingOptionsWithRadius 1 tightBounds)).1 = .ok s ∧
      (s.rhobeg, s.rhoend) = (.finite (1 / 2 ^ 23), .finite (1 / 10 ^ 8)) ∧
      epsilon ≤ s.rhoend ∧ s.rhoend ≤ s.rhobeg := by
  have hrun : (Prep.run none (resolveOptions (.solver .bobyqa) scalingOptionsWithRadius 1
      tightBounds)).1.toOption.map (fun s => (s.rhobeg, s.rhoend))
        = some (.finite (1 / 2 ^ 23), .finite (1 / 10 ^ 8)) := by decide +kernel
  obtain ⟨s, hs, hradii⟩ := exists_of_toOption_map hrun
  obtain ⟨entries, hentries, -, hend, hiff⟩ := resolveOptions_radii hs
  cases hentries
  refine ⟨s, hs, hradii, hend, hiff.2 fun hstretches => ?_⟩
  -- the radius that is asked for is at most the first one
  refine hstretches.unasked (.finite (1 / 10 ^ 8)) (by decide +kernel) ?_
  rw [show s.rhobeg = .finite (1 / 2 ^ 23) from congrArg Prod.fst hradii]
  decide +kernel

/-- Between tight bounds the default last radius of a problem that will be rescaled exceeds the first
one. -/
theorem exists_rhobeg_lt_rhoend : ∃ s,
    (Prep.run none (resolveOptions (.solver .bobyqa) scalingOptions 1 tightBounds)).1 = .ok s ∧
      (s.rhobeg, s.rhoend) = (.finite (1 / 2 ^ 23), .finite (1 / 10 ^ 6)) ∧
      ¬s.rhoend ≤ s.rhobeg := by
  have hrun : (Prep.run none (resolveOptions (.solver .bobyqa) scalingOptions 1
      tightBounds)).1.toOption.map (fun s => (s.rhobeg, s.rhoend))
        = some (.finite (1 / 2 ^ 23), .finite (1 / 10 ^ 6)) := by decide +kernel
  obtain ⟨s, hs, hradii⟩ := exists_of_toOption_map hrun
  refine ⟨s, hs, hradii, ?_⟩
  rw [show s.rhobeg = .finite (1 / 2 ^ 23) from congrArg Prod.fst hradii,
    show s.rhoend = .finite (1 / 10 ^ 6) from congrArg Prod.snd hradii]
  decide +kernel

end

end Presolve
