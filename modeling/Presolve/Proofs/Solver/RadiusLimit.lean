import Presolve.Proofs.Solver.Radii
import Presolve.Proofs.Solver.Selected

/-!
# The limit of the first radius

A solver that limits its first radius wants it to fit between the bounds of the problem that it is handed,
after elimination and rescaling. The radius is cut to bounds in two places only: where options are resolved,
to the bounds before rescaling, and where the table selects the solver, to the final ones. So it fits unless
the solver was asked for and, as `Record.Overshoots` says,

* a greater last radius takes the place of a first one that is not asked for, or
* variables are rescaled without a change of the radii, and the first radius that is asked for fitted
  between the wider bounds before.
-/

namespace Presolve

open Scalar

/-! ## Widths of canonical bounds -/

namespace Extended

variable {K : Type} [Field K] [LinearOrder K] [FloorRing K]

/-- Division by one, on every number. -/
theorem div_finite_one [IsStrictOrderedRing K] (x : Extended K) : x / finite 1 = x := by
  cases x with
  | finite x => rw [finite_div _ one_ne_zero, div_one]
  | top => rw [top_div one_pos]
  | bottom => rw [bottom_div one_pos]
  | undefined => rw [undefined_div]

/-- Where a bound is missing the width is infinite or undefined, wherever the variable is moved. -/
theorem sub_sub_of_not_isBoxed {lo hi : Extended K} (h : Rescaling.isBoxed lo hi = false)
    (x : Extended K) : hi - x - (lo - x) = top ∨ hi - x - (lo - x) = undefined := by
  cases lo <;> cases hi <;> cases x <;> first | exact .inl rfl | exact .inr rfl | cases h

variable [IsStrictOrderedRing K]

/-- Between two bounds that a box has the width is two or undefined. -/
theorem canonical_width_of_isBoxed {lo hi : Extended K} (h : Rescaling.isBoxed lo hi = true) :
    (hi - Bounds.middle lo hi) / Rescaling.halfWidth lo hi
      - (lo - Bounds.middle lo hi) / Rescaling.halfWidth lo hi = finite 2 ∨
    (hi - Bounds.middle lo hi) / Rescaling.halfWidth lo hi
      - (lo - Bounds.middle lo hi) / Rescaling.halfWidth lo hi = undefined := by
  have htwo : (2 : K) ≠ 0 := two_ne_zero
  have hpos : (0 : K) < 2 := two_pos
  rw [Bounds.middle, Rescaling.halfWidth, two_eq]
  cases lo with
  | finite lo =>
    cases hi with
    | finite hi =>
      rw [finite_add, finite_sub, finite_div _ htwo, finite_div _ htwo, finite_sub, finite_sub]
      by_cases heq : hi = lo
      · -- the width is zero, and so are the distances from the middle
        right
        have hzero : (finite 0 / finite 0 : Extended K) = undefined := by
          refine (if_pos rfl).trans ?_
          rw [infinityOf, if_neg (lt_irrefl _), if_neg (lt_irrefl _)]
        rw [heq, sub_self, zero_div, add_self_div_two, sub_self, hzero, undefined_sub]
      · left
        have hwidth : hi - lo ≠ 0 := sub_ne_zero.2 heq
        have hhalf : (hi - lo) / 2 ≠ 0 := div_ne_zero hwidth htwo
        rw [finite_div _ hhalf, finite_div _ hhalf, finite_sub]
        congr 1
        field_simp
        ring
    | bottom =>
      right
      rw [show (finite lo + bottom : Extended K) = bottom from rfl, bottom_div hpos,
        show (bottom - bottom : Extended K) = undefined from rfl, undefined_div, undefined_sub]
    | top | undefined => cases h
  | top =>
    cases hi with
    | finite hi =>
      right
      rw [top_add, show (finite hi - top : Extended K) = bottom from rfl, top_div hpos,
        bottom_div hpos]
      rfl
    | bottom =>
      right
      rw [show (top + bottom : Extended K) = undefined from rfl, undefined_div]
      rfl
    | top | undefined => cases h
  | bottom | undefined => cases h

/-- A canonical width that is defined is at least two. -/
theorem two_le_canonical_width {lo hi x d : Extended K}
    (hd : d = (hi - Rescaling.shiftAt lo hi x) / Rescaling.factorAt lo hi
      - (lo - Rescaling.shiftAt lo hi x) / Rescaling.factorAt lo hi) (hdef : d ≤ d) : 2 ≤ d := by
  rw [Rescaling.shiftAt, Rescaling.factorAt] at hd
  split at hd
  · next hboxed =>
    rcases canonical_width_of_isBoxed hboxed with h | h
    · rw [hd, h, two_eq, finite_le]
    · rw [hd, h] at hdef
      exact absurd hdef (not_undefined_le _)
  · next hfree =>
    rw [one_eq, div_finite_one, div_finite_one] at hd
    rcases sub_sub_of_not_isBoxed (by simpa using hfree) x with h | h
    · rw [hd, h, two_eq]
      exact finite_le_top _
    · rw [hd, h] at hdef
      exact absurd hdef (not_undefined_le _)

end Extended

/-- Half the least width between the bounds of at least one variable. -/
theorem Bounds.halfWidth_eq_ok {α : Type} [Scalar α] {b : Bounds α} {n : Nat} {halfWidth : α}
    (hl : b.lower.length = n) (hu : b.upper.length = n) (hn : 0 < n)
    (h : b.halfWidth = .ok halfWidth) : ∃ least,
      minimum? (List.zipWith (· - ·) b.upper b.lower) = some least ∧ halfWidth = least / 2 := by
  have hsome : ¬b.lower.isEmpty = true := by
    rw [List.isEmpty_iff_length_eq_zero]
    omega
  rw [Bounds.halfWidth, if_neg hsome, entrywise_of_length_eq _ (hu.trans hl.symm)] at h
  obtain ⟨widths, hwidths, h⟩ := bind_eq_ok.1 h
  cases hwidths
  split at h
  · next least hleast => exact ⟨least, hleast, (Except.ok.inj h).symm⟩
  · cases h

section

variable {K : Type} [Field K] [LinearOrder K] [IsStrictOrderedRing K] [FloorRing K]

open Extended

/-- The bounds of a rescaled problem are at least two apart, as far as their width is defined. -/
theorem Problem.one_le_halfWidth {p : Problem (Extended K)} {n : Nat} {halfWidth : Extended K}
    (hp : p.Fits n) (hn : 0 < n)
    (h : (p.rescaledBy (.fitted p.start p.bounds)).bounds.halfWidth = .ok halfWidth)
    (hdef : halfWidth ≤ halfWidth) : 1 ≤ halfWidth := by
  have hr : (Rescaling.fitted p.start p.bounds).Fits n :=
    Rescaling.fitted_fits hp.length_start hp.length_lower hp.length_upper
  have hq := Problem.rescaledBy_fits hp hr
  obtain ⟨least, hleast, rfl⟩ := Bounds.halfWidth_eq_ok hq.length_lower hq.length_upper hn h
  have hleast_def : least ≤ least := by
    cases least with
    | undefined =>
      rw [undefined_div] at hdef
      exact absurd hdef (not_undefined_le _)
    | finite x => exact (finite_le _ _).2 le_rfl
    | top | bottom => simp
  obtain ⟨hmem, -⟩ := minimum?_spec hleast hleast_def
  obtain ⟨i, hi, hwidth⟩ := List.getElem_of_mem hmem
  have hin : i < n := by
    rw [List.length_zipWith, hq.length_upper, hq.length_lower, Nat.min_self] at hi
    exact hi
  have hlower : i < p.bounds.lower.length := hp.length_lower.symm ▸ hin
  have hupper : i < p.bounds.upper.length := hp.length_upper.symm ▸ hin
  have hstart : i < p.start.length := hp.length_start.symm ▸ hin
  let shift := Rescaling.shiftAt p.bounds.lower[i] p.bounds.upper[i] p.start[i]
  let factor := Rescaling.factorAt p.bounds.lower[i] p.bounds.upper[i]
  have hgap : least = (p.bounds.upper[i] - shift) / factor - (p.bounds.lower[i] - shift) / factor := by
    rw [← hwidth]
    simp [Problem.rescaledBy, Rescaling.fitted, shift, factor]
  have htwo : 2 ≤ least := two_le_canonical_width hgap hleast_def
  rw [two_eq] at htwo ⊢
  rw [one_eq]
  cases least with
  | finite x =>
    have hx : 2 ≤ x := (finite_le _ _).1 htwo
    rw [finite_div _ two_ne_zero, finite_le]
    linarith
  | top =>
    rw [top_div two_pos]
    exact finite_le_top _
  | bottom | undefined => simp at htwo

end

/-! ## Where the radius is cut -/

section

variable {α : Type} [Scalar α] [Interchange α]

/-- The first radius that options are resolved to, between bounds of the given half width, exceeds
`limit`: either the one that is asked for, or else a last radius that is greater than the default. -/
def Resolution.Context.Exceeds (c : Resolution.Context α) (halfWidth limit : α) : Prop :=
  match c.askedRhobeg? with
  | some x => limit < smaller x halfWidth
  | none => ∃ x, c.number? .rhoend = some x ∧ limit < x

/-- The bounds that were stated for the variables that are left. -/
def Record.remaining (r : Record α) (stated : Bounds α) : Bounds α :=
  match r.elimination with
  | some el => ⟨Mask.select el.free stated.lower, Mask.select el.free stated.upper⟩
  | none => stated

/-- Were the radii reset because the factors of the rescaling are very different? -/
def Record.IsReset (r : Record α) : Prop :=
  ∃ s, r.rescaling = some s ∧ s.isSubstantial = .ok true

/-- The first radius of a preparation exceeds `limit` although the solver limits it. The solver was asked
for, so that the radius is the one that options were resolved to between the bounds before rescaling; and
that one exceeds the limit. -/
def Record.Overshoots (r : Record α) (invoker : Invoker) (i : Input α) (limit : α) : Prop :=
  ∃ given entries halfWidth, i.stated invoker.name = .ok given ∧
    readEntries invoker.name i.options = .ok entries ∧
    (r.remaining given.bounds).halfWidth = .ok halfWidth ∧
    let c : Resolution.Context α :=
      ⟨invoker, r.refinedDimension, r.remaining given.bounds, entries⟩
    c.asked? = some .bobyqa ∧ ¬r.IsReset ∧ c.Exceeds halfWidth limit

namespace Course

variable {search : NearestSearch α} {invoker : Invoker} {i : Input α} {e : Option Category}
  {j k : Journal α} {r : Record α} (c : Course search invoker i e j r k)

/-- The bounds of a reduced problem are those that were stated for the variables that are left. -/
theorem reduced_bounds : c.reduced.bounds = r.remaining c.given.bounds := by
  have h := c.reduced_eq
  split at h
  · rw [Record.remaining, h.1, h.2, Problem.reducedBy, c.checked_of.bounds_eq]
  · rw [Record.remaining, h.1, h.2, c.checked_of.bounds_eq]

theorem settled_bounds : c.settled.bounds = r.remaining c.given.bounds := by
  obtain ⟨start, hsettled⟩ := c.settled_eq
  rw [hsettled, ← c.reduced_bounds]

end Course

end

/-! ## The limit -/

section

open Extended Resolution

variable {K : Type} [Field K] [LinearOrder K] [IsStrictOrderedRing K] [FloorRing K]
  [Interchange (Extended K)]

omit [IsStrictOrderedRing K] in
theorem Resolution.firstRadius_le_iff {c : Context (Extended K)} {halfWidth limit : Extended K}
    (hlimit : epsilon ≤ limit) (hdefault : smaller defaultRhobeg halfWidth ≤ limit) :
    larger (c.firstRadius (some halfWidth) (smaller defaultRhobeg halfWidth)) epsilon ≤ limit ↔
      ¬c.Exceeds halfWidth limit := by
  have hdef := defined_left hdefault
  have hlim := defined_right hlimit
  rw [larger_le_iff (c.firstRadius_defined hdef) epsilon_defined, and_iff_left hlimit,
    Context.firstRadius, Context.Exceeds]
  cases hasked : c.askedRhobeg? with
  | some x =>
    exact (Extended.not_lt hlim (smaller_defined (c.askedRhobeg?_defined hasked))).symm
  | none =>
    cases c.number? .rhoend with
    | none => simp [hdefault]
    | some x =>
      by_cases hx : x ≤ x
      · simp [larger_le_iff hdef hx, hdefault, Extended.not_lt hlim hx]
      · -- an undefined last radius is greater than nothing
        have hless : ¬smaller defaultRhobeg halfWidth < x := fun h =>
          hx (defined_right (Extended.le_of_lt h))
        have hover : ¬limit < x := fun h => hx (defined_right (Extended.le_of_lt h))
        simp [larger, hless, hover, hdefault]

omit [IsStrictOrderedRing K] [Interchange (Extended K)] in
/-- A radius that was cut where the solver was selected fits between the bounds. -/
theorem Settings.adapt_rhobeg_le {s t : Settings (Extended K)} {solver : Solver} {n : Nat}
    {bounds : Bounds (Extended K)} {halfWidth : Extended K} (hlimits : solver.limitsRadius = true)
    (h : s.adapt solver n bounds = .ok t) (hs : s.rhobeg ≤ s.rhobeg)
    (hwidth : bounds.halfWidth = .ok halfWidth) (hdef : halfWidth ≤ halfWidth) :
    t.rhobeg ≤ larger epsilon halfWidth := by
  obtain ⟨_, hwidth', hradii⟩ := Settings.adapt_radii hlimits h
  obtain rfl := Except.ok.inj (hwidth.symm.trans hwidth')
  have hrhobeg : t.rhobeg = larger (smaller s.rhobeg halfWidth) epsilon := congrArg Prod.fst hradii
  rw [hrhobeg, larger_le_iff (smaller_defined hs) epsilon_defined]
  exact ⟨Extended.le_trans (smaller_le_right hs hdef) (le_larger_right epsilon_defined hdef),
    le_larger_left epsilon_defined⟩

namespace Course

variable {search : NearestSearch (Extended K)} {invoker : Invoker} {i : Input (Extended K)}
  {e : Option Category} {j k : Journal (Extended K)} {r : Record (Extended K)}
  (c : Course search invoker i e j r k)

include c

theorem adjusted_rhobeg_defined (hsearch : search.KeepsDimension) :
    c.adjusted.rhobeg ≤ c.adjusted.rhobeg := by
  obtain ⟨entries, -, hresolved⟩ := c.resolved_yields
  rcases c.adjusted_eq hsearch with h | h <;> rw [h]
  · exact defined_right (settings_radii hresolved).1
  · rw [Settings.withUnitRadius, one_eq, finite_le]

/-- The first radius before selection, for a solver that was asked for and limits it. -/
theorem adjusted_rhobeg_le_iff (hsearch : search.KeepsDimension)
    (hsolver : c.adjusted.solver = some .bobyqa) {halfWidth : Extended K}
    (hwidth : r.problem.bounds.halfWidth = .ok halfWidth) (hdef : halfWidth ≤ halfWidth) :
    ∃ entries before, readEntries invoker.name i.options = .ok entries ∧
      c.reduced.bounds.halfWidth = .ok before ∧
      (c.context entries).asked? = some .bobyqa ∧
      (c.adjusted.rhobeg ≤ larger epsilon halfWidth ↔
        ¬(¬r.IsReset ∧ (c.context entries).Exceeds before (larger epsilon halfWidth))) := by
  obtain ⟨entries, hentries, hresolved⟩ := c.resolved_yields
  have hsteps := settings_yields hresolved
  have hresolved_solver : c.resolved.solver = some .bobyqa := by
    rcases c.adjusted_eq hsearch with h | h <;> rw [h] at hsolver <;> exact hsolver
  obtain ⟨before, hbefore, hrhobeg⟩ := settings_rhobeg hsteps (by rw [hresolved_solver]; rfl)
  refine ⟨entries, before, hentries, hbefore, ?_, ?_⟩
  · rw [← solver_yields hsteps.solver, hresolved_solver]
  have hlimit : epsilon ≤ larger epsilon halfWidth := le_larger_left epsilon_defined
  have hfits : halfWidth ≤ larger epsilon halfWidth := le_larger_right epsilon_defined hdef
  have hproblem := c.problem_eq (c.settled_fits hsearch)
  split at hproblem
  · obtain ⟨hrescaling, hcanonical, -, substantial, hsubstantial, hadjusted⟩ := hproblem
    rw [hcanonical] at hwidth
    have hwide : 1 ≤ halfWidth :=
      Problem.one_le_halfWidth (c.settled_fits hsearch) c.refinedDimension_pos hwidth hdef
    cases substantial with
    | true =>
      -- the radius is reset to one, which is at most the half width
      refine iff_of_true ?_ fun h => h.1 ⟨_, hrescaling, hsubstantial⟩
      rw [hadjusted]
      exact Extended.le_trans hwide hfits
    | false =>
      have hreset : ¬r.IsReset := by
        rintro ⟨s, hs, hsub⟩
        obtain rfl := Option.some.inj (hrescaling.symm.trans hs)
        rw [hsubstantial] at hsub
        cases hsub
      rw [and_iff_right hreset, hadjusted, if_neg Bool.false_ne_true, hrhobeg]
      refine firstRadius_le_iff hlimit ?_
      exact Extended.le_trans (smaller_le_left defaultRhobeg_defined) (Extended.le_trans hwide hfits)
  · obtain ⟨hrescaling, hcanonical, hadjusted⟩ := hproblem
    have hreset : ¬r.IsReset := by
      rintro ⟨s, hs, -⟩
      rw [hrescaling] at hs
      cases hs
    -- the bounds are those that the radius was cut to
    have hsame : before = halfWidth := by
      rw [hcanonical, c.settled_bounds, ← c.reduced_bounds] at hwidth
      exact Except.ok.inj (hbefore.symm.trans hwidth)
    rw [and_iff_right hreset, hadjusted, hrhobeg, hsame]
    exact firstRadius_le_iff hlimit (Extended.le_trans (smaller_le_right defaultRhobeg_defined hdef) hfits)

end Course

variable {search : NearestSearch (Extended K)} {invoker : Invoker} {i : Input (Extended K)}
  {e : Option Category} {r : Record (Extended K)} {halfWidth : Extended K}

/-- The first radius of a solver that limits it fits between the bounds of the problem that is handed to
the solver, whatever is asked for, unless it overshoots. -/
theorem prepare_rhobeg_le_iff (hsearch : search.KeepsDimension)
    (h : (Prep.run e (prepare search invoker i)).1 = .ok r)
    (hsolver : r.settings.solver = some .bobyqa)
    (hwidth : r.problem.bounds.halfWidth = .ok halfWidth) (hdef : isUndefined halfWidth = false) :
    r.settings.rhobeg ≤ larger epsilon halfWidth ↔
      ¬r.Overshoots invoker i (larger epsilon halfWidth) := by
  obtain ⟨c⟩ := exists_course (Prod.ext h rfl)
  rw [isUndefined_eq_false] at hdef
  have hsettled := settleSolver_yields (Prep.yields_of_outcome c.solver_eq)
  rcases hsettled with hkept | ⟨hadapts, hunsuitable⟩
  · -- the solver was asked for, and the radius is the one before selection
    rw [hkept] at hsolver ⊢
    obtain ⟨entries, before, hentries, hbefore, hasked, hiff⟩ :=
      c.adjusted_rhobeg_le_iff hsearch hsolver hwidth hdef
    rw [c.reduced_bounds] at hbefore
    rw [hiff, not_iff_not]
    simp only [Course.context, c.reduced_bounds] at hasked ⊢
    constructor
    · rintro ⟨hreset, hexceeds⟩
      exact ⟨c.given, entries, before, c.stated_eq, hentries, hbefore, hasked, hreset, hexceeds⟩
    · rintro ⟨given, entries', before', hgiven, hentries', hbefore', -, hreset, hexceeds⟩
      obtain rfl := Except.ok.inj (c.stated_eq.symm.trans hgiven)
      obtain rfl := Except.ok.inj (hentries.symm.trans hentries')
      obtain rfl := Except.ok.inj (hbefore.symm.trans hbefore')
      exact ⟨hreset, hexceeds⟩
  · -- the table selected the solver, and the radius was cut to the final bounds
    obtain ⟨rule, -, hhandles, hadapt⟩ := hadapts
    have hrule : rule.solver = .bobyqa :=
      Option.some.inj ((Settings.adapt_eq_ok hadapt).1.symm.trans hsolver)
    rw [hrule] at hhandles hadapt
    refine iff_of_true (Settings.adapt_rhobeg_le rfl hadapt (c.adjusted_rhobeg_defined hsearch) hwidth
      hdef) ?_
    rintro ⟨given, entries, before, hgiven, hentries, -, hasked, -⟩
    obtain rfl := Except.ok.inj (c.stated_eq.symm.trans hgiven)
    obtain ⟨entries', hentries', hsolver'⟩ := c.adjusted_solver hsearch
    obtain rfl := Except.ok.inj (hentries.symm.trans hentries')
    rw [Course.context, c.reduced_bounds, hasked] at hsolver'
    rw [hunsuitable _ hsolver'] at hhandles
    cases hhandles

/-- One variable that will be rescaled, with a first radius that fits between its stated bounds. -/
def shrunkInput : Input (Extended ℚ) where
  objective := zeroObjective
  start := .list [.int 0]
  lower := .list [.int (-8)]
  upper := .list [.int 8]
  options := .mapping [(.text "rhobeg", .int 4), (.text "scale", .bool true)]

/-- One variable and a last radius that does not fit between its bounds. -/
def lateInput : Input (Extended ℚ) where
  objective := zeroObjective
  start := .list [.int 0]
  lower := .list [.int (-1)]
  upper := .list [.int 1]
  options := .mapping [(.text "rhoend", .int 10)]

/-- What a preparation hands to the solver: the solver itself, the first radius, and half the width between
the bounds. -/
def Record.radiusData (r : Record (Extended ℚ)) :
    Option Solver × Extended ℚ × Except Fault (Extended ℚ) :=
  (r.settings.solver, r.settings.rhobeg, r.problem.bounds.halfWidth)

/-- A radius that is asked for in unscaled variables overshoots in canonical ones. -/
theorem prepare_rhobeg_le_iff_shrunkInput : ∃ r,
    (Prep.run none (prepare NearestSearch.stay (.solver .bobyqa) shrunkInput)).1 = .ok r ∧
      r.radiusData = (some .bobyqa, .finite 4, .ok (.finite 1)) ∧
      r.Overshoots (.solver .bobyqa) shrunkInput (larger epsilon (.finite 1)) := by
  have hrun : (Prep.run none (prepare NearestSearch.stay (.solver .bobyqa)
      shrunkInput)).1.toOption.map Record.radiusData
        = some (some .bobyqa, .finite 4, .ok (.finite 1)) := by decide +kernel
  obtain ⟨r, hr, hdata⟩ := exists_of_toOption_map hrun
  have hrhobeg : r.settings.rhobeg = .finite 4 := congrArg (·.2.1) hdata
  have hiff := prepare_rhobeg_le_iff NearestSearch.stay_keepsDimension hr (congrArg (·.1) hdata)
    (congrArg (·.2.2) hdata) (by decide +kernel)
  refine ⟨r, hr, hdata, not_not.1 fun hnot => ?_⟩
  have hle := hiff.2 hnot
  rw [hrhobeg] at hle
  exact absurd hle (by decide +kernel)

/-- The first radius does not fit between the bounds where rescaling moved these and not the radius, and
where a last radius took its place. -/
theorem exists_limit_lt_rhobeg :
    (∃ r, (Prep.run none (prepare NearestSearch.stay (.solver .bobyqa) shrunkInput)).1 = .ok r ∧
      r.radiusData = (some .bobyqa, .finite 4, .ok (.finite 1)) ∧
      ¬r.settings.rhobeg ≤ larger epsilon (.finite 1)) ∧
    ∃ r, (Prep.run none (prepare NearestSearch.stay (.solver .bobyqa) lateInput)).1 = .ok r ∧
      r.radiusData = (some .bobyqa, .finite 10, .ok (.finite 1)) ∧
      ¬r.settings.rhobeg ≤ larger epsilon (.finite 1) := by
  have hshrunk : (Prep.run none (prepare NearestSearch.stay (.solver .bobyqa)
      shrunkInput)).1.toOption.map Record.radiusData
        = some (some .bobyqa, .finite 4, .ok (.finite 1)) := by decide +kernel
  have hlate : (Prep.run none (prepare NearestSearch.stay (.solver .bobyqa)
      lateInput)).1.toOption.map Record.radiusData
        = some (some .bobyqa, .finite 10, .ok (.finite 1)) := by decide +kernel
  obtain ⟨r, hr, hdata⟩ := exists_of_toOption_map hshrunk
  obtain ⟨q, hq, hdata'⟩ := exists_of_toOption_map hlate
  refine ⟨⟨r, hr, hdata, ?_⟩, q, hq, hdata', ?_⟩
  · rw [show r.settings.rhobeg = .finite 4 from congrArg (·.2.1) hdata]
    decide +kernel
  · rw [show q.settings.rhobeg = .finite 10 from congrArg (·.2.1) hdata']
    decide +kernel

end

end Presolve
