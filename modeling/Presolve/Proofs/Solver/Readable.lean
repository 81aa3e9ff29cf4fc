import Presolve.Proofs.Number.Extended
import Presolve.Proofs.Solver.Consulted
import Presolve.Proofs.Solver.Resolved
import Presolve.Proofs.Value.Lookup
import Presolve.Proofs.Value.Sound

/-!
# Options that can be read

No value of an option is a complaint: what is invalid is reported and replaced. Where no warning is
escalated, three things keep options from being resolved all the same, and `Context.Readable` excludes them:

* an integer that is too large for a double, as the value of an option that the solver has;
* several keys that name no option, one of which is no text, since such keys cannot be ordered;
* a single key that names no option and holds an integer of too many digits to be written.
-/

namespace Presolve

open Scalar

variable {α : Type} [Scalar α] [Interchange α]

/-! ## Values that are too large -/

namespace Value

variable {v : Value α}

theorem not_isHuge_of_realScalar? {x? : Option α} (h : v.realScalar? = .ok x?) : ¬v.IsHuge := by
  intro hhuge
  rw [realScalar?_of_isHuge hhuge] at h
  cases h

theorem not_isHuge_of_integerScalar? {i? : Option Int} (h : v.integerScalar? = .ok i?) :
    ¬v.IsHuge := by
  obtain ⟨x?, hx, -⟩ := map_eq_ok.1 h
  exact not_isHuge_of_realScalar? hx

theorem not_isHuge_of_flag? {b? : Option Bool} (h : v.flag? = .ok b?) : ¬v.IsHuge := by
  rintro ⟨i, rfl, hi⟩
  -- an integer is a flag only by the number that it is
  unfold flag? at h
  obtain ⟨x?, hx, -⟩ := map_eq_ok.1 h
  exact not_isHuge_of_realScalar? hx ⟨i, rfl, hi⟩

/-- A sound value that is neither a real number nor none is too large. -/
theorem realScalar?_faultsOnly (hv : v.isSound = true) :
    FaultsOnly (· = .overflow) v.realScalar? := by
  by_cases hhuge : v.IsHuge
  · rw [realScalar?_of_isHuge hhuge]
    exact .error rfl
  · exact .of_ok (exists_realScalar? hv hhuge)

/-- A flag is read as a flag or as a real. -/
theorem flag?_faultsOnly {F : Fault → Prop} (h : FaultsOnly F v.realScalar?) :
    FaultsOnly F v.flag? := by
  unfold flag?
  split
  · exact .ok _
  · exact .ok _
  · split
    · exact .ok _
    · exact h.map _
  · exact h.map _

end Value

omit [Interchange α] in
/-- Bounds with as many upper as lower ones have a half width. -/
theorem Bounds.exists_halfWidth {b : Bounds α} (h : b.upper.length = b.lower.length) :
    ∃ halfWidth, b.halfWidth = .ok halfWidth := by
  unfold halfWidth
  split
  · exact ⟨_, rfl⟩
  · next hsome =>
    rw [entrywise_of_length_eq _ h]
    have hpos : 0 < b.lower.length := by
      rw [List.isEmpty_iff_length_eq_zero] at hsome
      omega
    have hlen : (List.zipWith (· - ·) b.upper b.lower).length ≠ 0 := by
      rw [List.length_zipWith, h, Nat.min_self]
      omega
    cases hwidths : List.zipWith (· - ·) b.upper b.lower with
    | nil => simp [hwidths] at hlen
    | cons width widths => exact ⟨_, rfl⟩

namespace Resolution

variable {c : Context α}

/-- Keys that can be listed in a message: a single one that can be written, or texts. -/
def AreListable (keys : List (Value α)) : Prop :=
  (keys.length ≤ 1 ∧ ∀ key ∈ keys, key.isWritable = true) ∨ ∀ key ∈ keys, key.text?.isSome

namespace Context

/-! ## Readable options -/

omit [Scalar α] [Interchange α] in
/-- The keys that name no option of the solver that is asked for. -/
def unknownKeys (c : Context α) : List (Value α) :=
  (c.entries.map (·.1)).filter fun key => !isKnown c.asked? key

omit [Scalar α] [Interchange α] in
/-- Nothing in the options is fatal: the keys that name no option can be listed, and no option that the
solver has is an integer that is too large. -/
structure Readable (c : Context α) : Prop where
  keys : AreListable c.unknownKeys
  values : ∀ name ∈ OptionName.known c.asked?, name ≠ .solver →
    ∀ v, c.find? name = some v → ¬v.IsHuge

/-- The values of the options are sound. -/
def Sound (c : Context α) : Prop := ∀ entry ∈ c.entries, entry.2.isSound = true

/-- The value of an option is a number or none. -/
def Reads (c : Context α) (name : OptionName) : Prop :=
  ∀ v, c.find? name = some v → ∃ x?, v.realScalar? = .ok x?

/-- The value of an option is a number or none, or reading it ends in a fault `x` with `F x`. -/
def ReadsUpTo (F : Fault → Prop) (c : Context α) (name : OptionName) : Prop :=
  ∀ v, c.find? name = some v → FaultsOnly F v.realScalar?

theorem Reads.upTo {F : Fault → Prop} {name : OptionName} (h : c.Reads name) : c.ReadsUpTo F name :=
  fun v hv => .of_ok (h v hv)

omit [Scalar α] [Interchange α] in
theorem isSound_of_find? {name : OptionName} {v : Value α} (hc : c.Sound)
    (h : c.find? name = some v) : v.isSound = true := by
  rw [find?, Value.lookup?, Option.map_eq_some_iff] at h
  obtain ⟨entry, hentry, rfl⟩ := h
  exact hc entry (List.mem_of_find?_eq_some hentry)

theorem Readable.reads (hc : c.Readable) (hsound : c.Sound) {name : OptionName}
    (hname : name ∈ OptionName.known c.asked?) (hsolver : name ≠ .solver) : c.Reads name :=
  fun v hv => Value.exists_realScalar? (isSound_of_find? hsound hv) (hc.values name hname hsolver v hv)

end Context

/-! ## What can go wrong in a step -/

section

variable {F : Fault → Prop}

omit [Scalar α] in
theorem solver_failsOnly (c : Context α) : Prep.FailsOnly F (solver c) := by
  unfold solver
  split
  · exact .pure _
  · exact .step (fun _ => .report _ _) (.pure _)
  · exact .pure _
  · exact .step (fun _ => .report _ _) (.pure _)

omit [Scalar α] in
/-- Keys have texts in order exactly if they can be listed. -/
theorem exists_keyTexts_iff {keys : List (Value α)} :
    (∃ texts, keyTexts keys = .ok texts) ↔ AreListable keys := by
  rcases keys with _ | ⟨a, _ | ⟨b, rest⟩⟩
  · exact iff_of_true ⟨_, rfl⟩ (.inl (by simp))
  · have hone : AreListable [a] ↔ a.isWritable = true := by
      simp only [AreListable, List.length_singleton, le_refl, List.forall_mem_singleton, true_and]
      refine or_iff_left_of_imp fun htext => ?_
      obtain ⟨t, ht⟩ := Option.isSome_iff_exists.1 htext
      exact Value.isWritable_of_text? ht
    rw [hone, keyTexts, Value.toText]
    cases a.isWritable with
    | true => exact iff_of_true ⟨_, rfl⟩ rfl
    | false =>
      refine iff_of_false ?_ Bool.false_ne_true
      rintro ⟨_, h⟩
      cases h
  · have hmany : ¬((a :: b :: rest).length ≤ 1 ∧ ∀ key ∈ a :: b :: rest, key.isWritable = true) := by
      simp
    rw [AreListable, or_iff_right hmany]
    simp only [keyTexts, bind_eq_ok, pure_eq_ok]
    rw [exists_comm]
    simp only [exists_and_left, exists_eq', and_true, exists_mapM_iff]
    -- several keys are ordered by their texts, and each of them needs one
    refine forall₂_congr fun key _ => ?_
    cases key.text? <;> simp

omit [Scalar α] in
theorem exists_keyTexts_of_yields (h : (checkUnknown c c.asked?).Yields ()) :
    ∃ texts, keyTexts c.unknownKeys = .ok texts := by
  simp only [checkUnknown] at h
  split at h
  · obtain ⟨texts, htexts, -⟩ := h.of_bind
    exact ⟨texts, Prep.yields_lift.1 htexts⟩
  · next hnone =>
    have hempty : c.unknownKeys = [] := by simpa [Context.unknownKeys] using hnone
    exact exists_keyTexts_iff.2 (.inl (by simp [hempty]))

omit [Scalar α] in
theorem checkUnknown_failsOnly (h : FaultsOnly F (keyTexts c.unknownKeys)) :
    Prep.FailsOnly F (checkUnknown c c.asked?) := by
  unfold checkUnknown
  exact .ite (fun _ => (Prep.FailsOnly.lift h).bind fun _ _ => .report _ _) fun _ => .pure _

theorem defaultRadii_faultsOnly {s? : Option Solver} (hwidth : ∃ w, c.bounds.halfWidth = .ok w)
    (hscale : c.ReadsUpTo F .scale) : FaultsOnly F (defaultRadii c s?) := by
  unfold defaultRadii
  split
  · refine (FaultsOnly.of_ok hwidth).bind fun halfWidth _ => ?_
    cases hfound : c.find? .scale with
    | none => exact .ok _
    | some v => exact (Value.flag?_faultsOnly (hscale v hfound)).bind fun _ _ => .ok _
  · exact .ok _

theorem defaultRadii_exists {s? : Option Solver} (hwidth : ∃ w, c.bounds.halfWidth = .ok w)
    (hscale : c.Reads .scale) : ∃ radii, defaultRadii c s? = .ok radii :=
  (defaultRadii_faultsOnly hwidth hscale.upTo).exists_ok

theorem npt_failsOnly {s? : Option Solver}
    (h : ∀ s, s? = some s → s.takesNpt = true → c.ReadsUpTo F .npt) : Prep.FailsOnly F (npt c s?) := by
  cases s? with
  | none => exact .pure none
  | some s =>
    simp only [npt]
    split
    · next value hfound htakes =>
      refine (Prep.FailsOnly.lift ((h s rfl htakes value hfound).map _)).bind fun asked? _ => ?_
      cases asked? with
      | none => exact (Prep.FailsOnly.report _ _).bind fun _ _ => .pure _
      | some asked =>
        exact .ite (fun _ => .pure _) fun _ => (Prep.FailsOnly.report _ _).bind fun _ _ => .pure _
    · exact .pure _

theorem maxfun_failsOnly {s? : Option Solver} {m? : Option Int} (h : c.ReadsUpTo F .maxfun) :
    Prep.FailsOnly F (maxfun c s? m?) := by
  simp only [maxfun]
  split
  · exact .pure _
  · next value hfound =>
    refine (Prep.FailsOnly.lift ((h value hfound).map _)).bind fun asked? _ => ?_
    cases asked? with
    | none => exact (Prep.FailsOnly.report _ _).bind fun _ _ => .pure _
    | some asked =>
      refine .ite (fun _ => (Prep.FailsOnly.report _ _).bind fun _ _ => .pure _) fun _ => ?_
      split
      · exact .ite (fun _ => (Prep.FailsOnly.report _ _).bind fun _ _ => .pure _) fun _ => .pure _
      · exact .ite (fun _ => (Prep.FailsOnly.report _ _).bind fun _ _ => .pure _) fun _ => .pure _
      · exact .pure _

theorem fallbackRhobeg_faultsOnly {default : α} (h : c.ReadsUpTo F .rhoend) :
    FaultsOnly F (fallbackRhobeg c default) := by
  unfold fallbackRhobeg
  split
  · exact .ok _
  · next value hfound => exact (h value hfound).map _

theorem exists_fallbackRhobeg {default : α} (h : c.Reads .rhoend) :
    ∃ r, fallbackRhobeg c default = .ok r := (fallbackRhobeg_faultsOnly h.upTo).exists_ok

theorem rhobeg_failsOnly {s? : Option Solver} {default : α}
    (hwidth : ∃ w, c.bounds.halfWidth = .ok w) (hfirst : c.ReadsUpTo F .rhobeg)
    (hlast : c.ReadsUpTo F .rhoend) : Prep.FailsOnly F (rhobeg c s? default) := by
  have hfallback : Prep.FailsOnly F (liftM (fallbackRhobeg c default) : Prep α α) :=
    .lift (fallbackRhobeg_faultsOnly hlast)
  refine (Prep.FailsOnly.of_ok hwidth).bind fun halfWidth _ => ?_
  split
  · exact hfallback.bind fun _ _ => .pure _
  · next value hfound =>
    refine (Prep.FailsOnly.lift (hfirst value hfound)).bind fun asked? _ => ?_
    split
    · exact (Prep.FailsOnly.report _ _).bind fun _ _ => hfallback.bind fun _ _ => .pure _
    · split
      · exact .ite (fun _ => (Prep.FailsOnly.report _ _).bind fun _ _ => .pure _) fun _ => .pure _
      · exact .pure _

theorem rhoend_failsOnly {first ratio : α} (h : c.ReadsUpTo F .rhoend) :
    Prep.FailsOnly F (rhoend c first ratio) := by
  unfold rhoend
  split
  · exact .pure _
  · next value hfound =>
    refine (Prep.FailsOnly.lift (h value hfound)).bind fun asked? _ => ?_
    split
    · exact .pure _
    · exact (Prep.FailsOnly.report _ _).bind fun _ _ => .pure _

theorem ftarget_failsOnly (h : c.ReadsUpTo F .ftarget) : Prep.FailsOnly F (ftarget c) := by
  unfold ftarget
  split
  · exact .pure _
  · next value hfound =>
    refine (Prep.FailsOnly.lift (h value hfound)).bind fun asked? _ => ?_
    split
    · exact .pure _
    · exact (Prep.FailsOnly.report _ _).bind fun _ _ => .pure _

theorem flag_failsOnly {name : FlagName} (h : c.ReadsUpTo F name.option) :
    Prep.FailsOnly F (flag c name) := by
  unfold flag
  split
  · exact .pure _
  · next value hfound =>
    refine (Prep.FailsOnly.lift (Value.flag?_faultsOnly (h value hfound))).bind fun asked? _ => ?_
    split
    · exact .pure _
    · exact (Prep.FailsOnly.report _ _).bind fun _ _ => .pure _

theorem chkfunval_failsOnly {debug : Bool} (h : c.ReadsUpTo F .chkfunval) :
    Prep.FailsOnly F (chkfunval c debug) := by
  unfold chkfunval
  split
  · exact .pure _
  · next value hfound =>
    refine (Prep.FailsOnly.lift (Value.flag?_faultsOnly (h value hfound))).bind fun asked? _ => ?_
    split
    · exact (Prep.FailsOnly.report _ _).bind fun _ _ => .pure _
    · exact .ite (fun _ => (Prep.FailsOnly.report _ _).bind fun _ _ => .pure _) fun _ => .pure _

/-- What can go wrong in resolving options is what can go wrong in reading their values and in ordering
their unknown keys. -/
theorem settings_failsOnly_of_readsUpTo (hkeys : FaultsOnly F (keyTexts c.unknownKeys))
    (hvalues : ∀ name ∈ OptionName.known c.asked?, name ≠ .solver → c.ReadsUpTo F name)
    (hbounds : c.bounds.upper.length = c.bounds.lower.length) : Prep.FailsOnly F (settings c) := by
  have hwidth := Bounds.exists_halfWidth hbounds
  have hreads {name : OptionName} (hname : name ∈ OptionName.common) (hsolver : name ≠ .solver) :
      c.ReadsUpTo F name := hvalues name (mem_known_of_common hname) hsolver
  refine (solver_failsOnly c).bind fun s? hs => ?_
  obtain rfl := solver_yields hs
  refine (checkUnknown_failsOnly hkeys).bind fun _ _ => ?_
  refine (Prep.FailsOnly.lift (defaultRadii_faultsOnly hwidth (hreads (by decide) (by decide)))).bind
    fun radii _ => ?_
  refine (npt_failsOnly fun s hs htakes => ?_).bind fun npt _ => ?_
  · exact hvalues .npt (npt_mem_known.2 ⟨s, hs, htakes⟩) (by decide)
  refine (maxfun_failsOnly (hreads (by decide) (by decide))).bind fun maxfun _ => ?_
  refine (rhobeg_failsOnly hwidth (hreads (by decide) (by decide))
    (hreads (by decide) (by decide))).bind fun rhobeg _ => ?_
  refine (rhoend_failsOnly (hreads (by decide) (by decide))).bind fun rhoend _ => ?_
  refine (ftarget_failsOnly (hreads (by decide) (by decide))).bind fun ftarget _ => ?_
  refine (flag_failsOnly (hreads (by decide) (by decide))).bind fun classical _ => ?_
  refine .step (fun _ => .report _ _) ?_
  refine (flag_failsOnly (hreads (by decide) (by decide))).bind fun scale _ => ?_
  refine (flag_failsOnly (hreads (by decide) (by decide))).bind fun quiet _ => ?_
  refine (flag_failsOnly (hreads (by decide) (by decide))).bind fun debug _ => ?_
  refine .step (fun _ => .report _ _) ?_
  refine (chkfunval_failsOnly (hreads (by decide) (by decide))).bind fun chkfunval _ => ?_
  exact .step (fun _ => .report _ _) (.pure _)

/-- Readable options are resolved without a fault. -/
theorem settings_failsOnly (hc : c.Readable) (hsound : c.Sound)
    (hbounds : c.bounds.upper.length = c.bounds.lower.length) : Prep.FailsOnly F (settings c) :=
  settings_failsOnly_of_readsUpTo (.of_ok (exists_keyTexts_iff.2 hc.keys))
    (fun _ hname hsolver => (hc.reads hsound hname hsolver).upTo) hbounds

/-- Options whose unknown keys can be listed are resolved, unless a number is too large. -/
theorem settings_failsOnly_overflow (hkeys : AreListable c.unknownKeys) (hsound : c.Sound)
    (hbounds : c.bounds.upper.length = c.bounds.lower.length) :
    Prep.FailsOnly (· = .overflow) (settings c) := by
  refine settings_failsOnly_of_readsUpTo (.of_ok (exists_keyTexts_iff.2 hkeys)) (fun name _ _ v hv => ?_)
    hbounds
  exact Value.realScalar?_faultsOnly (Context.isSound_of_find? hsound hv)

end

/-! ## Steps that read -/

theorem maxfun_reads {s? : Option Solver} {m? : Option Int} {budget : Int}
    (h : (maxfun c s? m?).Yields budget) {v : Value α} (hv : c.find? .maxfun = some v) :
    ¬v.IsHuge := by
  simp only [maxfun, hv] at h
  obtain ⟨asked?, hasked, -⟩ := h.of_bind
  exact Value.not_isHuge_of_integerScalar? (Prep.yields_lift.1 hasked)

theorem npt_reads {s : Solver} {m? : Option Int} (hs : s.takesNpt = true)
    (h : (npt c (some s)).Yields m?) {v : Value α} (hv : c.find? .npt = some v) : ¬v.IsHuge := by
  simp only [npt, hv, hs] at h
  obtain ⟨asked?, hasked, -⟩ := h.of_bind
  exact Value.not_isHuge_of_integerScalar? (Prep.yields_lift.1 hasked)

theorem rhobeg_reads {s? : Option Solver} {default r : α} (h : (rhobeg c s? default).Yields r)
    {v : Value α} (hv : c.find? .rhobeg = some v) : ¬v.IsHuge := by
  obtain ⟨halfWidth, -, h⟩ := h.of_bind
  simp only [hv] at h
  obtain ⟨asked?, hasked, -⟩ := h.of_bind
  exact Value.not_isHuge_of_realScalar? (Prep.yields_lift.1 hasked)

theorem rhoend_reads {first ratio r : α} (h : (rhoend c first ratio).Yields r) {v : Value α}
    (hv : c.find? .rhoend = some v) : ¬v.IsHuge := by
  simp only [rhoend, hv] at h
  obtain ⟨asked?, hasked, -⟩ := h.of_bind
  exact Value.not_isHuge_of_realScalar? (Prep.yields_lift.1 hasked)

theorem ftarget_reads {r : α} (h : (ftarget c).Yields r) {v : Value α}
    (hv : c.find? .ftarget = some v) : ¬v.IsHuge := by
  simp only [ftarget, hv] at h
  obtain ⟨asked?, hasked, -⟩ := h.of_bind
  exact Value.not_isHuge_of_realScalar? (Prep.yields_lift.1 hasked)

theorem flag_reads {name : FlagName} {b : Bool} (h : (flag c name).Yields b) {v : Value α}
    (hv : c.find? name.option = some v) : ¬v.IsHuge := by
  simp only [flag, hv] at h
  obtain ⟨asked?, hasked, -⟩ := h.of_bind
  exact Value.not_isHuge_of_flag? (Prep.yields_lift.1 hasked)

theorem chkfunval_reads {debug b : Bool} (h : (chkfunval c debug).Yields b) {v : Value α}
    (hv : c.find? .chkfunval = some v) : ¬v.IsHuge := by
  simp only [chkfunval, hv] at h
  obtain ⟨asked?, hasked, -⟩ := h.of_bind
  exact Value.not_isHuge_of_flag? (Prep.yields_lift.1 hasked)

/-- Options that are resolved are readable. -/
theorem readable_of_yields {s : Settings α} (h : (settings c).Yields s) : c.Readable := by
  have hsteps := settings_yields h
  have hsolver := solver_yields hsteps.solver
  constructor
  · have hunknown := hsteps.unknown
    rw [hsolver] at hunknown
    exact exists_keyTexts_iff.1 (exists_keyTexts_of_yields hunknown)
  · obtain ⟨first, last, -, hfirst, hlast⟩ := hsteps.radii
    intro name hname hother v hv
    -- every option but the solver is read by a step of its own
    cases name with
    | npt =>
      obtain ⟨solver, hasked, htakes⟩ := npt_mem_known.1 hname
      have hnpt := hsteps.npt
      rw [hsolver, hasked] at hnpt
      exact npt_reads htakes hnpt hv
    | maxfun => exact maxfun_reads hsteps.maxfun hv
    | rhobeg => exact rhobeg_reads hfirst hv
    | rhoend => exact rhoend_reads hlast hv
    | ftarget => exact ftarget_reads hsteps.ftarget hv
    | classical => exact flag_reads hsteps.classical hv
    | scale => exact flag_reads hsteps.scale hv
    | quiet => exact flag_reads hsteps.quiet hv
    | debug => exact flag_reads hsteps.debug hv
    | chkfunval => exact chkfunval_reads hsteps.chkfunval hv
    | solver => exact absurd rfl hother

end Resolution

/-! ## All options -/

omit [Scalar α] [Interchange α] in
/-- Are these options at all: nothing, a dictionary, or options by their names? -/
def Value.areOptions : Value α → Bool
  | absent | mapping _ | options _ => true
  | _ => false

omit [Scalar α] [Interchange α] in
/-- Only what are no options at all is a complaint. -/
theorem readEntries_of_areOptions (source : String) (options : Value α) :
    if options.areOptions then ∃ entries, readEntries source options = .ok entries
    else readEntries source options = .error (.invalid .optionsNotMapping source) := by
  cases options with
  | absent | mapping _ | options _ => exact ⟨_, rfl⟩
  | _ => exact rfl

omit [Scalar α] [Interchange α] in
/-- The entries of sound options are sound. -/
theorem isSound_readEntries {source : String} {options : Value α} {entries : Entries α}
    (hoptions : options.isSound = true) (h : readEntries source options = .ok entries) :
    ∀ entry ∈ entries, entry.2.isSound = true := by
  intro entry hentry
  cases options with
  | absent =>
    cases h
    cases hentry
  | mapping given =>
    cases h
    rw [Value.isSound, Value.areSoundEntries_iff] at hoptions
    exact (hoptions entry (List.mem_filter.1 hentry).1).2
  | options fields =>
    cases h
    rw [Value.isSound, List.all_eq_true] at hoptions
    rw [Value.setOptions, List.mem_filterMap] at hentry
    obtain ⟨name, hname, hentry⟩ := hentry
    split at hentry
    · cases hentry
    · cases hentry
      rfl
    · cases hentry
      exact hoptions name hname
  | _ => cases h

/-- The number of points is resolved exactly for a solver. -/
theorem Resolution.isSome_npt {c : Context α} {s? : Option Solver} {m? : Option Int}
    (h : (npt c s?).Yields m?) : m?.isSome = s?.isSome := by
  cases s? with
  | none =>
    rw [← Prep.yields_pure.1 h]
    rfl
  | some s =>
    simp only [npt] at h
    split at h
    · obtain ⟨asked?, -, h⟩ := h.of_bind
      cases asked? with
      | none =>
        obtain ⟨_, -, h⟩ := h.of_bind
        rw [← Prep.yields_pure.1 h]
        rfl
      | some asked =>
        simp only at h
        split at h
        · rw [← Prep.yields_pure.1 h]
          rfl
        · obtain ⟨_, -, h⟩ := h.of_bind
          rw [← Prep.yields_pure.1 h]
          rfl
    · rw [← Prep.yields_pure.1 h]
      rfl

/-- Where no warning is escalated, options are resolved to settings exactly if they are readable. What are
no options is the only complaint. -/
theorem resolveOptions_returns_iff {invoker : Invoker} {options : Value α} {n : Nat} {bounds : Bounds α}
    (hlower : bounds.lower.length = n) (hupper : bounds.upper.length = n)
    (hsound : options.isSound = true) :
    if options.areOptions then ∃ entries, readEntries invoker.name options = .ok entries ∧
      let c : Resolution.Context α := ⟨invoker, n, bounds, entries⟩
      ((∃ s, (Prep.run none (resolveOptions invoker options n bounds)).1 = .ok s ∧
        s.solver = c.asked? ∧ s.npt.isSome = s.solver.isSome) ↔ c.Readable)
    else (Prep.run none (resolveOptions invoker options n bounds)).1
      = .error (.invalid .optionsNotMapping invoker.name) := by
  have hread := readEntries_of_areOptions invoker.name options
  split
  · next hoptions =>
    rw [if_pos hoptions] at hread
    obtain ⟨entries, hentries⟩ := hread
    refine ⟨entries, hentries, ?_⟩
    constructor
    · rintro ⟨s, hs, -⟩
      obtain ⟨entries', hentries', hsettings⟩ :=
        resolveOptions_yields (Prep.yields_of_outcome (Prod.ext hs rfl))
      obtain rfl := Except.ok.inj (hentries.symm.trans hentries')
      exact Resolution.readable_of_yields hsettings
    · intro hreadable
      have htotal : Prep.FailsOnly (fun _ => False) (resolveOptions invoker options n bounds) := by
        refine (Prep.FailsOnly.of_ok ⟨entries, hentries⟩).bind fun entries' hentries' => ?_
        obtain rfl := Except.ok.inj (hentries.symm.trans (Prep.yields_lift.1 hentries'))
        exact Resolution.settings_failsOnly hreadable (isSound_readEntries hsound hentries)
          (hupper.trans hlower.symm)
      obtain ⟨s, hs⟩ := htotal.exists_ok {}
      obtain ⟨entries', hentries', hsettings⟩ :=
        resolveOptions_yields (Prep.yields_of_outcome (Prod.ext hs rfl))
      obtain rfl := Except.ok.inj (hentries.symm.trans hentries')
      have hsteps := Resolution.settings_yields hsettings
      exact ⟨s, hs, Resolution.solver_yields hsteps.solver, Resolution.isSome_npt hsteps.npt⟩
  · next hother =>
    rw [if_neg hother] at hread
    have hrun : (resolveOptions invoker options n bounds).outcome none {}
        = (.error (.invalid .optionsNotMapping invoker.name), {}) := by
      rw [resolveOptions, Prep.outcome_bind, hread, Prep.outcome_lift]
    exact congrArg Prod.fst hrun

/-- Options of which no entry is valid: a budget that is no number, and a key that is no text. -/
def oddOptions : Value (Extended ℚ) := .mapping [(.text "maxfun", .text "many"), (.int 5, .int 1)]

/-- Options that are invalid are resolved all the same. -/
theorem resolveOptions_returns_iff_oddOptions : ∃ s,
    (Prep.run none (resolveOptions .frontEnd oddOptions 2 (.free 2))).1 = .ok s ∧
      s.solver = none ∧ s.npt.isSome = s.solver.isSome := by
  have hiff := @resolveOptions_returns_iff _ _ _ .frontEnd oddOptions 2 (.free 2) rfl rfl
    (by decide +kernel)
  rw [if_pos (show oddOptions.areOptions = true from rfl)] at hiff
  obtain ⟨entries, hentries, hiff⟩ := hiff
  cases hentries
  refine hiff.2 ⟨.inl (by decide +kernel), ?_⟩
  -- no option holds an integer
  intro name _ _ v hv
  have hfound : v = .text "many" := by
    cases name with
    | maxfun => exact (Option.some.inj hv).symm
    | _ => cases hv
  rintro ⟨i, hi, -⟩
  rw [hfound] at hi
  cases hi

/-- A budget that is too large for a double, though it is not even positive. -/
def hugeOptions : Value (Extended ℚ) := .mapping [(.text "maxfun", .int (-10 ^ 400))]

/-- Two keys that cannot be ordered, neither of which names an option. -/
def mixedOptions : Value (Extended ℚ) := .mapping [(.int 1, .int 2), (.text "a", .int 3)]

/-- A key that names no option, of more digits than are written. -/
def longOptions : Value (Extended ℚ) := .mapping [(.int (10 ^ 5000), .int 1)]

/-- Three mappings end resolution, and none is a complaint. -/
theorem resolveOptions_fails_of_mapping :
    (Prep.run none (resolveOptions .frontEnd hugeOptions 2 (.free 2))).1 = .error .overflow ∧
    (Prep.run none (resolveOptions .frontEnd mixedOptions 2 (.free 2))).1 = .error .wrongType ∧
    (Prep.run none (resolveOptions .frontEnd longOptions 2 (.free 2))).1 = .error .tooManyDigits := by
  have hhuge : fault? (Prep.run none (resolveOptions .frontEnd hugeOptions 2 (.free 2))).1
      = some .overflow := by decide +kernel
  have hmixed : fault? (Prep.run none (resolveOptions .frontEnd mixedOptions 2 (.free 2))).1
      = some .wrongType := by decide +kernel
  have hlong : fault? (Prep.run none (resolveOptions .frontEnd longOptions 2 (.free 2))).1
      = some .tooManyDigits := by decide +kernel
  exact ⟨fault?_eq_some.1 hhuge, fault?_eq_some.1 hmixed, fault?_eq_some.1 hlong⟩

end Presolve
