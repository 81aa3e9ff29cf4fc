import Presolve.Proofs.Solver.Answers

/-!
# Entries that are ignored

Entries whose keys name no option can be written into the options, and entries whose keys name no part into
a problem. One diagnostic names them, and otherwise they are not seen: the result is the same, and so are
the other diagnostics and their order, although those that come later are numbered differently.

A preparation whose result is reached in steps reaches it from every journal, and adds the same reports to
each. So what comes after the one diagnostic goes on as it would have without it.
-/

namespace Presolve

open Scalar

variable {α β : Type}

/-! ## Reports that are always the same -/

namespace Prep

variable [Interchange α] {p : Prep α β} {source : String} {b : β} {j k : Journal α}

namespace Stepwise

/-- A result that is reached in steps is reached from every journal, with the same diagnostics. -/
theorem exists_added (hp : p.Stepwise) (h : p.outcome none j = (.ok b, k)) :
    ∃ added : List (Diagnostic α), ∀ j', ∃ k', p.outcome none j' = (.ok b, k') ∧
      k'.log.entries = j'.log.entries ++ added := by
  induction hp generalizing j k with
  | lift x =>
    rw [outcome_lift, Prod.mk.injEq] at h
    exact ⟨[], fun j' => ⟨j', by rw [outcome_lift, h.1], by rw [List.append_nil]⟩⟩
  | leave v => exact ⟨[], fun j' => ⟨_, rfl, by rw [List.append_nil]⟩⟩
  | report source a => exact ⟨[⟨source, a⟩], fun j' => ⟨_, rfl, rfl⟩⟩
  | bind hp hf ihp ihf =>
    obtain ⟨c, l, hfirst, hrest⟩ := outcome_bind_eq_ok.1 h
    obtain ⟨added, hadded⟩ := ihp hfirst
    obtain ⟨more, hmore⟩ := ihf c hrest
    refine ⟨added ++ more, fun j' => ?_⟩
    obtain ⟨l', hl', hentries⟩ := hadded j'
    obtain ⟨k', hk', hentries'⟩ := hmore l'
    exact ⟨k', outcome_bind_eq_ok.2 ⟨c, l', hl', hk'⟩, by rw [hentries', hentries, List.append_assoc]⟩

/-- What steps report once, they report always. -/
theorem results (hp : p.Stepwise) (h : p.outcome none j = (.ok b, k)) {added : List (Anomaly α)}
    (hadded : k.log.entries = j.log.entries ++ added.map (Diagnostic.mk source)) :
    p.Results source b added := by
  obtain ⟨diagnostics, hall⟩ := hp.exists_added h
  obtain ⟨k', hk', hentries⟩ := hall j
  rw [h] at hk'
  obtain rfl : k = k' := congrArg Prod.snd hk'
  obtain rfl : diagnostics = added.map (Diagnostic.mk source) :=
    List.append_cancel_left (hentries.symm.trans hadded)
  exact hall

/-- Steps within some anomalies report only such. -/
theorem exists_results (hp : p.Stepwise) {A : Anomaly α → Prop} {F : Fault → Prop}
    (hwithin : p.Within source A F) (h : p.outcome none j = (.ok b, k)) :
    ∃ added, p.Results source b added ∧ ∀ a ∈ added, A a := by
  obtain ⟨⟨added, hall, hadded⟩, -⟩ := hwithin none j
  rw [h] at hadded
  exact ⟨added, hp.results h hadded, hall⟩

end Stepwise

end Prep

/-! ## Dictionaries with more entries -/

namespace Entries

variable {u extras v m : Entries α} {key : Text} {known : Text → Bool}

/-- The keys of the entries that are not empty. -/
def names (m : Entries α) : List Text := m.given.map Prod.fst

theorem IsDictionary.mem_names (h : m.IsDictionary) :
    key ∈ m.names ↔ (Value.lookup? key m.kept).isSome = true := by
  rw [names, List.mem_map, Option.isSome_iff_exists]
  constructor
  · rintro ⟨⟨name, value⟩, hmem, rfl⟩
    exact ⟨value, h.kept.lookup?_eq_some_iff.2 hmem⟩
  · rintro ⟨value, hvalue⟩
    exact ⟨(key, value), h.kept.lookup?_eq_some_iff.1 hvalue, rfl⟩

theorem IsDictionary.nodup_names (h : m.IsDictionary) : m.names.Nodup := by
  apply List.Nodup.of_map some
  rw [names, List.map_map]
  exact h.kept.map_some_byText ▸ h.kept.nodup

theorem unknown_kept (m : Entries α) (known : Text → Bool) :
    m.kept.unknown known = m.names.filter fun key => !known key := rfl

/-- A dictionary with more entries, in any order: under the keys of `extras` their values are found, and
under other keys what was found before. -/
structure Extends (u extras v : Entries α) : Prop where
  base : u.IsDictionary
  added : extras.IsDictionary
  result : v.IsDictionary
  lookup?_eq : ∀ key, Value.lookup? key v = (Value.lookup? key extras).or (Value.lookup? key u)

/-- The unknown keys of a dictionary with more entries, all of whose keys are unknown. -/
def unknownWith (known : Text → Bool) (u extras : Entries α) : List Text :=
  ((u.kept.unknown known).filter fun key => (Value.lookup? key extras).isNone) ++ extras.names

namespace Extends

variable (h : u.Extends extras v)

include h

theorem lookup?_kept_of_none (hkey : Value.lookup? key extras = none) :
    Value.lookup? key v.kept = Value.lookup? key u.kept := by
  rw [h.result.lookup?_kept, h.base.lookup?_kept, h.lookup?_eq, hkey, Option.none_or]

theorem lookup?_kept_of_some (hkey : (Value.lookup? key extras).isSome = true) :
    Value.lookup? key v.kept = Value.lookup? key extras.kept := by
  obtain ⟨value, hvalue⟩ := Option.isSome_iff_exists.1 hkey
  rw [h.result.lookup?_kept, h.added.lookup?_kept, h.lookup?_eq, hvalue, Option.some_or]

/-- Unknown are the keys that were, unless they are written again, and those of the entries that are not
empty. -/
theorem unknown_perm (hnew : ∀ key, (Value.lookup? key extras).isSome = true → known key = false) :
    (v.kept.unknown known).Perm (unknownWith known u extras) := by
  have hwritten (key : Text) (hkey : key ∈ extras.names) :
      (Value.lookup? key extras).isSome = true := by
    rw [h.added.mem_names, h.added.lookup?_kept] at hkey
    exact Option.isSome_of_isSome_filter _ _ hkey
  rw [unknownWith, unknown_kept, unknown_kept]
  refine (List.perm_ext_iff_of_nodup (h.result.nodup_names.filter _) ?_).2 fun key => ?_
  · refine ((h.base.nodup_names.filter _).filter _).append h.added.nodup_names ?_
    intro key hleft hright
    have hnone := (List.mem_filter.1 hleft).2
    rw [Option.isNone_iff_eq_none, ← Option.not_isSome_iff_eq_none] at hnone
    exact hnone (hwritten key hright)
  · simp only [List.mem_append, List.mem_filter, h.result.mem_names, h.base.mem_names,
      h.added.mem_names]
    cases hkey : Value.lookup? key extras with
    | none =>
      have hnot : ¬(Value.lookup? key extras.kept).isSome = true := fun hsome => by
        have hsome := hwritten key (h.added.mem_names.2 hsome)
        rw [hkey] at hsome
        cases hsome
      rw [h.lookup?_kept_of_none hkey]
      simp [hnot]
    | some value =>
      have hsome : (Value.lookup? key extras).isSome = true := by rw [hkey]; rfl
      rw [h.lookup?_kept_of_some hsome]
      simp [hnew key hsome]

end Extends

/-- A dictionary that has the entries of two, in any order, has more entries than either. -/
theorem IsDictionary.extends_of_perm (h : v.IsDictionary) (hperm : v.Perm (u ++ extras)) :
    u.Extends extras v := by
  have hboth : IsDictionary (u ++ extras) := by
    constructor
    · intro entry hentry
      exact h.texts entry (hperm.mem_iff.2 hentry)
    · exact (hperm.map _).nodup_iff.1 h.nodup
  have hnodup := hboth.nodup
  rw [List.map_append] at hnodup
  have hu : u.IsDictionary := {
    texts := fun entry hentry => hboth.texts entry (List.mem_append_left _ hentry)
    nodup := hnodup.of_append_left }
  have hextras : extras.IsDictionary := {
    texts := fun entry hentry => hboth.texts entry (List.mem_append_right _ hentry)
    nodup := hnodup.of_append_right }
  refine ⟨hu, hextras, h, fun key => ?_⟩
  apply Option.ext
  intro value
  have hmem : (key, value) ∈ v.byText ↔ (key, value) ∈ u.byText ∨ (key, value) ∈ extras.byText := by
    simp only [mem_byText, hperm.mem_iff, List.mem_append, or_and_right, exists_or]
  rw [h.lookup?_eq_some_iff, Option.or_eq_some_iff, hu.lookup?_eq_some_iff, hextras.lookup?_eq_some_iff,
    hmem]
  constructor
  · rintro (hbase | hadded)
    · obtain ⟨entry, hentry, htext, -⟩ := mem_byText.1 hbase
      refine .inr ⟨Value.lookup?_eq_none_iff.2 fun other hother heq => ?_, hbase⟩
      -- no key stands in both
      exact List.disjoint_of_nodup_append hnodup (List.mem_map_of_mem hentry)
        (List.mem_map.2 ⟨other, hother, heq.trans htext.symm⟩)
    · exact .inl hadded
  · rintro (hadded | ⟨-, hbase⟩)
    · exact .inr hadded
    · exact .inl hbase

end Entries

/-! ## Logs that differ in one report -/

/-- Two logs that are the same, in the same order, but for what they say about a tag: where the first one
says `report`, the second one says `report'`. -/
inductive DifferAt (tag : String) (report report' : List (Anomaly α)) :
    List (Anomaly α) → List (Anomaly α) → Prop where
  | intro (before after : List (Anomaly α)) (hothers : ∀ a ∈ before ++ after, a.tag ≠ tag) :
    DifferAt tag report report' (before ++ (report ++ after)) (before ++ (report' ++ after))

/-- What is said about other tags before and after does not matter. -/
theorem DifferAt.surround {tag : String} {report report' log log' front back : List (Anomaly α)}
    (h : DifferAt tag report report' log log') (hothers : ∀ a ∈ front ++ back, a.tag ≠ tag) :
    DifferAt tag report report' (front ++ (log ++ back)) (front ++ (log' ++ back)) := by
  obtain ⟨before, after, hinner⟩ := h
  have hall : ∀ a ∈ (front ++ before) ++ (after ++ back), a.tag ≠ tag := by
    intro a ha
    simp only [List.mem_append] at ha hothers hinner
    rcases ha with (ha | ha) | ha | ha
    · exact hothers a (.inl ha)
    · exact hinner a (.inl ha)
    · exact hinner a (.inr ha)
    · exact hothers a (.inr ha)
  have hwhole : DifferAt tag report report' ((front ++ before) ++ (report ++ (after ++ back)))
      ((front ++ before) ++ (report' ++ (after ++ back))) := .intro _ _ hall
  simpa only [List.append_assoc] using hwhole

namespace Anomaly

/-- Is it about keys that name nothing? -/
def namesUnknown : Anomaly α → Bool
  | unknownFields _ | unknownOptions _ => true
  | _ => false

theorem tag_ne_unknownOption {a : Anomaly α} (h : a.namesUnknown = false) : a.tag ≠ "UnknownOption" := by
  cases a with
  | unknownFields _ | unknownOptions _ => cases h
  | invalidFlag flag => cases flag <;> simp [tag, FlagName.tag]
  | _ => simp [tag]

theorem tag_ne_unknownField {a : Anomaly α} (h : ∀ names, a ≠ .unknownFields names) :
    a.tag ≠ "UnknownProbField" := by
  cases a with
  | unknownFields names => exact absurd rfl (h names)
  | invalidFlag flag => cases flag <;> simp [tag, FlagName.tag]
  | _ => simp [tag]

theorem OfAsked.namesUnknown {invoker : Invoker} {a : Anomaly α} (h : a.OfAsked invoker) :
    a.namesUnknown = false := by
  cases a with
  | unknownFields _ | unknownOptions _ => exact h.elim
  | _ => rfl

theorem OfSetting.namesUnknown {a : Anomaly α} (h : a.OfSetting) : a.namesUnknown = false := by
  cases a with
  | unknownFields _ | unknownOptions _ => exact h.elim
  | _ => rfl

end Anomaly

/-! ## Options -/

/-- No entry has a key that names an option. -/
def Entries.NamesNoOption (extras : Entries α) : Prop :=
  ∀ name : OptionName, Value.lookup? name.key extras = none

theorem Entries.NamesNoOption.isKeyOf {extras : Entries α} (h : extras.NamesNoOption) (s? : Option Solver)
    (key : Text) (hkey : (Value.lookup? key extras).isSome = true) : OptionName.isKeyOf s? key = false := by
  rw [OptionName.isKeyOf, Text.isAmong, List.any_eq_false]
  intro key' hkey' heq
  obtain ⟨name, -, rfl⟩ := List.mem_map.1 hkey'
  rw [← beq_iff_eq.1 heq, h name] at hkey
  cases hkey

namespace Resolution

theorem unknownReport_eq_of_perm {texts texts' : List Text} (h : texts.Perm texts') :
    (unknownReport texts : List (Anomaly α)) = unknownReport texts' := by
  rw [unknownReport, unknownReport, h.isEmpty_eq, sorted_eq_of_perm h]

variable [Scalar α] [Interchange α] {c : Context α} {s : Settings α} {j k : Journal α}

/-- The parts of a resolution that succeeds, with what they report. Only between them keys are called
unknown. -/
theorem exists_parts (h : (settings c).outcome none j = (.ok s, k)) :
    ∃ before after, (∀ a ∈ before ++ after, a.namesUnknown = false) ∧
      (solver c).Results c.invoker.name s.solver before ∧
      (afterSolver c s.solver).Results c.invoker.name s after := by
  have hsolver := solver_yields (settings_yields (Prep.yields_of_outcome h)).solver
  rw [settings_eq] at h
  obtain ⟨s?, l, hfirst, h⟩ := Prep.outcome_bind_eq_ok.1 h
  obtain ⟨_, l', -, hrest⟩ := Prep.outcome_bind_eq_ok.1 h
  obtain rfl : s? = s.solver := by rw [hsolver, solver_yields (Prep.yields_of_outcome hfirst)]
  obtain ⟨before, hbefore, hasked⟩ := (solver_stepwise c).exists_results (solver_discreet c) hfirst
  obtain ⟨after, hafter, hsetting⟩ :=
    (afterSolver_stepwise c s.solver).exists_results (afterSolver_discreet c s.solver) hrest
  refine ⟨before, after, fun a ha => ?_, hbefore, hafter⟩
  rcases List.mem_append.1 ha with ha | ha
  · exact (hasked a ha).namesUnknown
  · exact (hsetting a ha).namesUnknown

/-- A resolution that succeeds names the unknown keys, and no others. -/
theorem settings_results (hdict : c.entries.IsDictionary) (h : (settings c).outcome none j = (.ok s, k)) :
    ∃ before after, (∀ a ∈ before ++ after, a.namesUnknown = false) ∧
      (settings c).Results c.invoker.name s
        (before ++ (unknownReport (c.entries.unknown (OptionName.isKeyOf s.solver)) ++ after)) := by
  obtain ⟨before, after, hothers, hsolver, hafter⟩ := exists_parts h
  refine ⟨before, after, hothers, ?_⟩
  rw [settings_eq]
  exact .bind hsolver (.bind (checkUnknown_results hdict s.solver) hafter)

end Resolution

open Resolution

variable [Scalar α] [Interchange α] {u extras v : Entries α}

/-- A dictionary of options is resolved by its entries that are not empty. -/
theorem resolveOptions_mapping (invoker : Invoker) (m : Entries α) (n : Nat) (bounds : Bounds α) :
    resolveOptions invoker (.mapping m) n bounds = settings ⟨invoker, n, bounds, m.kept⟩ := by
  have hread : readEntries invoker.name (.mapping m) = .ok m.kept := readEntries_of_dictionary rfl _
  rw [resolveOptions, hread, Prep.lift_ok, pure_bind]

/-- Options with more entries whose keys name no option are resolved to the same settings. -/
theorem resolveOptions_of_extends (h : u.Extends extras v) (hnew : extras.NamesNoOption)
    {invoker : Invoker} {n : Nat} {bounds : Bounds α} {s : Settings α} {j k : Journal α}
    (hs : (resolveOptions invoker (.mapping u) n bounds).outcome none j = (.ok s, k)) :
    ∃ log log', (resolveOptions invoker (.mapping u) n bounds).Results invoker.name s log ∧
      (resolveOptions invoker (.mapping v) n bounds).Results invoker.name s log' ∧
      DifferAt "UnknownOption" (unknownReport (u.kept.unknown (OptionName.isKeyOf s.solver)))
        (unknownReport (Entries.unknownWith (OptionName.isKeyOf s.solver) u extras)) log log' := by
  rw [resolveOptions_mapping] at hs
  obtain ⟨before, after, hothers, hsolver, hafter⟩ := exists_parts hs
  have hfind (name : OptionName) : Context.find? ⟨invoker, n, bounds, v.kept⟩ name
      = Context.find? ⟨invoker, n, bounds, u.kept⟩ name := h.lookup?_kept_of_none (hnew name)
  have hsolver_eq : solver (⟨invoker, n, bounds, v.kept⟩ : Context α)
      = solver ⟨invoker, n, bounds, u.kept⟩ := solver_congr (hfind .solver)
  have hafter_eq : afterSolver (⟨invoker, n, bounds, v.kept⟩ : Context α) s.solver
      = afterSolver ⟨invoker, n, bounds, u.kept⟩ s.solver :=
    afterSolver_congr (c := ⟨invoker, n, bounds, u.kept⟩) fun name _ => hfind name
  have hunknown := checkUnknown_results (c := ⟨invoker, n, bounds, u.kept⟩) h.base.kept s.solver
  have hunknown' := checkUnknown_results (c := ⟨invoker, n, bounds, v.kept⟩) h.result.kept s.solver
  have hnames : (unknownReport (v.kept.unknown (OptionName.isKeyOf s.solver)) : List (Anomaly α))
      = unknownReport (Entries.unknownWith (OptionName.isKeyOf s.solver) u extras) :=
    unknownReport_eq_of_perm (h.unknown_perm (hnew.isKeyOf s.solver))
  have hresults' : (settings (⟨invoker, n, bounds, v.kept⟩ : Context α)).Results invoker.name s
      (before ++ (unknownReport (v.kept.unknown (OptionName.isKeyOf s.solver)) ++ after)) := by
    rw [settings_eq, hsolver_eq]
    refine .bind hsolver (.bind hunknown' ?_)
    rw [hafter_eq]
    exact hafter
  have hresults : (settings (⟨invoker, n, bounds, u.kept⟩ : Context α)).Results invoker.name s
      (before ++ (unknownReport (u.kept.unknown (OptionName.isKeyOf s.solver)) ++ after)) := by
    rw [settings_eq]
    exact .bind hsolver (.bind hunknown hafter)
  rw [hnames] at hresults'
  rw [resolveOptions_mapping, resolveOptions_mapping]
  exact ⟨_, _, hresults, hresults',
    .intro before after fun a ha => Anomaly.tag_ne_unknownOption (hothers a ha)⟩

/-! ## Preparations from any journal -/

/-- Settling the start reports nothing but that it was moved. -/
theorem settleStart_results {search : NearestSearch α} {source : String} {kind : ProblemKind} {f : Facts α}
    {p q : Problem α} {j k : Journal α}
    (h : (settleStart search source kind f p).outcome none j = (.ok q, k)) :
    ∃ added, (settleStart search source kind f p).Results source q added ∧
      ∀ a ∈ added, a.namesUnknown = false := by
  have hsteps := settleStart_stepwise search source kind f p
  have hmove := h
  unfold settleStart at hmove
  split at hmove
  · rw [Prep.outcome_pure, Prod.mk.injEq] at hmove
    exact ⟨[], hsteps.results h (by rw [hmove.2]; simp), List.forall_mem_nil _⟩
  · obtain ⟨_, _, -, ⟨-, -, hlog⟩ | ⟨-, -, hlog⟩⟩ := moveStart_outcome hmove
    · exact ⟨[], hsteps.results h (by rw [hlog]; simp), List.forall_mem_nil _⟩
    · refine ⟨[.revisedStart], hsteps.results h hlog, fun a ha => ?_⟩
      rw [List.mem_singleton.1 ha]
      rfl

section

variable {search : NearestSearch α} {invoker : Invoker} {i : Input α} {j k : Journal α} {r : Record α}

/-- Stages that always result in the same make the same record from every journal. -/
theorem Course.outcome_again (c : Course search invoker i none j r k) {options : Value α}
    {atCheck atReduce added atSettle atRescale atSolver : List (Anomaly α)}
    (hcheck : (check invoker.name i).Results invoker.name c.checked atCheck)
    (hreduce : (reduce c.checked).Results invoker.name (c.reduced, r.elimination) atReduce)
    (hresolve : (resolveOptions invoker options c.reduced.dimension c.reduced.bounds).Results
      invoker.name c.resolved added)
    (hsettle : (settleStart search invoker.name c.reduced.kind c.checked.facts c.reduced).Results
      invoker.name c.settled atSettle)
    (hrescale : (rescaleIfAsked invoker.name c.checked.facts c.settled c.resolved).Results
      invoker.name (r.problem, r.rescaling, c.adjusted) atRescale)
    (hsolver : (settleSolver invoker c.adjusted c.reduced.kind r.problem).Results
      invoker.name r.settings atSolver) (j' : Journal α) :
    ((prepare search invoker { i with options }).outcome none j').1 = .ok { r with
      invoker
      diagnostics := j'.log.entries ++ (atCheck ++ atReduce ++ (added ++
        (atSettle ++ atRescale ++ atSolver))).map (Diagnostic.mk invoker.name)
      input := if r.settings.debug then some { i with options } else none } := by
  obtain ⟨j₁, hj₁, e₁⟩ := hcheck j'
  obtain ⟨j₂, hj₂, e₂⟩ := hreduce j₁
  obtain ⟨j₃, hj₃, e₃⟩ := hresolve { j₂ with
    trace := j₂.trace ++ [.classified c.checked.problem.kind c.reduced.kind] }
  obtain ⟨j₄, hj₄, e₄⟩ := hsettle j₃
  obtain ⟨j₅, hj₅, e₅⟩ := hrescale j₄
  obtain ⟨j₆, hj₆, e₆⟩ := hsolver j₅
  have hentries : j₆.log.entries = j'.log.entries ++ (atCheck ++ atReduce ++ (added ++
      (atSettle ++ atRescale ++ atSolver))).map (Diagnostic.mk invoker.name) := by
    rw [e₆, e₅, e₄, e₃, e₂, e₁]
    simp only [List.map_append, List.append_assoc]
  rw [← hentries, c.facts_eq, c.fixedViolation_eq, c.rawDimension_eq, c.rawKind_eq, c.refinedDimension_eq,
    c.refinedKind_eq]
  exact prepare_outcome (i := { i with options }) hj₁ hj₂ c.handles hj₃ hj₄ hj₅ hj₆

/-- A preparation that succeeds reaches its result from every journal, with the same reports, and also from
other options that are resolved to the same settings. Only its options are called unknown. -/
theorem prepare_results (h : (prepare search invoker i).outcome none j = (.ok r, k)) :
    ∃ n bounds s before added after, (∀ a ∈ before ++ after, a.namesUnknown = false) ∧
      (∀ a ∈ added, a.OfOptions invoker) ∧
      (resolveOptions invoker i.options n bounds).Results invoker.name s added ∧
      ∀ options added', (resolveOptions invoker options n bounds).Results invoker.name s added' →
        ∀ j', ((prepare search invoker { i with options }).outcome none j').1 = .ok { r with
          diagnostics := j'.log.entries ++ (before ++ (added' ++ after)).map (Diagnostic.mk invoker.name)
          input := if r.settings.debug then some { i with options } else none } := by
  obtain ⟨c⟩ := exists_course h
  -- each stage has reports of its own
  obtain ⟨atCheck, hcheck, hc⟩ := (check_stepwise invoker.name i).exists_results
    (check_within (A := fun a => a.namesUnknown = false) rfl _ i) c.check_eq
  obtain ⟨atReduce, hreduce, hr⟩ := (reduce_stepwise c.checked).exists_results
    (reduce_within (A := fun a => a.namesUnknown = false) invoker.name c.checked) c.reduce_eq
  obtain ⟨added, hresolve, hadded⟩ := (resolveOptions_stepwise invoker i.options c.reduced.dimension
    c.reduced.bounds).exists_results (resolveOptions_discreet invoker _ _ _) c.resolve_eq
  obtain ⟨atSettle, hsettle, hs⟩ := settleStart_results c.settle_eq
  obtain ⟨atRescale, hrescale, ha⟩ := (rescaleIfAsked_stepwise invoker.name _ _ _).exists_results
    (rescaleIfAsked_discreet invoker c.checked.facts c.settled c.resolved) c.rescale_eq
  obtain ⟨atSolver, hsolver, hv⟩ := (settleSolver_stepwise invoker _ _ _).exists_results
    (settleSolver_within invoker c.adjusted c.reduced.kind r.problem) c.solver_eq
  -- the run from `j` says whose record it is
  have hown := c.outcome_again hcheck hreduce hresolve hsettle hrescale hsolver j
  rw [h] at hown
  have hinvoker : r.invoker = invoker := congrArg Record.invoker (Except.ok.inj hown)
  refine ⟨c.reduced.dimension, c.reduced.bounds, c.resolved, atCheck ++ atReduce, added,
    atSettle ++ atRescale ++ atSolver, ?_, hadded, hresolve, ?_⟩
  · intro a hmem
    simp only [List.mem_append] at hmem
    rcases hmem with (hmem | hmem) | (hmem | hmem) | hmem
    · exact hc a hmem
    · exact hr a hmem
    · exact hs a hmem
    · rw [ha a hmem]
      rfl
    · obtain ⟨_, _, rfl⟩ := hv a hmem
      rfl
  · intro options added' hoptions j'
    rw [hinvoker]
    exact c.outcome_again hcheck hreduce hoptions hsettle hrescale hsolver j'

end

/-! ## Problems given as dictionaries -/

/-- What is reported about keys that name no part of a problem: nothing if there are none, or else all of
them in order. -/
def fieldsReport (texts : List Text) : List (Anomaly α) :=
  if texts.isEmpty then [] else [.unknownFields (texts.mergeSort fun a b => decide (a ≤ b))]

omit [Scalar α] [Interchange α] in
theorem fieldsReport_eq_of_perm {texts texts' : List Text} (h : texts.Perm texts') :
    (fieldsReport texts : List (Anomaly α)) = fieldsReport texts' := by
  rw [fieldsReport, fieldsReport, h.isEmpty_eq, sorted_eq_of_perm h]

/-- The objective of a dictionary, zero if there is none. -/
def Entries.objective (m : Entries α) : Value α :=
  if (m.part "objective").isAbsent then zeroObjective else m.part "objective"

/-- What is read has a start. -/
theorem isNone_start_of_readFields {m : Entries α} (hm : m.IsDictionary) {source : String} {i : Input α}
    {e : Option Category} {j k : Journal α} (h : (readFields source (.mapping m)).outcome e j = (.ok i, k)) :
    (Value.lookup? "x0" m.kept).isNone = false := by
  rw [readFields_eq hm] at h
  refine Bool.eq_false_iff.2 fun hnone => ?_
  rw [if_pos hnone] at h
  cases h

/-- A dictionary with a start is read part by part. -/
theorem readFields_results {m : Entries α} (hm : m.IsDictionary) (source : String)
    (hstart : (Value.lookup? "x0" m.kept).isNone = false) :
    (readFields source (.mapping m)).Results source { Input.ofParts m.kept with objective := m.kept.objective }
      ((if (m.kept.part "objective").isAbsent then [.noObjective] else []) ++
        fieldsReport (m.kept.unknown (Text.isAmong fieldKeys))) := by
  rw [readFields_eq hm, hstart, if_neg Bool.false_ne_true, Entries.objective, fieldsReport]
  cases (m.kept.part "objective").isAbsent <;> cases (m.kept.unknown (Text.isAmong fieldKeys)).isEmpty
  · exact .bind (.pure _) (.report_bind (.pure _))
  · exact .bind (.pure _) (.pure _)
  · exact .bind (.report_bind (.pure _)) (.report_bind (.pure _))
  · exact .bind (.report_bind (.pure _)) (.pure _)

/-- No entry has a key that names a part of a problem. -/
def Entries.NamesNoPart (extras : Entries α) : Prop :=
  ∀ key ∈ fieldKeys, Value.lookup? key extras = none

namespace Entries.Extends

variable (h : u.Extends extras v) (hnew : extras.NamesNoPart)

include h hnew

omit [Scalar α] [Interchange α] in
theorem part_eq {key : String} (hkey : key ∈ fieldKeys) : v.kept.part key = u.kept.part key := by
  rw [part, part, h.lookup?_kept_of_none (hnew key hkey)]

omit [Interchange α] in
theorem ofParts_eq : Input.ofParts v.kept = Input.ofParts u.kept := by
  have hpart (key : String) (hkey : key ∈ fieldKeys) := h.part_eq hnew hkey
  simp only [Input.ofParts, partOptions_eq, h.lookup?_kept_of_none (hnew "solver" (by decide)),
    hpart "objective" (by decide), hpart "x0" (by decide), hpart "Aineq" (by decide),
    hpart "bineq" (by decide), hpart "Aeq" (by decide), hpart "beq" (by decide), hpart "lb" (by decide),
    hpart "ub" (by decide), hpart "nonlcon" (by decide), hpart "options" (by decide)]

omit [Scalar α] [Interchange α] in
theorem fieldsReport_eq : (fieldsReport (v.kept.unknown (Text.isAmong fieldKeys)) : List (Anomaly α))
    = fieldsReport (unknownWith (Text.isAmong fieldKeys) u extras) := by
  refine fieldsReport_eq_of_perm (h.unknown_perm fun key hkey => ?_)
  rw [Text.isAmong, List.any_eq_false]
  intro name hname heq
  rw [← beq_iff_eq.1 heq, hnew name hname] at hkey
  cases hkey

end Entries.Extends

/-! ## Preparing -/

section

variable {search : NearestSearch α} {invoker : Invoker} {r : Record α}

/-- Options with more entries whose keys name no option prepare a problem alike. -/
theorem prepare_of_extends (h : u.Extends extras v) (hnew : extras.NamesNoOption) {i : Input α}
    (hr : (Prep.run none (prepare search invoker { i with options := .mapping u })).1 = .ok r) :
    ∃ s? log log', r.diagnostics = log.map (Diagnostic.mk invoker.name) ∧
      (Prep.run none (prepare search invoker { i with options := .mapping v })).1 = .ok { r with
        diagnostics := log'.map (Diagnostic.mk invoker.name)
        input := r.input.map fun i => { i with options := .mapping v } } ∧
      DifferAt "UnknownOption" (unknownReport (u.kept.unknown (OptionName.isKeyOf s?)))
        (unknownReport (Entries.unknownWith (OptionName.isKeyOf s?) u extras)) log log' := by
  obtain ⟨n, bounds, s, before, added, after, hothers, -, hresolve, hagain⟩ :=
    prepare_results (Prod.ext hr rfl)
  obtain ⟨k, hk, -⟩ := hresolve {}
  obtain ⟨log, log', hlog, hlog', hdiffer⟩ := resolveOptions_of_extends h hnew hk
  have hown := hagain (.mapping u) log hlog {}
  have hother := hagain (.mapping v) log' hlog' {}
  have hinput := (prepare_keeps (Prod.ext hr rfl)).2
  refine ⟨s.solver, before ++ (log ++ after), before ++ (log' ++ after), ?_, ?_, ?_⟩
  · exact congrArg Record.diagnostics (Except.ok.inj (hr.symm.trans hown))
  · refine hother.trans ?_
    rw [hinput]
    cases r.settings.debug <;> rfl
  · exact hdiffer.surround fun a ha => Anomaly.tag_ne_unknownOption (hothers a ha)

/-- A problem with more entries whose keys name no part is prepared alike. -/
theorem prepareFields_of_extends (h : u.Extends extras v) (hnew : extras.NamesNoPart)
    (hr : (Prep.run none (prepareFields search invoker (.mapping u))).1 = .ok r) :
    ∃ log log', r.diagnostics = log.map (Diagnostic.mk invoker.name) ∧
      (Prep.run none (prepareFields search invoker (.mapping v))).1 = .ok { r with
        diagnostics := log'.map (Diagnostic.mk invoker.name) } ∧
      DifferAt "UnknownProbField" (fieldsReport (u.kept.unknown (Text.isAmong fieldKeys)))
        (fieldsReport (Entries.unknownWith (Text.isAmong fieldKeys) u extras)) log log' := by
  obtain ⟨i, l, hread, hprepare⟩ := Prep.outcome_bind_eq_ok.1 (Prod.ext hr rfl :
    (prepareFields search invoker (.mapping u)).outcome none {} = (.ok r, (Prep.run none _).2))
  have hstart := isNone_start_of_readFields h.base hread
  have hresults := readFields_results h.base invoker.name hstart
  have hresults' := readFields_results h.result invoker.name
    (h.lookup?_kept_of_none (hnew "x0" (by decide)) ▸ hstart)
  rw [Entries.objective, h.part_eq hnew (by decide), ← Entries.objective, h.ofParts_eq hnew,
    h.fieldsReport_eq hnew] at hresults'
  obtain ⟨l₁, hl₁, hentries⟩ := hresults {}
  obtain ⟨l₂, hl₂, hentries'⟩ := hresults' {}
  rw [hread, Prod.mk.injEq] at hl₁
  obtain ⟨hi, rfl⟩ := hl₁
  obtain rfl := Except.ok.inj hi
  obtain ⟨n, bounds, s, before, added, after, hothers, hadded, hresolve, hagain⟩ :=
    prepare_results hprepare
  have hown := hagain _ added hresolve l
  have hother := hagain _ added hresolve l₂
  have hrun' : (Prep.run none (prepareFields search invoker (.mapping v))).1
      = ((prepare search invoker { Input.ofParts u.kept with objective := u.kept.objective }).outcome
        none l₂).1 := congrArg Prod.fst (Prep.outcome_bind_of_ok hl₂)
  rw [hentries] at hown
  rw [hentries', ← (prepare_keeps hprepare).2] at hother
  rw [hprepare] at hown
  have hdiagnostics := congrArg Record.diagnostics (Except.ok.inj hown)
  -- what reading reports comes before everything else
  let front : List (Anomaly α) := if (u.kept.part "objective").isAbsent then [.noObjective] else []
  refine ⟨front ++ (fieldsReport (u.kept.unknown (Text.isAmong fieldKeys)) ++ (before ++ (added ++ after))),
    front ++ (fieldsReport (Entries.unknownWith (Text.isAmong fieldKeys) u extras) ++
      (before ++ (added ++ after))), ?_, ?_, .intro _ _ fun a ha => ?_⟩
  · rw [hdiagnostics]
    simp [front]
  · rw [hrun', hother]
    simp [front]
  · refine Anomaly.tag_ne_unknownField fun names hnames => ?_
    subst hnames
    simp only [List.mem_append] at ha hothers
    rcases ha with ha | ha | ha | ha
    · revert ha
      simp only [front]
      split <;> simp
    · cases hothers _ (.inl ha)
    · exact hadded _ ha
    · cases hothers _ (.inr ha)

end

/-- Entries whose keys name nothing are not seen. Added to options, they change neither the settings nor
any diagnostic but the one that names unknown options, and so it is where a problem is prepared with these
options; added to a problem, they change nothing but the diagnostic that names unknown parts. These
diagnostics name the new keys whose entries are not empty, in order with the other unknown keys. -/
theorem extra_entries_ignored (search : NearestSearch α) (invoker : Invoker) (h : u.Extends extras v) :
    (extras.NamesNoOption →
      (∀ n bounds s, (Prep.run none (resolveOptions invoker (.mapping u) n bounds)).1 = .ok s →
        ∃ log log', (resolveOptions invoker (.mapping u) n bounds).Results invoker.name s log ∧
          (resolveOptions invoker (.mapping v) n bounds).Results invoker.name s log' ∧
          DifferAt "UnknownOption" (unknownReport (u.kept.unknown (OptionName.isKeyOf s.solver)))
            (unknownReport (Entries.unknownWith (OptionName.isKeyOf s.solver) u extras)) log log') ∧
      ∀ (i : Input α) r, (Prep.run none (prepare search invoker { i with options := .mapping u })).1 = .ok r →
        ∃ s? log log', r.diagnostics = log.map (Diagnostic.mk invoker.name) ∧
          (Prep.run none (prepare search invoker { i with options := .mapping v })).1 = .ok { r with
            diagnostics := log'.map (Diagnostic.mk invoker.name)
            input := r.input.map fun i => { i with options := .mapping v } } ∧
          DifferAt "UnknownOption" (unknownReport (u.kept.unknown (OptionName.isKeyOf s?)))
            (unknownReport (Entries.unknownWith (OptionName.isKeyOf s?) u extras)) log log') ∧
    (extras.NamesNoPart → ∀ r, (Prep.run none (prepareFields search invoker (.mapping u))).1 = .ok r →
      ∃ log log', r.diagnostics = log.map (Diagnostic.mk invoker.name) ∧
        (Prep.run none (prepareFields search invoker (.mapping v))).1 = .ok { r with
          diagnostics := log'.map (Diagnostic.mk invoker.name) } ∧
        DifferAt "UnknownProbField" (fieldsReport (u.kept.unknown (Text.isAmong fieldKeys)))
          (fieldsReport (Entries.unknownWith (Text.isAmong fieldKeys) u extras)) log log') := by
  refine ⟨fun hnew => ⟨fun n bounds s hs => ?_, fun i r hr => ?_⟩, fun hnew r hr => ?_⟩
  · exact resolveOptions_of_extends h hnew (Prod.ext hs rfl)
  · exact prepare_of_extends h hnew hr
  · exact prepareFields_of_extends h hnew hr

/-- Entries whose keys name nothing, one of them empty. -/
def strayEntries : Entries (Extended ℚ) := [(.text "alpha", .int 2), (.text "omega", .text "")]

/-- A problem with an unknown part. -/
def pointProblem : Entries (Extended ℚ) :=
  [(.text "x0", .list [.int 1]), (.text "zeta", .int 1)]

/-- Options all of which are known. -/
def modestOptions : Entries (Extended ℚ) := [(.text "maxfun", .int 30), (.text "rhobeg", .int 2)]

/-- The new key is named, before the one that was unknown already and alone where there was none. -/
theorem extra_entries_ignored_strayEntries :
    (∃ r log log',
      (Prep.run none (prepareFields .stay .frontEnd (.mapping pointProblem))).1 = .ok r ∧
      r.diagnostics = log.map (Diagnostic.mk "pdfo") ∧
      (Prep.run none (prepareFields .stay .frontEnd (.mapping (strayEntries ++ pointProblem)))).1
        = .ok { r with diagnostics := log'.map (Diagnostic.mk "pdfo") } ∧
      DifferAt "UnknownProbField" [.unknownFields ["zeta"]] [.unknownFields ["alpha", "zeta"]] log log') ∧
    ∃ s log log',
      (resolveOptions (.solver .uobyqa) (.mapping modestOptions) 2 (.free 2)).Results "uobyqa" s log ∧
      (resolveOptions (.solver .uobyqa) (.mapping (strayEntries ++ modestOptions)) 2 (.free 2)).Results
        "uobyqa" s log' ∧
      DifferAt "UnknownOption" [] [.unknownOptions ["alpha"]] log log' := by
  have hproblem : pointProblem.Extends strayEntries (strayEntries ++ pointProblem) :=
    Entries.IsDictionary.extends_of_perm ⟨by decide, by decide⟩ List.perm_append_comm
  have hoptions : modestOptions.Extends strayEntries (strayEntries ++ modestOptions) :=
    Entries.IsDictionary.extends_of_perm ⟨by decide, by decide⟩ List.perm_append_comm
  have hnoOption : strayEntries.NamesNoOption := fun name => by cases name <;> decide +kernel
  have hnoPart : strayEntries.NamesNoPart := by unfold Entries.NamesNoPart; decide +kernel
  constructor
  · obtain ⟨r, hr, -⟩ : ∃ r, (Prep.run none (prepareFields NearestSearch.stay .frontEnd
        (.mapping pointProblem))).1 = .ok r ∧ r.invoker = .frontEnd :=
      exists_of_toOption_map (by decide +kernel)
    obtain ⟨log, log', hlog, hr', hdiffer⟩ :=
      (extra_entries_ignored NearestSearch.stay .frontEnd hproblem).2 hnoPart r hr
    have hold : pointProblem.kept.unknown (Text.isAmong fieldKeys) = [("zeta" : Text)] := by decide +kernel
    have hnew : Entries.unknownWith (Text.isAmong fieldKeys) pointProblem strayEntries
        = [("zeta" : Text), "alpha"] := by decide +kernel
    have hsorted : ([("alpha" : Text), "zeta"].mergeSort fun a b => decide (a ≤ b)) = ["alpha", "zeta"] :=
      List.mergeSort_of_pairwise (by decide +kernel)
    rw [hold, hnew, fieldsReport_eq_of_perm (.swap ("alpha" : Text) "zeta" []), fieldsReport, fieldsReport,
      List.mergeSort_singleton, hsorted] at hdiffer
    exact ⟨r, log, log', hr, hlog, hr', hdiffer⟩
  · obtain ⟨s, hs, hsolver⟩ : ∃ s, (Prep.run none (resolveOptions (.solver .uobyqa)
        (.mapping modestOptions) 2 (.free 2))).1 = .ok s ∧ s.solver = some .uobyqa :=
      exists_of_toOption_map (by decide +kernel)
    obtain ⟨log, log', hlog, hlog', hdiffer⟩ :=
      ((extra_entries_ignored NearestSearch.stay (.solver .uobyqa) hoptions).1 hnoOption).1 2 (.free 2) s hs
    have hold : modestOptions.kept.unknown (OptionName.isKeyOf (some .uobyqa)) = [] := by decide +kernel
    have hnew : Entries.unknownWith (OptionName.isKeyOf (some .uobyqa)) modestOptions strayEntries
        = [("alpha" : Text)] := by decide +kernel
    rw [hsolver, hold, hnew, unknownReport, unknownReport, List.mergeSort_singleton] at hdiffer
    exact ⟨s, log, log', hlog, hlog', hdiffer⟩

end Presolve
