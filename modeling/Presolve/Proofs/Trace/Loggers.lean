import Presolve.Proofs.Trace.LineTemplate
import Presolve.Trace.Loggers

/-!
# Loggers stay uniform

The threshold of the loggers stands in three places: once for those to come, once in each logger and once
in each of its handlers. Three operations change these one after the other, over a list of loggers that
only grows, and two of them can fail. Whatever is asked of the loggers of the program, the three places
agree, and an operation that fails has changed nothing: what is no threshold fails with the first logger,
and there always is one.
-/

namespace Presolve.Trace

/-! ## One after the other -/

section

variable {σ : Type} {change : σ → Except Fault Unit × σ}

/-- Changes that succeed on every member change them all. -/
theorem inTurn_of_ok {g : σ → σ} (h : ∀ x, change x = (.ok (), g x)) (xs : List σ) :
    inTurn change xs = (.ok (), xs.map g) := by
  induction xs with
  | nil => rfl
  | cons x xs ih => simp only [inTurn, h, ih, List.map_cons]

/-- Changes that fail on every member and leave it alone leave the list alone, and fail with the first. -/
theorem inTurn_of_error {f : Fault} (h : ∀ x, change x = (.error f, x)) {xs : List σ} (hxs : xs ≠ []) :
    inTurn change xs = (.error f, xs) := by
  cases xs with
  | nil => exact absurd rfl hxs
  | cons x xs => simp only [inTurn, h]

end

/-! ## What a change does -/

namespace Logger

/-- The logger and its handlers with another threshold. -/
def withThreshold (threshold : Level) (l : Logger) : Logger :=
  { l with threshold, handlers := l.handlers.map fun h => { h with threshold } }

/-- The logger with one handler in place of its own. -/
def withHandler (threshold : Level) (template : LineTemplate) (l : Logger) : Logger :=
  { l with threshold, handlers := [⟨threshold, template⟩] }

theorem setThreshold_ok (threshold : Level) (l : Logger) :
    l.setThreshold (.ok threshold) = (.ok (), l.withThreshold threshold) := by
  have h : inTurn (Handler.setThreshold (.ok threshold)) l.handlers
      = (.ok (), l.handlers.map fun h => { h with threshold }) := inTurn_of_ok (fun _ => rfl) _
  simp only [setThreshold, h, withThreshold]

theorem setThreshold_error (f : Fault) (l : Logger) : l.setThreshold (.error f) = (.error f, l) := rfl

theorem setHandler_ok (threshold : Level) (template : LineTemplate) (l : Logger) :
    l.setHandler (.ok threshold) template = (.ok (), l.withHandler threshold template) := rfl

theorem setHandler_error (f : Fault) (template : LineTemplate) (l : Logger) :
    l.setHandler (.error f) template = (.error f, l) := rfl

end Logger

namespace Loggers

variable {α : Type} {ls : Loggers}

/-- A change that succeeds on every logger sets the threshold of those to come. -/
theorem change_of_ok {threshold : Level} {change : Logger → Except Fault Unit × Logger}
    {g : Logger → Logger} (h : ∀ l, change l = (.ok (), g l)) :
    ls.change (.ok threshold) change = (.ok (), ⟨threshold, ls.all.map g⟩) := by
  simp only [Loggers.change, inTurn_of_ok h]

/-- A change that fails on every logger leaves the loggers alone, if there is one to fail with. -/
theorem change_of_error {f : Fault} {change : Logger → Except Fault Unit × Logger}
    (h : ∀ l, change l = (.error f, l)) (hls : ls.all ≠ []) :
    ls.change (.error f) change = (.error f, ls) := by
  simp only [Loggers.change, inTurn_of_error h hls]

/-- Setting the threshold sets it everywhere or, if it is none, nowhere. -/
theorem changeThreshold_eq (hls : ls.all ≠ []) (level : Value α) :
    ls.changeThreshold level = match Level.thresholdOfValue level with
      | .ok threshold => (.ok (), ⟨threshold, ls.all.map (Logger.withThreshold threshold)⟩)
      | .error f => (.error f, ls) := by
  unfold changeThreshold
  cases Level.thresholdOfValue level with
  | ok threshold => exact change_of_ok (Logger.setThreshold_ok threshold)
  | error f => exact change_of_error (Logger.setThreshold_error f) hls

/-- Setting the template replaces the handlers everywhere or, if the template or the threshold is none,
nowhere. -/
theorem changeTemplate_eq [Scalar α] (hls : ls.all ≠ []) (level template : Value α) :
    ls.changeTemplate level template =
      match LineTemplate.ofValue template, Level.thresholdOfValue level with
      | .ok template, .ok threshold =>
        (.ok (), ⟨threshold, ls.all.map (Logger.withHandler threshold template)⟩)
      | .ok _, .error f => (.error f, ls)
      | .error f, _ => (.error f, ls) := by
  unfold changeTemplate
  cases LineTemplate.ofValue template with
  | error f => rfl
  | ok template =>
    cases Level.thresholdOfValue level with
    | ok threshold => exact change_of_ok (Logger.setHandler_ok threshold template)
    | error f => exact change_of_error (Logger.setHandler_error f template) hls

end Loggers

/-! ## Calls -/

/-- What can be asked of the loggers. -/
inductive Call (α : Type) where
  | request (name : Value α)
  | setThreshold (level : Value α)
  | configure (level template : Value α)

namespace Call

variable {α : Type} [Scalar α]

/-- What a call results in: the logger that it asks for, or a fault, and the loggers from then on. -/
def run (ls : Loggers) : Call α → Except Fault (Option Logger) × Loggers
  | request name =>
    match ls.request name with
    | .ok (l, ls) => (.ok (some l), ls)
    | .error f => (.error f, ls)
  | setThreshold level => ((ls.changeThreshold level).1.map fun _ => none, (ls.changeThreshold level).2)
  | configure level template =>
    ((ls.changeTemplate level template).1.map fun _ => none, (ls.changeTemplate level template).2)

/-- The template that a call sets, if it does not fail. -/
def template? : Call α → Option LineTemplate
  | configure level template =>
    match LineTemplate.ofValue template, Level.thresholdOfValue level with
    | .ok template, .ok _ => some template
    | _, _ => none
  | _ => none

end Call

namespace Loggers

variable {α : Type} [Scalar α]

/-- The loggers after calls, some of which may fail. -/
def after (ls : Loggers) (calls : List (Call α)) : Loggers :=
  calls.foldl (fun ls call => (call.run ls).2) ls

theorem after_cons (ls : Loggers) (call : Call α) (calls : List (Call α)) :
    ls.after (call :: calls) = (call.run ls).2.after calls := rfl

theorem after_append (ls : Loggers) (calls more : List (Call α)) :
    ls.after (calls ++ more) = (ls.after calls).after more := List.foldl_append

end Loggers

/-! ## Uniform loggers -/

/-- A logger has one handler, both have the threshold, and no lines are handed on. -/
structure Logger.IsUniform (templates : LineTemplate → Prop) (threshold : Level) (l : Logger) : Prop where
  threshold_eq : l.threshold = threshold
  handlers_eq : ∃ template, templates template ∧ l.handlers = [⟨threshold, template⟩]
  propagates_eq : l.propagates = false

namespace Logger.IsUniform

variable {templates : LineTemplate → Prop} {threshold : Level} {l : Logger}

theorem fresh (h : templates .standard) (name : Text) :
    (Logger.fresh threshold name).IsUniform templates threshold :=
  ⟨rfl, ⟨.standard, h, rfl⟩, rfl⟩

theorem withThreshold (h : l.IsUniform templates threshold) (other : Level) :
    (l.withThreshold other).IsUniform templates other := by
  obtain ⟨template, htemplate, hhandlers⟩ := h.handlers_eq
  refine ⟨rfl, ⟨template, htemplate, ?_⟩, h.propagates_eq⟩
  simp only [Logger.withThreshold, hhandlers, List.map_cons, List.map_nil]

theorem withHandler (h : l.IsUniform templates threshold) (other : Level) {template : LineTemplate}
    (htemplate : templates template) : (l.withHandler other template).IsUniform templates other :=
  ⟨rfl, ⟨template, htemplate, rfl⟩, h.propagates_eq⟩

/-- A uniform logger with a threshold of its own shows nothing below it. -/
theorem lines_of_lt (h : l.IsUniform templates threshold) (hthreshold : 1 ≤ threshold.number)
    {level : Level} (hlevel : level.number < threshold.number) (around : Surroundings) (message : Text) :
    l.lines around level message = .ok [] := by
  have hpasses : l.passes level.number = false := by
    rw [passes, limit, h.threshold_eq, if_neg (by omega), Bool.and_eq_false_iff]
    exact .inr (decide_eq_false (by omega))
  rw [lines, hpasses]
  rfl

/-- A uniform logger with a threshold of its own shows what reaches it as one line, if its templates suit
the entry. -/
theorem exists_lines (h : l.IsUniform templates threshold) (hthreshold : 1 ≤ threshold.number)
    {level : Level} (hlevel : threshold.number ≤ level.number)
    (hwritable : Decimal.isWritable level.number = true) {around : Surroundings} {message : Text}
    (hsuits : ∀ template, templates template → template.suits around ⟨l.name, level, message⟩ = true) :
    ∃ line, l.lines around level message = .ok [line] := by
  obtain ⟨template, htemplate, hhandlers⟩ := h.handlers_eq
  obtain ⟨line, hline⟩ := LineTemplate.exists_line? (hsuits template htemplate)
  have hpasses : l.passes level.number = true := by
    rw [passes, limit, h.threshold_eq, if_neg (by omega), Bool.and_eq_true]
    exact ⟨decide_eq_true (by omega), decide_eq_true hlevel⟩
  refine ⟨line, ?_⟩
  rw [lines, hpasses, hwritable, hhandlers]
  simp [hlevel, hline]

end Logger.IsUniform

namespace Loggers

variable {α : Type} {templates : LineTemplate → Prop} {ls : Loggers}

/-- The names of loggers, in the order in which these were made. -/
def names (ls : Loggers) : List Text := ls.all.map Logger.name

/-- The place of the logger of a name. -/
def place? (ls : Loggers) (name : Text) : Option Nat := ls.names.findIdx? (· == name)

/-- There are loggers, no two of one name, and all are uniform with the threshold of those to come. -/
structure AreUniform (templates : LineTemplate → Prop) (ls : Loggers) : Prop where
  forall_isUniform : ∀ l ∈ ls.all, l.IsUniform templates ls.threshold
  nodup_names : ls.names.Nodup
  ne_nil : ls.all ≠ []

namespace AreUniform

theorem initial (h : templates .standard) : initial.AreUniform templates where
  forall_isUniform l hl := by
    obtain ⟨name, -, rfl⟩ := List.mem_map.1 hl
    exact .fresh h _
  nodup_names := by decide +kernel
  ne_nil := by decide +kernel

/-- Changes of all loggers that keep their names keep them uniform. -/
theorem map (h : ls.AreUniform templates) {threshold : Level} {g : Logger → Logger}
    (hname : ∀ l, (g l).name = l.name)
    (hg : ∀ l ∈ ls.all, (g l).IsUniform templates threshold) :
    AreUniform templates ⟨threshold, ls.all.map g⟩ where
  forall_isUniform l hl := by
    obtain ⟨before, hbefore, rfl⟩ := List.mem_map.1 hl
    exact hg before hbefore
  nodup_names := by
    have hnames : (ls.all.map g).map Logger.name = ls.names := by
      simp only [names, List.map_map, Function.comp_def, hname]
    show ((ls.all.map g).map Logger.name).Nodup
    rw [hnames]
    exact h.nodup_names
  ne_nil := by simpa using h.ne_nil

end AreUniform

/-! ### Requests -/

/-- A request asks for the logger of the name that the value stands for. -/
theorem request_eq_ok {v : Value α} {l : Logger} {ls' : Loggers} :
    ls.request v = .ok (l, ls') ↔ ∃ name, nameOfValue v = .ok name ∧ ls.named name = (l, ls') := by
  unfold request
  cases nameOfValue v <;> simp [bind, Except.bind, pure, Except.pure]

/-- The logger of a name is there already, or comes after all others. -/
theorem named_cases (ls : Loggers) (name : Text) :
    (∃ l ∈ ls.all, l.name = name ∧ ls.named name = (l, ls)) ∨
    name ∉ ls.names ∧ ls.named name =
      (.fresh ls.threshold name, { ls with all := ls.all ++ [.fresh ls.threshold name] }) := by
  unfold named
  cases hfind : ls.find? name with
  | some l =>
    have hname := List.find?_some hfind
    exact .inl ⟨l, List.mem_of_find?_eq_some hfind, beq_iff_eq.1 hname, rfl⟩
  | none =>
    refine .inr ⟨?_, rfl⟩
    intro hmem
    obtain ⟨l, hl, rfl⟩ := List.mem_map.1 hmem
    exact absurd (List.find?_eq_none.1 hfind l hl) (by simp)

/-- A request keeps the loggers uniform and those that are there in their places, and its logger has the
name and is among them from then on. -/
theorem AreUniform.named (h : ls.AreUniform templates) (hstandard : templates .standard) (name : Text)
    {l : Logger} {ls' : Loggers} (hnamed : ls.named name = (l, ls')) :
    ls'.AreUniform templates ∧ ls.names <+: ls'.names ∧ ls'.threshold = ls.threshold ∧ l ∈ ls'.all ∧
      l.name = name := by
  rcases ls.named_cases name with ⟨found, hfound, hname, heq⟩ | ⟨hnew, heq⟩
  · rw [heq, Prod.mk.injEq] at hnamed
    obtain ⟨rfl, rfl⟩ := hnamed
    exact ⟨h, List.prefix_rfl, rfl, hfound, hname⟩
  · rw [heq, Prod.mk.injEq] at hnamed
    obtain ⟨rfl, rfl⟩ := hnamed
    have hnames : names { ls with all := ls.all ++ [.fresh ls.threshold name] } = ls.names ++ [name] :=
      List.map_append
    refine ⟨⟨?_, ?_, by simp⟩, ?_, rfl, by simp, rfl⟩
    · intro l hl
      rcases List.mem_append.1 hl with hl | hl
      · exact h.forall_isUniform l hl
      · rw [List.mem_singleton.1 hl]
        exact .fresh hstandard name
    · rw [hnames, List.nodup_append]
      refine ⟨h.nodup_names, List.pairwise_singleton _ name, ?_⟩
      intro a ha b hb hab
      rw [List.mem_singleton.1 hb] at hab
      exact hnew (hab ▸ ha)
    · rw [hnames]
      exact List.prefix_append _ _

/-- The logger of a name that is there is found, and nothing changes. -/
theorem named_of_mem {name : Text} (h : name ∈ ls.names) :
    ∃ l ∈ ls.all, l.name = name ∧ ls.named name = (l, ls) := by
  rcases ls.named_cases name with hfound | ⟨hnew, -⟩
  · exact hfound
  · exact absurd h hnew

/-- Loggers that keep their places have the same places. -/
theorem place?_of_grown {ls' : Loggers} (h : ls.names <+: ls'.names) {name : Text}
    (hname : name ∈ ls.names) : ls'.place? name = ls.place? name := by
  obtain ⟨more, hmore⟩ := h
  unfold place?
  rw [← hmore, List.findIdx?_append]
  cases hplace : ls.names.findIdx? (· == name) with
  | some k => rfl
  | none => exact absurd (List.findIdx?_eq_none_iff.1 hplace name hname) (by simp)

/-- A name outside of the root stands for the one under it. -/
theorem nameOfValue_under_root {s : Text} (h : ¬s.startsWith root = true) :
    nameOfValue (.text s : Value α) = nameOfValue (.text (root ++ "." ++ s) : Value α) := by
  have hunder : Text.startsWith (root ++ "." ++ s) root = true := by
    rw [Text.startsWith, List.isPrefixOf_iff_prefix, Text.append_assoc]
    exact List.prefix_append _ _
  show Except.ok (fullName s) = Except.ok (fullName (root ++ "." ++ s))
  rw [fullName, if_neg h, fullName, if_pos hunder]

/-! ### Runs -/

variable [Scalar α]

/-- A call that fails has changed nothing. -/
theorem run_of_error (h : ls.all ≠ []) {call : Call α} {f : Fault} (hcall : (call.run ls).1 = .error f) :
    (call.run ls).2 = ls := by
  cases call with
  | request name =>
    simp only [Call.run] at hcall ⊢
    cases hrequest : ls.request name with
    | ok found =>
      rw [hrequest] at hcall
      cases hcall
    | error f => rfl
  | setThreshold level =>
    simp only [Call.run, changeThreshold_eq h] at hcall ⊢
    cases hlevel : Level.thresholdOfValue level with
    | ok threshold =>
      rw [hlevel] at hcall
      cases hcall
    | error f => rfl
  | configure level template =>
    simp only [Call.run, changeTemplate_eq h] at hcall ⊢
    cases htemplate : LineTemplate.ofValue template with
    | error f => rfl
    | ok t =>
      cases hlevel : Level.thresholdOfValue level with
      | ok threshold =>
        rw [htemplate, hlevel] at hcall
        cases hcall
      | error f => rfl

/-- A call keeps the loggers uniform, and those that are there in their places. -/
theorem AreUniform.run (h : ls.AreUniform templates) (hstandard : templates .standard) (call : Call α)
    (htemplates : ∀ t, call.template? = some t → templates t) :
    (call.run ls).2.AreUniform templates ∧ ls.names <+: (call.run ls).2.names := by
  have hfailed (f : Fault) (hf : (call.run ls).1 = .error f) :
      (call.run ls).2.AreUniform templates ∧ ls.names <+: (call.run ls).2.names := by
    rw [run_of_error h.ne_nil hf]
    exact ⟨h, List.prefix_rfl⟩
  -- a call that fails changes nothing, so that one case is left for each kind of call
  cases call with
  | request v =>
    cases hrequest : ls.request v with
    | error f => exact hfailed f (by simp only [Call.run, hrequest])
    | ok found =>
      obtain ⟨l, ls'⟩ := found
      obtain ⟨name, -, hnamed⟩ := request_eq_ok.1 hrequest
      obtain ⟨huniform, hgrown, -⟩ := h.named hstandard name hnamed
      simp only [Call.run, hrequest]
      exact ⟨huniform, hgrown⟩
  | setThreshold level =>
    cases hlevel : Level.thresholdOfValue level with
    | error f => exact hfailed f (by simp only [Call.run, changeThreshold_eq h.ne_nil, hlevel]; rfl)
    | ok threshold =>
      simp only [Call.run, changeThreshold_eq h.ne_nil, hlevel]
      refine ⟨h.map (fun _ => rfl) fun l hl => (h.forall_isUniform l hl).withThreshold threshold, ?_⟩
      simp [names, Logger.withThreshold, Function.comp_def]
  | configure level template =>
    cases htemplate : LineTemplate.ofValue template with
    | error f => exact hfailed f (by simp only [Call.run, changeTemplate_eq h.ne_nil, htemplate]; rfl)
    | ok t =>
      cases hlevel : Level.thresholdOfValue level with
      | error f =>
        exact hfailed f (by simp only [Call.run, changeTemplate_eq h.ne_nil, htemplate, hlevel]; rfl)
      | ok threshold =>
        have ht : templates t := htemplates t (by simp only [Call.template?, htemplate, hlevel])
        simp only [Call.run, changeTemplate_eq h.ne_nil, htemplate, hlevel]
        refine ⟨h.map (fun _ => rfl) fun l hl => (h.forall_isUniform l hl).withHandler threshold ht, ?_⟩
        simp [names, Logger.withHandler, Function.comp_def]

/-- Calls keep the loggers uniform, and those that are there in their places. -/
theorem AreUniform.after (h : ls.AreUniform templates) (hstandard : templates .standard)
    (calls : List (Call α)) (htemplates : ∀ call ∈ calls, ∀ t, call.template? = some t → templates t) :
    (ls.after calls).AreUniform templates ∧ ls.names <+: (ls.after calls).names := by
  induction calls generalizing ls with
  | nil => exact ⟨h, List.prefix_rfl⟩
  | cons call calls ih =>
    obtain ⟨hstep, hgrown⟩ := h.run hstandard call (htemplates call List.mem_cons_self)
    obtain ⟨hrest, hgrown'⟩ := ih hstep fun call hcall => htemplates call (List.mem_cons_of_mem _ hcall)
    exact ⟨hrest, hgrown.trans hgrown'⟩

/-! ### The loggers of the program -/

/-- The standard template and those that calls set. -/
def TemplateOf (calls : List (Call α)) (t : LineTemplate) : Prop :=
  t = .standard ∨ ∃ call ∈ calls, call.template? = some t

/-- What holds of the loggers of the program after calls. -/
structure AreSteadyAfter (calls : List (Call α)) : Prop where
  /-- All have the threshold and one handler with it, and hand nothing on. -/
  uniform : ∀ l ∈ (initial.after calls).all,
    l.IsUniform (TemplateOf calls) (initial.after calls).threshold
  /-- A logger that is asked for, which may be a new one, has the threshold as well. -/
  requested : ∀ (v : Value α) l ls, (initial.after calls).request v = .ok (l, ls) →
    l.IsUniform (TemplateOf calls) (initial.after calls).threshold ∧ l ∈ ls.all ∧
      ls.threshold = (initial.after calls).threshold
  /-- A logger that was asked for is there, in its place, and asking for it again changes nothing. -/
  handedOut : ∀ before (v : Value α) rest l ls, calls = before ++ .request v :: rest →
    (initial.after before).request v = .ok (l, ls) →
    ∃ l' ∈ (initial.after calls).all, l'.name = l.name ∧
      (initial.after calls).request v = .ok (l', initial.after calls) ∧
      (initial.after calls).place? l'.name = ls.place? l.name
  /-- A name outside of the root asks for the same logger as the name under the root. -/
  prefixed : ∀ s : Text, ¬s.startsWith root = true →
    (initial.after calls).request (.text s : Value α)
      = (initial.after calls).request (.text (root ++ "." ++ s) : Value α)
  /-- A call that fails changes nothing. -/
  failed : ∀ (call : Call α) f, (call.run (initial.after calls)).1 = .error f →
    (call.run (initial.after calls)).2 = initial.after calls
  /-- Nothing is shown below the threshold. -/
  silent : 1 ≤ (initial.after calls).threshold.number → ∀ l ∈ (initial.after calls).all,
    ∀ level : Level, level.number < (initial.after calls).threshold.number → ∀ around message,
      l.lines around level message = .ok []
  /-- What reaches the threshold is shown as one line, if the templates that were set suit the entry. -/
  shown : 1 ≤ (initial.after calls).threshold.number → ∀ l ∈ (initial.after calls).all,
    ∀ level : Level, (initial.after calls).threshold.number ≤ level.number →
    Decimal.isWritable level.number = true → ∀ (around : Surroundings) message,
    (∀ call ∈ calls, ∀ t, call.template? = some t →
      t.suits around ⟨l.name, level, message⟩ = true) →
      ∃ line, l.lines around level message = .ok [line]

/-- After calls of any number and kind, some of which may fail, the loggers of the program are uniform. -/
theorem initial_areUniform_after (calls : List (Call α)) :
    (initial.after calls).AreUniform (TemplateOf calls) :=
  ((AreUniform.initial (.inl rfl)).after (.inl rfl) calls
    fun call hcall _ ht => .inr ⟨call, hcall, ht⟩).1

/-- A logger that was asked for is found in its place after more calls. -/
theorem AreUniform.request_again (h : ls.AreUniform templates) (hstandard : templates .standard)
    {v : Value α} {l : Logger} {ls' : Loggers} (hrequest : ls.request v = .ok (l, ls'))
    (more : List (Call α)) (htemplates : ∀ call ∈ more, ∀ t, call.template? = some t → templates t) :
    ∃ l' ∈ (ls'.after more).all, l'.name = l.name ∧
      (ls'.after more).request v = .ok (l', ls'.after more) ∧
      (ls'.after more).place? l'.name = ls'.place? l.name := by
  obtain ⟨name, hname, hnamed⟩ := request_eq_ok.1 hrequest
  obtain ⟨huniform, -, -, hmem, hl⟩ := h.named hstandard name hnamed
  have hthere : name ∈ ls'.names := hl ▸ List.mem_map_of_mem hmem
  obtain ⟨-, hgrown⟩ := huniform.after hstandard more htemplates
  obtain ⟨l', hl', hname', hagain⟩ := named_of_mem (hgrown.subset hthere)
  refine ⟨l', hl', hname'.trans hl.symm, request_eq_ok.2 ⟨name, hname, hagain⟩, ?_⟩
  rw [hname', hl]
  exact place?_of_grown hgrown hthere

/-- Whatever is asked of the loggers of the program, they stay uniform, keep their places, and show
messages from their common threshold on. -/
theorem initial_areSteadyAfter (calls : List (Call α)) : AreSteadyAfter calls := by
  have huniform := initial_areUniform_after calls
  constructor
  case uniform => exact huniform.forall_isUniform
  case requested =>
    intro v l ls hrequest
    obtain ⟨name, -, hnamed⟩ := request_eq_ok.1 hrequest
    obtain ⟨hafter, -, hthreshold, hl, -⟩ := huniform.named (.inl rfl) name hnamed
    exact ⟨hthreshold ▸ hafter.forall_isUniform l hl, hl, hthreshold⟩
  case handedOut =>
    rintro before v rest l ls rfl hrequest
    have hsplit : initial.after (before ++ .request v :: rest) = ls.after rest := by
      rw [after_append, after_cons, Call.run, hrequest]
    have hbefore : (initial.after before).AreUniform (TemplateOf (before ++ .request v :: rest)) :=
      ((AreUniform.initial (.inl rfl)).after (.inl rfl) before
        fun call hcall _ ht => .inr ⟨call, List.mem_append_left _ hcall, ht⟩).1
    rw [hsplit]
    exact hbefore.request_again (.inl rfl) hrequest rest
      fun call hcall _ ht => .inr ⟨call, by simp [hcall], ht⟩
  case prefixed =>
    intro s h
    unfold request
    rw [nameOfValue_under_root h]
  case failed => exact fun call f hf => run_of_error huniform.ne_nil hf
  case silent =>
    intro hthreshold l hl level hlevel
    exact (huniform.forall_isUniform l hl).lines_of_lt hthreshold hlevel
  case shown =>
    intro hthreshold l hl level hlevel hwritable around message hsuits
    refine (huniform.forall_isUniform l hl).exists_lines hthreshold hlevel hwritable ?_
    rintro t (rfl | ⟨call, hcall, ht⟩)
    · exact LineTemplate.suits_standard around _
    · exact hsuits call hcall t ht

/-- A template of standard fields can be accepted and still make no line, here since it asks for the digits
of the message. A level that is no integer is refused by the logger. -/
theorem template_without_line :
    let calls : List (Call Float) := [.configure (.text "DEBUG") (.text "%(message)d")]
    (∀ call ∈ calls, ∃ t, call.template? = some t ∧ t.isStandard = true) ∧
      (initial.after calls).threshold.number = 10 ∧ (initial.after calls).all ≠ [] ∧
      (∀ l ∈ (initial.after calls).all, ∀ around message,
        l.lines around (Level.ofInt 10) message = .ok []) ∧
      ∀ message, ((initial.after calls).write (.text "late") (.real 15.5) message).1
        = .error .wrongType := by
  intro calls
  have hafter : initial.after calls = ⟨Level.ofInt 10,
      initial.all.map (Logger.withHandler (Level.ofInt 10) ⟨"%(message)d"⟩)⟩ := by decide +kernel
  have hparts : LineTemplate.parts? ⟨"%(message)d"⟩
      = some [.field "message" ⟨[], 0, none⟩ (.char 'd')] := by decide +kernel
  have htemplate : Call.template? (.configure (.text "DEBUG") (.text "%(message)d") : Call Float)
      = some ⟨"%(message)d"⟩ := by decide +kernel
  have hline (around : Surroundings) (e : Entry) :
      LineTemplate.line? ⟨"%(message)d"⟩ around e = none := by
    simp [LineTemplate.line?, hparts, Piece.render?, Entry.field?, Entry.own?, FieldLayout.ofText?]
  refine ⟨?_, by rw [hafter]; rfl, by rw [hafter]; decide +kernel, ?_, ?_⟩
  · intro call hcall
    rw [List.mem_singleton.1 hcall]
    refine ⟨_, htemplate, ?_⟩
    rw [LineTemplate.isStandard, hparts]
    decide +kernel
  · intro l hl around message
    rw [hafter] at hl
    obtain ⟨before, -, rfl⟩ := List.mem_map.1 hl
    have hwritable : Decimal.isWritable (Level.ofInt 10).number = true :=
      Decimal.isWritable_of_lt 2 (by decide) (by decide)
    simp [Logger.lines, Logger.passes, Logger.limit, Logger.withHandler, hwritable, hline]
  · intro message
    rfl

/-- A name that is no threshold leaves the threshold as it was, and a later logger starts from there. -/
example : ((initial.after ([.setThreshold (.text "debug"), .setThreshold (.text "basic_format"),
    .request (.text "late")] : List (Call Float))).all.map fun l => (l.name, l.threshold.number)).getLast?
      = some (("dfo_prep.late" : Text), 10) := by decide +kernel

end Loggers

end Presolve.Trace
