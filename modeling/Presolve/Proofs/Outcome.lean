import Presolve.Diagnostic.Journal

/-!
# What a preparation results in

A preparation is a function of the category that the caller escalates and of the journal so far. This
file takes such functions apart, so that a statement about a whole preparation follows from one about
each of its steps:

* `outcome`, the result of a preparation together with the journal that it leaves;
* `Yields`, the results that a preparation can end with when the journal does not matter;
* `Within`, which anomalies a preparation can add to the log and which faults it can end in;
* `FailsOnly`, which faults it can end in where the caller escalates no warning.

The last three have one rule for each way to build a preparation, so a proof about a step has the shape of
the step.
-/

namespace Presolve

/-! ## Results without a journal -/

section

variable {ε β γ : Type}

theorem bind_eq_ok {x : Except ε β} {f : β → Except ε γ} {c : γ} :
    x >>= f = .ok c ↔ ∃ b, x = .ok b ∧ f b = .ok c := by
  cases x <;> simp [bind, Except.bind]

theorem pure_eq_ok {b c : β} : (pure b : Except ε β) = .ok c ↔ b = c := by
  simp [pure, Except.pure]

theorem map_eq_ok {x : Except ε β} {f : β → γ} {c : γ} :
    x.map f = .ok c ↔ ∃ b, x = .ok b ∧ f b = c := by
  cases x <;> simp [Except.map]

/-- A result is known as far as one knows what a function makes of it. -/
theorem exists_of_toOption_map {x : Except ε β} {f : β → γ} {c : γ}
    (h : x.toOption.map f = some c) : ∃ b, x = .ok b ∧ f b = c := by
  cases x with
  | error e => cases h
  | ok b => exact ⟨b, rfl, Option.some.inj h⟩

theorem eq_ok_of_toOption {x : Except ε β} {b : β} (h : x.toOption = some b) : x = .ok b := by
  cases x with
  | error e => cases h
  | ok c => exact congrArg _ (Option.some.inj h)

/-- The fault that a computation ends in. -/
def fault? (x : Except ε β) : Option ε :=
  match x with
  | .error e => some e
  | .ok _ => none

theorem fault?_eq_some {x : Except ε β} {e : ε} : fault? x = some e ↔ x = .error e := by
  cases x <;> simp [fault?]

theorem bind_eq_error {x : Except ε β} {f : β → Except ε γ} {e : ε} :
    x >>= f = .error e ↔ x = .error e ∨ ∃ b, x = .ok b ∧ f b = .error e := by
  cases x <;> simp [bind, Except.bind]

theorem map_eq_error {x : Except ε β} {f : β → γ} {e : ε} :
    x.map f = .error e ↔ x = .error e := by
  cases x <;> simp [Except.map]

/-- A computation ends only in faults `e` with `F e`. -/
def FaultsOnly (F : ε → Prop) (x : Except ε β) : Prop := ∀ e, x = .error e → F e

namespace FaultsOnly

variable {F : ε → Prop} {x : Except ε β} {f : β → Except ε γ}

theorem ok (b : β) : FaultsOnly F (.ok b) := fun _ h => nomatch h

/-- A computation that has a result does not fail. -/
theorem of_ok (h : ∃ b, x = .ok b) : FaultsOnly F x := by
  obtain ⟨b, rfl⟩ := h
  exact ok b

theorem error {e : ε} (h : F e) : FaultsOnly F (.error e : Except ε β) := by
  intro e' he'
  cases he'
  exact h

/-- The second of two computations is only made with results of the first one. -/
theorem bind (hx : FaultsOnly F x) (hf : ∀ b, x = .ok b → FaultsOnly F (f b)) :
    FaultsOnly F (x >>= f) := by
  intro e he
  rcases bind_eq_error.1 he with h | ⟨b, hb, h⟩
  · exact hx e h
  · exact hf b hb e h

theorem map (hx : FaultsOnly F x) (g : β → γ) : FaultsOnly F (x.map g) :=
  fun e he => hx e (map_eq_error.1 he)

/-- A computation that cannot fail has a result. -/
theorem exists_ok (h : FaultsOnly (fun _ => False) x) : ∃ b, x = .ok b := by
  cases x with
  | error e => exact (h e rfl).elim
  | ok b => exact ⟨b, rfl⟩

end FaultsOnly

end

namespace Prep

variable {α β γ : Type}

/-! ## Outcomes -/

/-- The result of a preparation and the journal it leaves, given the category that is escalated and the
journal so far. -/
def outcome (p : Prep α β) (e : Option Category) (j : Journal α) : Except Fault β × Journal α :=
  (ReaderT.run p e).run.run j

variable {p : Prep α β} {f : β → Prep α γ} {e : Option Category} {j k : Journal α}

@[simp] theorem outcome_pure (b : β) : (pure b : Prep α β).outcome e j = (.ok b, j) := rfl

theorem lift_ok (b : β) : (liftM (Except.ok b : Except Fault β) : Prep α β) = pure b := rfl

/-- What comes after a step that is taken only sometimes may move into both branches. -/
theorem step_bind {c : Prop} [Decidable c] (s : Prep α Unit) (b : β) (f : β → Prep α γ) :
    ((if c then s >>= fun _ => pure b else pure b) >>= f) = if c then s >>= fun _ => f b else f b := by
  split
  · rw [bind_assoc]
    rfl
  · rfl

@[simp] theorem outcome_lift (x : Except Fault β) : (liftM x : Prep α β).outcome e j = (x, j) := rfl

@[simp] theorem outcome_throw (x : Fault) : (throw x : Prep α β).outcome e j = (.error x, j) := rfl

@[simp] theorem outcome_leave (v : Event α) :
    (leave v).outcome e j = (.ok (), { j with trace := j.trace ++ [v] }) := rfl

@[simp] theorem outcome_diagnostics :
    (diagnostics : Prep α _).outcome e j = (.ok j.log.entries, j) := rfl

theorem outcome_report [Interchange α] (source : String) (a : Anomaly α) :
    (report source a).outcome e j =
      ((j.log.add false e ⟨source, a⟩).1,
        ⟨(j.log.add false e ⟨source, a⟩).2, j.trace ++ [.reported ⟨source, a⟩]⟩) := rfl

theorem outcome_bind :
    (p >>= f).outcome e j = match p.outcome e j with
      | (.ok b, l) => (f b).outcome e l
      | (.error x, l) => (.error x, l) := by
  -- down through the three layers of the monad to functions of the escalated category and the journal
  simp only [outcome, ReaderT.run, bind, ReaderT.bind, ExceptT.run, ExceptT.bind, ExceptT.bindCont,
    ExceptT.mk, StateT.run, StateT.bind]
  rcases p e j with ⟨_ | _, _⟩ <;> rfl

/-- What is made of a result afterwards leaves the journal as it is. -/
theorem run_map (e : Option Category) (g : β → γ) (p : Prep α β) :
    run e (g <$> p) = ((run e p).1.map g, (run e p).2) := by
  show (g <$> p).outcome e {} = ((p.outcome e {}).1.map g, (p.outcome e {}).2)
  rw [← bind_pure_comp, outcome_bind]
  rcases p.outcome e {} with ⟨_ | _, _⟩ <;> rfl

/-- A preparation in two steps succeeds if both do, the second from the journal that the first one
left. -/
theorem outcome_bind_eq_ok {c : γ} :
    (p >>= f).outcome e j = (.ok c, k) ↔
      ∃ b l, p.outcome e j = (.ok b, l) ∧ (f b).outcome e l = (.ok c, k) := by
  rw [outcome_bind]
  rcases p.outcome e j with ⟨_ | b, l⟩
  · simp
  · constructor
    · intro h
      exact ⟨b, l, rfl, h⟩
    · rintro ⟨b', l', h, h'⟩
      cases h
      exact h'

/-- After a step that succeeds, the outcome is that of the rest. -/
theorem outcome_bind_of_ok {b : β} {l : Journal α} (h : p.outcome e j = (.ok b, l)) :
    (p >>= f).outcome e j = (f b).outcome e l := by
  rw [outcome_bind, h]

/-- A preparation that ends in its first step. -/
theorem outcome_bind_of_error {x : Fault} {l : Journal α} (h : p.outcome e j = (.error x, l)) :
    (p >>= f).outcome e j = (.error x, l) := by
  rw [outcome_bind, h]

/-- Where a preparation would be ended by a fault it does not succeed. -/
theorem outcome_of_guard {c : Prop} [Decidable c] {x : Fault} {g : Unit → Prep α γ} {b : γ}
    (h : (if c then throw x >>= g else g ()).outcome e j = (.ok b, k)) :
    ¬c ∧ (g ()).outcome e j = (.ok b, k) := by
  split at h
  · -- ended by the fault, which is no result
    obtain ⟨_, _, hx, -⟩ := outcome_bind_eq_ok.1 h
    cases hx
  · exact ⟨‹_›, h⟩

/-! ## Possible results -/

/-- Some run of the preparation results in `b`. -/
def Yields (p : Prep α β) (b : β) : Prop := ∃ e j k, p.outcome e j = (.ok b, k)

theorem yields_of_outcome {b : β} (h : p.outcome e j = (.ok b, k)) : p.Yields b := ⟨e, j, k, h⟩

@[simp] theorem yields_pure {b c : β} : (pure b : Prep α β).Yields c ↔ b = c := by
  simp only [Yields, outcome_pure, Prod.mk.injEq, Except.ok.injEq]
  exact ⟨fun ⟨_, _, _, h, _⟩ => h, fun h => ⟨none, {}, {}, h, rfl⟩⟩

@[simp] theorem yields_lift {x : Except Fault β} {b : β} :
    (liftM x : Prep α β).Yields b ↔ x = .ok b := by
  simp only [Yields, outcome_lift, Prod.mk.injEq]
  exact ⟨fun ⟨_, _, _, h, _⟩ => h, fun h => ⟨none, {}, {}, h, rfl⟩⟩

@[simp] theorem not_yields_throw {x : Fault} {b : β} : ¬(throw x : Prep α β).Yields b := by
  simp [Yields]

/-- A result of two steps is one of the second after one of the first. -/
theorem Yields.of_bind {c : γ} (h : (p >>= f).Yields c) : ∃ b, p.Yields b ∧ (f b).Yields c := by
  obtain ⟨e, j, k, h⟩ := h
  obtain ⟨b, l, hp, hf⟩ := outcome_bind_eq_ok.1 h
  exact ⟨b, yields_of_outcome hp, yields_of_outcome hf⟩

/-- A step that is taken only sometimes, and whose result is of no interest, can be passed over. -/
theorem Yields.of_step {c : Prop} [Decidable c] {s : Prep α Unit} {g : Unit → Prep α γ} {b : γ}
    (h : (if c then s >>= g else g ()).Yields b) : (g ()).Yields b := by
  split at h
  · exact h.of_bind.elim fun _ h => h.2
  · exact h

/-- A result is one of the branch that is taken. -/
theorem Yields.of_ite {c : Prop} [Decidable c] {p q : Prep α β} {b : β}
    (h : (if c then p else q).Yields b) : p.Yields b ∨ q.Yields b := by
  split at h
  · exact .inl h
  · exact .inr h

theorem yields_map {g : β → γ} {c : γ} (h : (g <$> p).Yields c) : ∃ b, p.Yields b ∧ g b = c := by
  rw [← bind_pure_comp] at h
  obtain ⟨b, hb, hc⟩ := h.of_bind
  exact ⟨b, hb, yields_pure.1 hc⟩

/-! ## Reports and faults -/

/-- However it ends, the preparation adds to the log only anomalies `a` with `A a`, reported by
`source`; and it ends only in faults `x` with `F x`. -/
def Within (source : String) (A : Anomaly α → Prop) (F : Fault → Prop) (p : Prep α β) : Prop :=
  ∀ e j, (∃ added : List (Anomaly α), (∀ a ∈ added, A a) ∧
      (p.outcome e j).2.log.entries = j.log.entries ++ added.map (Diagnostic.mk source)) ∧
    ∀ x, (p.outcome e j).1 = .error x → F x

section

variable {source : String} {A : Anomaly α → Prop} {F : Fault → Prop}

/-- A preparation that leaves the log as it is adds nothing to it. -/
theorem Within.silent (hlog : ∀ e j, (p.outcome e j).2.log.entries = j.log.entries)
    (hfault : ∀ e j x, (p.outcome e j).1 = .error x → F x) : Within source A F p := by
  intro e j
  refine ⟨⟨[], by simp, ?_⟩, hfault e j⟩
  rw [hlog, List.map_nil, List.append_nil]

theorem Within.pure (b : β) : Within source A F (pure b : Prep α β) :=
  .silent (fun _ _ => rfl) fun _ _ _ h => by simp at h

theorem Within.lift {x : Except Fault β} (h : FaultsOnly F x) :
    Within source A F (liftM x : Prep α β) :=
  .silent (fun _ _ => rfl) fun _ _ => h

theorem Within.throw {x : Fault} (h : F x) : Within source A F (throw x : Prep α β) := by
  refine .silent (fun _ _ => rfl) fun _ _ y hy => ?_
  cases hy
  exact h

theorem Within.leave (v : Event α) : Within source A F (leave v) :=
  .silent (fun _ _ => rfl) fun _ _ _ h => by simp at h

theorem Within.diagnostics : Within source A F (diagnostics : Prep α _) :=
  .silent (fun _ _ => rfl) fun _ _ _ h => by simp at h

/-- A report adds its anomaly also where it is escalated. -/
theorem entries_report [Interchange α] (source : String) (a : Anomaly α) :
    ((report source a).outcome e j).2.log.entries = j.log.entries ++ [⟨source, a⟩] := by
  rw [outcome_report]
  simp only [DiagnosticLog.add, Bool.false_eq_true, if_false]
  -- escalated or not, the log that is left is the same
  split <;> rfl

/-- A report fails only where it is escalated. -/
theorem Within.report [Interchange α] {a : Anomaly α} (hA : A a)
    (hF : ∀ c m, F (.escalated c m)) : Within source A F (report source a) := by
  intro e j
  refine ⟨⟨[a], by simpa using hA, by simp [entries_report]⟩, ?_⟩
  intro x hx
  rw [outcome_report] at hx
  simp only [DiagnosticLog.add, Bool.false_eq_true, if_false] at hx
  split at hx
  · cases hx
    exact hF _ _
  · cases hx

theorem Within.bind (hp : Within source A F p) (hf : ∀ b, Within source A F (f b)) :
    Within source A F (p >>= f) := by
  intro e j
  obtain ⟨⟨added, hA, hadded⟩, hfault⟩ := hp e j
  rw [outcome_bind]
  rcases h : p.outcome e j with ⟨x | b, l⟩
  · -- the second step is never taken, so there is only what the first one added
    rw [h] at hadded hfault
    refine ⟨⟨added, hA, hadded⟩, ?_⟩
    intro y hy
    cases hy
    exact hfault x rfl
  · rw [h] at hadded
    obtain ⟨⟨more, hA', hmore⟩, hfault'⟩ := hf b e l
    refine ⟨⟨added ++ more, ?_, ?_⟩, hfault'⟩
    · intro a ha
      exact (List.mem_append.1 ha).elim (hA a) (hA' a)
    · have hl : l.log.entries = j.log.entries ++ added.map (Diagnostic.mk source) := hadded
      rw [hmore, hl, List.append_assoc, List.map_append]

theorem Within.ite {c : Prop} [Decidable c] {p q : Prep α β} (hp : Within source A F p)
    (hq : Within source A F q) : Within source A F (if c then p else q) := by
  split
  · exact hp
  · exact hq

/-- A preparation may be within more anomalies than it reports. -/
theorem Within.mono {B : Anomaly α → Prop} (h : Within source A F p) (hAB : ∀ a, A a → B a) :
    Within source B F p := by
  intro e j
  obtain ⟨⟨added, hadded, hentries⟩, hfault⟩ := h e j
  exact ⟨⟨added, fun a ha => hAB a (hadded a ha), hentries⟩, hfault⟩

/-- What holds of every diagnostic so far and of what the preparation may report holds of every
diagnostic that it leaves. -/
theorem Within.forall_entries {x : Except Fault β} {D : Diagnostic α → Prop}
    (h : Within source A F p) (hp : p.outcome e j = (x, k)) (hA : ∀ a, A a → D ⟨source, a⟩)
    (hj : ∀ d ∈ j.log.entries, D d) : ∀ d ∈ k.log.entries, D d := by
  obtain ⟨⟨added, hadded, hentries⟩, -⟩ := h e j
  rw [hp] at hentries
  intro d hd
  rw [hentries, List.mem_append] at hd
  rcases hd with hd | hd
  · exact hj d hd
  · obtain ⟨a, ha, rfl⟩ := List.mem_map.1 hd
    exact hA a (hadded a ha)

/-- Whether the log has an entry of a kind that is not reported stays as it is. -/
theorem Within.exists_entries_iff {x : Except Fault β} {D : Diagnostic α → Prop}
    (h : Within source A F p) (hp : p.outcome e j = (x, k)) (hA : ∀ a, A a → ¬D ⟨source, a⟩) :
    (∃ d ∈ k.log.entries, D d) ↔ ∃ d ∈ j.log.entries, D d := by
  obtain ⟨⟨added, hadded, hentries⟩, -⟩ := h e j
  rw [hp] at hentries
  rw [hentries]
  constructor
  · rintro ⟨d, hd, hD⟩
    rcases List.mem_append.1 hd with hd | hd
    · exact ⟨d, hd, hD⟩
    · obtain ⟨a, ha, rfl⟩ := List.mem_map.1 hd
      exact absurd hD (hA a (hadded a ha))
  · rintro ⟨d, hd, hD⟩
    exact ⟨d, List.mem_append_left _ hd, hD⟩

/-- A step that is taken only sometimes. -/
theorem Within.step {c : Prop} [Decidable c] {s : Prep α Unit} {g : Unit → Prep α γ}
    (hs : Within source A F s) (hg : Within source A F (g ())) :
    Within source A F (if c then s >>= g else g ()) :=
  .ite (hs.bind fun _ => hg) hg

end

/-! ## Faults where no warning is escalated -/

/-- Where no warning is escalated, the preparation ends only in faults `x` with `F x`. -/
def FailsOnly (F : Fault → Prop) (p : Prep α β) : Prop :=
  ∀ j x, (p.outcome none j).1 = .error x → F x

namespace FailsOnly

variable {F : Fault → Prop}

theorem pure (b : β) : FailsOnly F (pure b : Prep α β) := fun _ _ h => nomatch h

theorem lift {x : Except Fault β} (h : FaultsOnly F x) : FailsOnly F (liftM x : Prep α β) := fun _ => h

theorem of_ok {x : Except Fault β} (h : ∃ b, x = .ok b) : FailsOnly F (liftM x : Prep α β) :=
  .lift (.of_ok h)

theorem throw {x : Fault} (h : F x) : FailsOnly F (throw x : Prep α β) := by
  intro j y hy
  cases hy
  exact h

theorem leave (v : Event α) : FailsOnly F (leave v) := fun _ _ h => nomatch h

theorem diagnostics : FailsOnly F (diagnostics : Prep α _) := fun _ _ h => nomatch h

theorem report [Interchange α] (source : String) (a : Anomaly α) : FailsOnly F (report source a) :=
  fun _ _ h => nomatch h

/-- The second of two steps is only taken from results of the first one. -/
theorem bind (hp : FailsOnly F p) (hf : ∀ b, p.Yields b → FailsOnly F (f b)) :
    FailsOnly F (p >>= f) := by
  intro j x hx
  rw [outcome_bind] at hx
  rcases h : p.outcome none j with ⟨y | b, l⟩
  · rw [h] at hx
    cases hx
    exact hp j x (by rw [h])
  · rw [h] at hx
    exact hf b (yields_of_outcome h) l x hx

theorem map (hp : FailsOnly F p) (g : β → γ) : FailsOnly F (g <$> p) := by
  rw [← bind_pure_comp]
  exact hp.bind fun _ _ => .pure _

theorem ite {c : Prop} [Decidable c] {p q : Prep α β} (hp : c → FailsOnly F p)
    (hq : ¬c → FailsOnly F q) : FailsOnly F (if c then p else q) := by
  split
  · next h => exact hp h
  · next h => exact hq h

/-- A step that is taken only sometimes. -/
theorem step {c : Prop} [Decidable c] {s : Prep α Unit} {g : Unit → Prep α γ}
    (hs : c → FailsOnly F s) (hg : FailsOnly F (g ())) :
    FailsOnly F (if c then s >>= g else g ()) :=
  .ite (fun h => (hs h).bind fun _ _ => hg) fun _ => hg

/-- A preparation that cannot fail has a result. -/
theorem exists_ok {p : Prep α β} (h : FailsOnly (fun _ => False) p) (j : Journal α) :
    ∃ b, (p.outcome none j).1 = .ok b := by
  rcases hp : (p.outcome none j).1 with x | b
  · exact (h j x hp).elim
  · exact ⟨b, rfl⟩

theorem exists_outcome {p : Prep α β} (h : FailsOnly (fun _ => False) p) (j : Journal α) :
    ∃ b k, p.outcome none j = (.ok b, k) := by
  obtain ⟨b, hb⟩ := h.exists_ok j
  exact ⟨b, _, Prod.ext hb rfl⟩

end FailsOnly

end Prep
end Presolve
