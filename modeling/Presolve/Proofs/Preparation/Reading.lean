import Presolve.Proofs.Linear.Vector
import Presolve.Proofs.Preparation.Stages
import Presolve.Proofs.Value.Sound

/-!
# Reading an input

Reading the parts of an input ends in a complaint or in a result, if the values are sound and the functions
of the caller return: what is judged to be a vector or a matrix can be read as one, and what is not is a
complaint. The same holds of the violation at the only point that there is if all variables are fixed,
where the constraints are called (`check_failsOnly`).
-/

namespace Presolve

open Scalar

/-! ## Complaints -/

/-- The class of every complaint belongs to the errors of the input. -/
theorem Complaint.input_mem_lineage (complaint : Complaint) :
    .input ∈ complaint.errorClass.lineage := by
  cases complaint <;> simp [errorClass, ErrorClass.lineage]

/-- Is it reported as an error of the input? -/
def Fault.IsComplaint (x : Fault) : Prop :=
  ∃ c, x.report?.map (·.1) = some c ∧ .input ∈ c.lineage

/-- Defects are reported as well, but not as errors of the input. -/
theorem Fault.isComplaint_iff {x : Fault} :
    x.IsComplaint ↔ ∃ complaint invoker, x = .invalid complaint invoker := by
  constructor
  · rintro ⟨c, hreport, hinput⟩
    cases x with
    | invalid complaint invoker => exact ⟨complaint, invoker, rfl⟩
    | defect d =>
      cases hreport
      simp [ErrorClass.lineage] at hinput
    | _ => cases hreport
  · rintro ⟨complaint, invoker, rfl⟩
    exact ⟨complaint.errorClass, rfl, complaint.input_mem_lineage⟩

theorem Fault.isComplaint_invalid (complaint : Complaint) (invoker : String) :
    (invalid complaint invoker).IsComplaint := isComplaint_iff.2 ⟨complaint, invoker, rfl⟩

variable {α : Type}

/-! ## What is assumed -/

/-- A function that is passed returns wherever it is called. -/
def Value.Returns (v : Value α) : Prop :=
  ∀ view parts? f, v = .function view parts? f → ∀ x, ∃ output, f x = .ok output

/-- The values that are read are sound, whatever else they are. -/
structure Input.Sound (i : Input α) : Prop where
  start : i.start.isSound = true
  inequalityRows : i.inequalityRows.isSound = true
  inequalityRhs : i.inequalityRhs.isSound = true
  equalityRows : i.equalityRows.isSound = true
  equalityRhs : i.equalityRhs.isSound = true
  lower : i.lower.isSound = true
  upper : i.upper.isSound = true
  options : i.options.isSound = true

variable [Scalar α] [Interchange α] {source : String} {n : Nat}

/-! ## The parts of an input -/

theorem readObjective_failsOnly (v : Value α) :
    Prep.FailsOnly Fault.IsComplaint (readObjective source v) := by
  unfold readObjective
  split
  · -- what is absent is replaced by a function
    refine (Prep.FailsOnly.report _ _).bind fun _ _ => (Prep.FailsOnly.pure _).bind fun v _ => ?_
    dsimp only
    split
    · exact .pure _
    · exact .throw (Fault.isComplaint_invalid _ _)
  · refine (Prep.FailsOnly.pure _).bind fun v _ => ?_
    dsimp only
    split
    · exact .pure _
    · exact .throw (Fault.isComplaint_invalid _ _)

theorem readStart_faultsOnly {v : Value α} (hv : v.isSound = true) :
    FaultsOnly Fault.IsComplaint (readStart source v) := by
  unfold readStart
  split
  · next length hlength => exact .of_ok (Value.exists_toVector_of_vector hv hlength)
  · exact .error (Fault.isComplaint_invalid _ _)

theorem LinearSystem.read_faultsOnly {name : SystemName} {a b : Value α} (ha : a.isSound = true)
    (hb : b.isSound = true) : FaultsOnly Fault.IsComplaint (LinearSystem.read name source n a b) := by
  unfold LinearSystem.read
  split
  · next hshape hlength =>
    split
    · refine FaultsOnly.bind (.of_ok (Value.exists_toMatrix ha hshape)) fun matrix _ => ?_
      exact .bind (.of_ok (Value.exists_toVector_of_column hb hlength)) fun rhs _ => .ok _
    · exact .error (Fault.isComplaint_invalid _ _)
  · exact .error (Fault.isComplaint_invalid _ _)

theorem readLinear_failsOnly {i : Input α} (hi : i.Sound) :
    Prep.FailsOnly Fault.IsComplaint (readLinear source n i) := by
  have hineq : FaultsOnly Fault.IsComplaint (LinearSystem.read .inequalities source n
      i.inequalityRows i.inequalityRhs) :=
    LinearSystem.read_faultsOnly hi.inequalityRows hi.inequalityRhs
  have heq : FaultsOnly Fault.IsComplaint (LinearSystem.read .equalities source n
      i.equalityRows i.equalityRhs) :=
    LinearSystem.read_faultsOnly hi.equalityRows hi.equalityRhs
  have hread : FaultsOnly Fault.IsComplaint (LinearConstraints.read source n i.inequalityRows
      i.inequalityRhs i.equalityRows i.equalityRhs) :=
    (hineq.map _).bind fun _ _ => (heq.map _).bind fun _ _ => .ok _
  exact (Prep.FailsOnly.lift hread).bind fun linear _ => .step (fun _ => .leave _) (.pure _)

theorem Bounds.readSide_faultsOnly {side : BoundName} {v : Value α} (hv : v.isSound = true) :
    FaultsOnly Fault.IsComplaint (readSide side source n v) := by
  unfold readSide
  split
  · next length hlength =>
    split
    · exact .ok _
    · split
      · exact .of_ok (Value.exists_toVector_of_vector hv hlength)
      · exact .error (Fault.isComplaint_invalid _ _)
  · exact .error (Fault.isComplaint_invalid _ _)

theorem Bounds.read_faultsOnly {lower upper : Value α} (hl : lower.isSound = true)
    (hu : upper.isSound = true) : FaultsOnly Fault.IsComplaint (Bounds.read source n lower upper) :=
  (readSide_faultsOnly hl).bind fun _ _ => (readSide_faultsOnly hu).bind fun _ _ => .ok _

omit [Scalar α] [Interchange α] in
theorem readConstraints_faultsOnly (v : Value α) :
    FaultsOnly Fault.IsComplaint (readConstraints source v) := by
  unfold readConstraints
  split
  · exact .ok _
  · exact .ok _
  · exact .error (Fault.isComplaint_invalid _ _)

omit [Scalar α] [Interchange α] in
/-- A constraint function that was read returns if what was passed does. -/
theorem Value.Returns.of_readConstraints {v : Value α} (hv : v.Returns) {f : Evaluator α}
    (h : readConstraints source v = .ok (some f)) (x : List α) : ∃ output, f x = .ok output := by
  unfold readConstraints at h
  split at h
  · cases h
  · cases h
    exact hv _ _ _ rfl x
  · cases h

/-- Reading a dictionary whose keys can be written only complains. -/
theorem readFields_failsOnly (source : String) {entries : Entries α}
    (hkeys : ∀ entry ∈ entries, entry.1.isWritable = true) :
    Prep.FailsOnly Fault.IsComplaint (readFields source (.mapping entries)) := by
  have hrest (unknown : List (Value α)) (i : Input α)
      (hunknown : ∀ key ∈ unknown, ∃ entry ∈ entries, entry.1 = key) :
      Prep.FailsOnly Fault.IsComplaint (do
        if !unknown.isEmpty then
          let texts ← (unknown.mapM Value.toText : Except Fault (List Text))
          Prep.report source (.unknownFields (texts.mergeSort fun a b => decide (a ≤ b)))
        return i : Prep α (Input α)) := by
    have htexts : ∃ texts, unknown.mapM Value.toText = .ok texts := by
      refine exists_mapM_iff.2 fun key hkey => ?_
      obtain ⟨entry, hentry, rfl⟩ := hunknown key hkey
      exact ⟨_, if_pos (hkeys entry hentry)⟩
    refine .ite (fun _ => ?_) fun _ => .pure _
    exact (Prep.FailsOnly.of_ok htexts).bind fun _ _ => (Prep.FailsOnly.report _ _).bind fun _ _ => .pure _
  unfold readFields
  refine .step (fun _ => .throw (Fault.isComplaint_invalid _ _)) ?_
  have hunknown : ∀ key ∈ ((entries.filter fun entry => !entry.2.isEmpty).map (·.1)).filter fun key =>
      !key.text?.any (Text.isAmong fieldKeys), ∃ entry ∈ entries, entry.1 = key := by
    intro key hkey
    obtain ⟨entry, hentry, rfl⟩ := List.mem_map.1 (List.mem_filter.1 hkey).1
    exact ⟨entry, (List.mem_filter.1 hentry).1, rfl⟩
  refine .ite (fun _ => ?_) fun _ => ?_
  · refine (Prep.FailsOnly.report _ _).bind fun _ _ => (Prep.FailsOnly.pure _).bind fun _ _ => ?_
    exact hrest _ _ hunknown
  · exact (Prep.FailsOnly.pure _).bind fun _ _ => hrest _ _ hunknown

/-! ## The violation at the only point -/

omit [Interchange α] in
theorem Bounds.exists_excess {b : Bounds α} {x : List α} (hl : b.lower.length = n)
    (hu : b.upper.length = n) (hx : x.length = n) : ∃ excess, b.excess x = .ok excess :=
  ⟨_, Bounds.excess_eq hl hu hx⟩

omit [Interchange α] in
theorem LinearSystem.Fits.exists_excess {s : LinearSystem α} {x : List α} (hs : s.Fits n)
    (hx : x.length = n) : ∃ excess, s.excess x = .ok excess := by
  unfold LinearSystem.excess
  split
  · have hlen : (s.rows.map (dot · x)).length = s.rhs.length := by simp [hs.length_rhs]
    rw [applyRows_eq fun row hrow => (hs.length_row row hrow).trans hx.symm]
    simp only [bind_eq_ok, Except.ok.injEq, exists_eq_left', entrywise_of_length_eq _ hlen]
    exact ⟨_, entrywise_of_length_eq _ (by simp [hs.length_rhs])⟩
  · exact ⟨_, rfl⟩

omit [Interchange α] in
theorem Barrier.readPart_faultsOnly (part : Value α) :
    FaultsOnly Fault.IsComplaint (readPart source part) := by
  unfold readPart
  split
  · exact .ok _
  · split
    · exact .ok _
    · exact .error (Fault.isComplaint_invalid _ _)

omit [Interchange α] in
theorem Barrier.readConstraints_faultsOnly (output : Value α) :
    FaultsOnly Fault.IsComplaint (readConstraints source output) := by
  have hparts (ineq eq : Value α) : FaultsOnly Fault.IsComplaint (do
      return (← readPart source ineq, ← readPart source eq) : Except Fault (List α × List α)) :=
    (readPart_faultsOnly ineq).bind fun _ _ => (readPart_faultsOnly eq).bind fun _ _ => .ok _
  unfold readConstraints
  split
  · exact hparts _ _
  · exact hparts _ _
  · exact .error (Fault.isComplaint_invalid _ _)

/-- What constraints behind the barrier return are two vectors, and nothing else is let through. -/
theorem constraintExcess_faultsOnly {f? : Option (Evaluator α)} {x : List α}
    (h : ∀ f, f? = some f → ∃ output, f x = .ok output) :
    FaultsOnly Fault.IsComplaint (constraintExcess (f?.map (Barrier.constraints source)) x) := by
  cases f? with
  | none => exact .ok _
  | some f =>
    have hguarded : FaultsOnly Fault.IsComplaint (Barrier.constraints source f x) :=
      (FaultsOnly.of_ok (h f rfl)).bind fun output _ =>
        (Barrier.readConstraints_faultsOnly output).bind fun _ _ => .ok _
    refine hguarded.bind fun guarded hvalue => ?_
    obtain ⟨output, -, hvalue⟩ := bind_eq_ok.1 hvalue
    obtain ⟨⟨ineq, eq⟩, -, hvalue⟩ := bind_eq_ok.1 hvalue
    cases hvalue
    refine (FaultsOnly.ok (Value.ofList ineq, Value.ofList eq)).bind fun pair hpair => ?_
    cases hpair
    exact .bind (.of_ok ⟨_, Value.flatReals_ofList ineq⟩) fun _ _ =>
      .bind (.of_ok ⟨_, Value.flatReals_ofList eq⟩) fun _ _ => .ok _

theorem Problem.violationAt_faultsOnly {p : Problem α} {f? : Option (Evaluator α)} {x : List α}
    (hp : p.Fits n) (hx : x.length = n) (hf : p.constraints = f?.map (Barrier.constraints source))
    (h : ∀ f, f? = some f → ∃ output, f x = .ok output) :
    FaultsOnly Fault.IsComplaint (p.violationAt x) := by
  refine FaultsOnly.bind (.of_ok (Bounds.exists_excess hp.length_lower hp.length_upper hx))
    fun _ _ => ?_
  refine .bind (.of_ok (hp.inequalities.exists_excess hx)) fun _ _ => ?_
  refine .bind (.of_ok (hp.equalities.exists_excess hx)) fun _ _ => ?_
  rw [hf]
  exact (constraintExcess_faultsOnly h).bind fun _ _ => .ok _

/-! ## All parts -/

/-- Checking an input only complains. -/
theorem check_failsOnly {i : Input α} (hi : i.Sound) (hreturns : i.constraints.Returns) :
    Prep.FailsOnly Fault.IsComplaint (check source i) := by
  refine (readObjective_failsOnly _).bind fun objective _ => ?_
  refine (Prep.FailsOnly.lift (readStart_faultsOnly hi.start)).bind fun start _ => ?_
  refine (readLinear_failsOnly hi).bind fun linear hlinear => ?_
  refine (Prep.FailsOnly.lift (Bounds.read_faultsOnly hi.lower hi.upper)).bind
    fun bounds hbounds => ?_
  obtain ⟨ineq, eq, hineq, heq, rfl⟩ := LinearConstraints.read_eq_ok (readLinear_yields hlinear)
  obtain ⟨hl, hu⟩ := Bounds.read_eq_ok (Prep.yields_lift.1 hbounds)
  refine (Prep.FailsOnly.of_ok (Facts.exists_ofConstraints hl hu _)).bind fun facts hfacts => ?_
  refine (Prep.FailsOnly.lift (readConstraints_faultsOnly _)).bind fun constraints hconstraints => ?_
  have hrest (violation? : Option α) (p : Problem α) : Prep.FailsOnly Fault.IsComplaint (do
      if facts.infeasible then Prep.leave .infeasible
      return { problem := p, facts := facts, fixedViolation := violation? } : Prep α (Checked α)) :=
    .step (fun _ => .leave _) (.pure _)
  refine .ite (fun hall => .bind (.map (.lift ?_) _) fun _ _ => hrest _ _)
    fun _ => .bind (.pure _) fun _ _ => hrest _ _
  -- all variables are fixed, so there is only one point, and the constraints are called there
  refine Problem.violationAt_faultsOnly (n := start.length)
    ⟨rfl, hl, hu, (LinearSystem.read_fits hineq).checked, (LinearSystem.read_fits heq).checked⟩
    (Facts.length_fixedValues hl hu (Prep.yields_lift.1 hfacts) hall) rfl ?_
  rintro f rfl
  exact hreturns.of_readConstraints (Prep.yields_lift.1 hconstraints) _

end Presolve
