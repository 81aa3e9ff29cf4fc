import Presolve.Proofs.Number.Extended
import Presolve.Proofs.Outcome
import Presolve.Proofs.Transform.Start
import Presolve.Proofs.Value.Lookup

/-!
# Problems given as dictionaries

A problem can be given part by part or as a dictionary. Both ways lead to the same preparation: what is
looked up in the dictionary are the parts, a missing objective is reported at the same point, and a solver
beside the options is one among them that takes precedence.
-/

namespace Presolve

variable {α : Type} [Scalar α] [Interchange α]

/-! ## The parts of a dictionary -/

/-- The entries that options stand for, if they are options at all. -/
def Value.optionEntries? : Value α → Option (Entries α)
  | .absent => some []
  | .options fields => some (setOptions fields)
  | .mapping entries => some entries
  | _ => none

namespace Entries

/-- A dictionary that consists of parts of a problem, each of them given, and has a start. -/
structure IsProblem (m : Entries α) : Prop where
  known : ∀ entry ∈ m, ∃ key ∈ fieldKeys, entry.1.text? = some (key : Text)
  given : ∀ entry ∈ m, entry.2.isEmpty = false
  start : (Value.lookup? "x0" m).isSome = true

/-- A part of a problem, absent if the dictionary does not have it. -/
def part (m : Entries α) (key : Text) : Value α := (Value.lookup? key m).getD .absent

/-- The options of a dictionary. A solver beside them replaces the one among them. -/
def partOptions (m : Entries α) : Value α :=
  match Value.lookup? "solver" m, (m.part "options").optionEntries? with
  | some solver, some entries => .mapping (Value.setEntry (.text "solver") solver entries)
  | _, _ => m.part "options"

end Entries

/-- The input that a dictionary stands for. -/
def Input.ofParts (m : Entries α) : Input α where
  objective := m.part "objective"
  start := m.part "x0"
  inequalityRows := m.part "Aineq"
  inequalityRhs := m.part "bineq"
  equalityRows := m.part "Aeq"
  equalityRhs := m.part "beq"
  lower := m.part "lb"
  upper := m.part "ub"
  constraints := m.part "nonlcon"
  options := m.partOptions

/-- A record apart from the input that is kept in debug mode. -/
def Record.withoutInput (r : Record α) : Record α := { r with input := none }

/-! ## Reading a dictionary -/

omit [Interchange α] in
/-- A solver is written among options of every shape; what are no options stays as it is. -/
theorem withSolver_eq (solver v : Value α) :
    withSolver solver v = match v.optionEntries? with
      | some entries => .mapping (Value.setEntry (.text "solver") solver entries)
      | none => v := by
  cases v <;> rfl

omit [Interchange α] in
theorem Entries.partOptions_eq (m : Entries α) :
    m.partOptions = match Value.lookup? "solver" m with
      | some solver => withSolver solver (m.part "options")
      | none => m.part "options" := by
  unfold partOptions
  cases Value.lookup? "solver" m with
  | none => rfl
  | some solver =>
    dsimp only
    rw [withSolver_eq]
    cases (m.part "options").optionEntries? <;> rfl

namespace Entries.IsProblem

variable {m : Entries α} (h : m.IsProblem)

include h

omit [Scalar α] [Interchange α] in
/-- No entry is left out. -/
theorem filter_given : (m.filter fun entry => !entry.2.isEmpty) = m := by
  rw [List.filter_eq_self]
  intro entry hentry
  rw [h.given entry hentry]
  rfl

omit [Scalar α] [Interchange α] in
/-- No key is unknown. -/
theorem filter_unknown {p : Value α → Bool}
    (hp : ∀ key t, t.isAmong fieldKeys = true → key.text? = some t → p key = false) :
    (m.map (·.1)).filter p = [] := by
  rw [List.filter_eq_nil_iff]
  intro key hkey
  obtain ⟨entry, hentry, rfl⟩ := List.mem_map.1 hkey
  obtain ⟨name, hname, htext⟩ := h.known entry hentry
  have hknown : Text.isAmong fieldKeys name = true := by simpa using hname
  simp [hp _ name hknown htext]

/-- What is looked up is the input that the dictionary stands for; a missing objective is reported and
replaced. -/
theorem readFields_eq (source : String) :
    readFields source (.mapping m) =
      if (m.part "objective").isAbsent then do
        Prep.report source .noObjective
        return { Input.ofParts m with objective := zeroObjective }
      else return Input.ofParts m := by
  have hstart : ¬(Value.lookup? "x0" m).isNone = true := by
    rw [Option.isNone_iff_eq_none, ← Option.not_isSome_iff_eq_none, not_not]
    exact h.start
  unfold readFields
  simp only [h.filter_given]
  rw [if_neg hstart]
  rw [h.filter_unknown fun key t ht htext => by simp [htext, ht]]
  simp only [List.isEmpty_nil, Bool.not_true, Bool.false_eq_true, if_false, pure_bind]
  simp only [Input.ofParts, m.partOptions_eq]
  rfl

end Entries.IsProblem

/-! ## Preparing -/

/-- Checking an input without an objective reports that and goes on with the objective zero. -/
theorem check_of_absent {i : Input α} (h : i.objective.isAbsent = true) (source : String) :
    check source i = (do
      Prep.report source .noObjective
      check source { i with objective := zeroObjective }) := by
  have hread : readObjective source i.objective = (do
      Prep.report source .noObjective
      readObjective source zeroObjective) := by
    unfold readObjective
    rw [if_pos h]
    simp only [pure_bind]
    rfl
  unfold check
  rw [hread, bind_assoc]
  rfl

/-- A preparation without an objective is the one with the objective zero after a report, apart from the
input that the record keeps. -/
theorem withoutInput_prepare_of_absent (search : NearestSearch α) (invoker : Invoker) {i : Input α}
    (h : i.objective.isAbsent = true) :
    Record.withoutInput <$> prepare search invoker i = (do
      Prep.report invoker.name .noObjective
      Record.withoutInput <$> prepare search invoker { i with objective := zeroObjective }) := by
  simp only [prepare, check_of_absent h, bind_assoc, map_bind, map_pure, Record.withoutInput]

theorem withoutInput_prepareFields (search : NearestSearch α) (invoker : Invoker) {m : Entries α}
    (h : m.IsProblem) :
    Record.withoutInput <$> prepareFields search invoker (.mapping m)
      = Record.withoutInput <$> prepare search invoker (.ofParts m) := by
  unfold prepareFields
  rw [h.readFields_eq]
  by_cases hobjective : (m.part "objective").isAbsent = true
  · rw [if_pos hobjective, withoutInput_prepare_of_absent search invoker hobjective]
    simp only [bind_assoc, pure_bind, map_bind]
  · rw [if_neg hobjective, pure_bind]

/-- A problem given as a dictionary is prepared as the same problem given part by part: both ways end in
the same fault or in the same record, apart from the input that it keeps, and leave the same journal. -/
theorem prepareFields_same_outcome (search : NearestSearch α) (invoker : Invoker)
    (e : Option Category) {m : Entries α} (h : m.IsProblem) :
    (Prep.run e (prepareFields search invoker (.mapping m))).1.map Record.withoutInput
        = (Prep.run e (prepare search invoker (.ofParts m))).1.map Record.withoutInput ∧
      (Prep.run e (prepareFields search invoker (.mapping m))).2
        = (Prep.run e (prepare search invoker (.ofParts m))).2 := by
  have hrun := congrArg (Prep.run e) (withoutInput_prepareFields search invoker h)
  rw [Prep.run_map, Prep.run_map, Prod.mk.injEq] at hrun
  exact hrun

/-- A dictionary with a solver beside the options, one among them, and no objective. -/
def twoSolvers : Entries (Extended ℚ) :=
  [(.text "x0", .list [.int 1]), (.text "solver", .text "cobyla"),
    (.text "options", .mapping [(.text "solver", .text "newuoa"), (.text "maxfun", .int 9)])]

theorem isProblem_twoSolvers : twoSolvers.IsProblem where
  known := by decide +kernel
  given := by decide +kernel
  start := rfl

/-- The solver beside the options wins, and the missing objective is reported once. -/
theorem prepareFields_same_outcome_twoSolvers : ∃ r r',
    (Prep.run none (prepareFields NearestSearch.stay .frontEnd (.mapping twoSolvers))).1 = .ok r ∧
      (Prep.run none (prepare NearestSearch.stay .frontEnd (.ofParts twoSolvers))).1 = .ok r' ∧
      r.withoutInput = r'.withoutInput ∧ r.settings.solver = some .cobyla ∧
      r.diagnostics.map Diagnostic.id = ["pdfo:NoObjective"] := by
  have hrun : (Prep.run none
      (prepareFields NearestSearch.stay .frontEnd (.mapping twoSolvers))).1.toOption.map
      (fun r => (r.settings.solver, r.diagnostics.map Diagnostic.id))
        = some (some .cobyla, ["pdfo:NoObjective"]) := by decide +kernel
  obtain ⟨r, hr, hresult⟩ := exists_of_toOption_map hrun
  obtain ⟨hsolver, hids⟩ := Prod.mk.inj hresult
  have hsame := (prepareFields_same_outcome NearestSearch.stay .frontEnd none isProblem_twoSolvers).1
  rw [hr] at hsame
  obtain ⟨r', hr', heq⟩ := map_eq_ok.1 hsame.symm
  exact ⟨r, r', hr, hr', heq.symm, hsolver, hids⟩

end Presolve
