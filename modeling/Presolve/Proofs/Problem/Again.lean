import Presolve.Proofs.Number.Steady
import Presolve.Proofs.Transform.Elimination
import Presolve.Proofs.Value.Sound

/-!
# Problems that are passed again

A problem in normal form can be passed as an input (`Problem.toInput`): its vectors and matrices as arrays
and its functions as they are. Such an input states the same problem (`Input.stated_toInput`). Whatever
checking does to a problem it does only once: barriers are not put around barriers
(`Problem.guarded_guarded`), and among the rows that were kept none is trivial
(`CheckedSystem.ofSystem_system`).
-/

namespace Presolve

open Scalar

/-! ## Arrays -/

section

variable {α : Type}

/-- An array of numbers. -/
def Value.ofTensor (t : Tensor α) : Value α := .array ⟨.real, t.map .real⟩

/-- The matrix of a system as an array. -/
def LinearSystem.matrix (s : LinearSystem α) : Value α :=
  match (Tensor.vector s.rows.flatten).reshape? [s.shape.1, s.shape.2] with
  | some t => .ofTensor t
  | none => .absent

theorem Tensor.split_flatten {n : Nat} {rows : List (List α)} (h : ∀ row ∈ rows, row.length = n) :
    split n rows.length rows.flatten = rows := by
  induction rows with
  | nil => rfl
  | cons row rows ih =>
    have hrow := h row List.mem_cons_self
    rw [List.length_cons, List.flatten_cons, split, ← hrow, List.take_left, List.drop_left, hrow,
      ih fun row hrow => h row (List.mem_cons_of_mem _ hrow)]

namespace Value

/-- An array of numbers read as an array. -/
theorem realNest?_ofTensor (t : Tensor α) :
    (ofTensor t).realNest? = some ⟨.real, (t.map .real).map (entry .real)⟩ := rfl

theorem isEmpty_ofTensor (t : Tensor α) : (ofTensor t).isEmpty = (t.size == 0) := by
  show (CellType.real != .object && (((t.map Cell.real).map (entry CellType.real)).entries.length == 0)) = _
  simp [Tensor.map, Tensor.size]

variable [Scalar α] [Interchange α]

theorem toReals_ofTensor (t : Tensor α) : (ofTensor t).toReals = .ok (t.shape, t.entries) := by
  have hentries : ((t.entries.map Cell.real).map (entry .real)).mapM toReal = .ok t.entries := by
    rw [List.map_map, mapM_eq_ok, List.forall₂_map_left_iff, List.forall₂_same]
    exact fun _ _ => rfl
  exact map_eq_ok.2 ⟨t.entries, hentries, rfl⟩

omit [Scalar α] [Interchange α] in
theorem isEmpty_ofList (xs : List α) : (ofList xs).isEmpty = (xs.length == 0) :=
  isEmpty_ofTensor (.vector xs)

omit [Scalar α] [Interchange α] in
/-- A vector and a column are as long as the numbers are many. -/
theorem length_ofList (xs : List α) :
    (ofList xs).vectorLength? = some xs.length ∧ (ofList xs).columnLength? = some xs.length := by
  have hnest : (ofList xs).realNest?
      = some ⟨.real, ((Tensor.vector xs).map .real).map (entry .real)⟩ := rfl
  unfold vectorLength? columnLength?
  rw [isEmpty_ofList, hnest]
  by_cases h : xs.length = 0
  · simp [h]
  · simp [h, Nest.shape, Nest.size, Tensor.map, Tensor.vector, Tensor.size]

theorem toVector_ofList (xs : List α) : (ofList xs).toVector = .ok xs := by
  unfold toVector
  rw [isEmpty_ofList]
  split
  · next h => rw [List.length_eq_zero_iff.1 (beq_iff_eq.1 h)]
  · exact flatReals_ofList xs

end Value

/-! ## Reading -/

variable [Scalar α] [Interchange α] {source : String} {n : Nat}

theorem readStart_ofList {xs : List α} (h : 0 < xs.length) : readStart source (.ofList xs) = .ok xs := by
  unfold readStart
  rw [(Value.length_ofList xs).1]
  cases xs with
  | nil => cases h
  | cons x xs => exact Value.toVector_ofList _

theorem Bounds.readSide_ofList (side : BoundName) {xs : List α} (hn : 0 < n) (h : xs.length = n) :
    Bounds.readSide side source n (.ofList xs) = .ok xs := by
  unfold Bounds.readSide
  simp only [(Value.length_ofList xs).1, h, if_neg hn.ne', if_true]
  exact Value.toVector_ofList xs

theorem Bounds.read_ofList {b : Bounds α} (hn : 0 < n) (hl : b.lower.length = n)
    (hu : b.upper.length = n) : Bounds.read source n (.ofList b.lower) (.ofList b.upper) = .ok b := by
  rw [Bounds.read, readSide_ofList _ hn hl, readSide_ofList _ hn hu]
  rfl

omit [Scalar α] [Interchange α] in
/-- The matrix of a system whose rows fit has the entries of the rows in order. -/
theorem LinearSystem.Fits.matrix_eq {s : LinearSystem α} (hs : s.Fits n) :
    ∃ t : Tensor α, s.matrix = .ofTensor t ∧ t.shape = [s.shape.1, s.shape.2] ∧
      t.entries = s.rows.flatten := by
  have hcols : ∀ row ∈ s.rows, row.length = s.shape.2 := by
    intro row hrow
    cases hrows : s.rows with
    | nil => simp [hrows] at hrow
    | cons first rest =>
      have hfirst : first.length = n := hs.length_row first (by simp [hrows])
      rw [hs.length_row row hrow, shape, hrows, List.headD_cons, hfirst]
  have hlen : s.rows.flatten.length = volume [s.shape.1, s.shape.2] := by
    rw [List.length_flatten, List.map_congr_left hcols, List.map_const', List.sum_replicate]
    simp [volume, shape]
  exact ⟨⟨_, s.rows.flatten, hlen⟩, by simp [matrix, Tensor.reshape?, Tensor.vector, hlen], rfl, rfl⟩

/-- The matrix is read as rows of its shape; one without rows has no columns either. -/
theorem LinearSystem.Fits.toMatrix_matrix {s : LinearSystem α} (hs : s.Fits n) (hn : 0 < n) :
    ∃ c, (c = n ∨ c = 0) ∧ s.matrix.matrixShape? = some (s.rows.length, c) ∧
      s.matrix.toMatrix = .ok s.rows := by
  obtain ⟨t, hmatrix, hshape, hentries⟩ := hs.matrix_eq
  unfold Value.matrixShape? Value.toMatrix
  rw [hmatrix, Value.isEmpty_ofTensor, Value.realNest?_ofTensor, Value.toReals_ofTensor, Tensor.size,
    hshape, hentries]
  cases hrows : s.rows with
  | nil => exact ⟨0, .inr rfl, rfl, rfl⟩
  | cons first rest =>
    have hcols : ∀ row ∈ first :: rest, row.length = n := hrows ▸ hs.length_row
    have hfirst : first.length = n := hcols first List.mem_cons_self
    have hsize : ((first :: rest).flatten.length == 0) = false := by
      rw [List.flatten_cons, List.length_append, hfirst, beq_eq_false_iff_ne]
      omega
    rw [hsize, if_neg Bool.false_ne_true, if_neg Bool.false_ne_true]
    refine ⟨n, .inl rfl, ?_, ?_⟩
    · simp [Nest.shape, Tensor.map, hshape, shape, hrows, hfirst]
    · simp only [Except.map, shape, hrows, List.headD_cons, hfirst]
      exact congrArg Except.ok (Tensor.split_flatten hcols)

/-- A system whose rows fit is read as it was written. -/
theorem LinearSystem.read_matrix {s : LinearSystem α} {name : SystemName} (hs : s.Fits n) (hn : 0 < n) :
    LinearSystem.read name source n s.matrix (.ofList s.rhs) = .ok s := by
  obtain ⟨c, hc, hshape, hrows⟩ := hs.toMatrix_matrix hn
  unfold LinearSystem.read
  simp only [hshape, (Value.length_ofList s.rhs).2, hrows, Value.toVector_ofList]
  rw [if_pos ⟨hs.length_rhs.symm, hc⟩]
  rfl

end

/-! ## The input -/

section

variable {α : Type}

/-- How a function looks from outside: how it is shown, and its named parts if it is a record. -/
structure Guise (α : Type) where
  view : FunctionView
  parts? : Option (List (String × Value α))

/-- A function in a guise, as a caller passes it. -/
def Guise.value (g : Guise α) : Option (Evaluator α) → Value α
  | some f => .function g.view g.parts? f
  | none => .absent

/-- A problem as an input, with its functions in some guise. -/
def Problem.toInput (p : Problem α) (objective constraints : Guise α) (options : Value α) : Input α where
  objective := objective.value p.objective
  start := .ofList p.start
  inequalityRows := p.inequalities.matrix
  inequalityRhs := .ofList p.inequalities.rhs
  equalityRows := p.equalities.matrix
  equalityRhs := .ofList p.equalities.rhs
  lower := .ofList p.bounds.lower
  upper := .ofList p.bounds.upper
  constraints := constraints.value p.constraints
  options := options

variable [Scalar α] [Interchange α]

/-- A problem that is passed as an input is the one that the input states. -/
theorem Input.stated_toInput {p : Problem α} {n : Nat} (hp : p.Fits n) (hn : 0 < n)
    (hobjective : p.objective.isSome) (source : String) (g h : Guise α) (options : Value α) :
    (p.toInput g h options).stated source = .ok p := by
  obtain ⟨f, hf⟩ := Option.isSome_iff_exists.1 hobjective
  have hstart : readStart source (.ofList p.start) = .ok p.start :=
    readStart_ofList (hn.trans_eq hp.length_start.symm)
  have hconstraints : readConstraints source (h.value p.constraints) = .ok p.constraints := by
    cases p.constraints <;> rfl
  have hread : statedObjective source (g.value p.objective) = .ok f := by
    rw [hf]
    rfl
  simp only [Input.stated, bind_eq_ok, pure_eq_ok]
  refine ⟨f, hread, p.start, hstart, p.inequalities, ?_, p.equalities, ?_, p.bounds, ?_, p.constraints,
    hconstraints, by rw [← hf]⟩
  · rw [hp.length_start]
    exact LinearSystem.read_matrix hp.inequalities hn
  · rw [hp.length_start]
    exact LinearSystem.read_matrix hp.equalities hn
  · rw [hp.length_start]
    exact Bounds.read_ofList hn hp.length_lower hp.length_upper

end

/-! ## Barriers -/

section

variable {α : Type} [Scalar α] {source : String}

namespace Barrier

/-- A number that was read is read again as it is. -/
theorem readObjective_real {output : Value α} {a : α} (h : readObjective source output = .ok a) :
    readObjective source (.real a) = .ok a := by
  have hfixed : objectiveValue a = a := by
    unfold readObjective at h
    split at h
    · cases h
      exact objectiveValue_objectiveValue _
    · cases h
  exact congrArg Except.ok hfixed

/-- An objective behind the barrier returns numbers that the barrier lets through. -/
theorem objective_objective (f : Evaluator α) : objective source (objective source f) = objective source f := by
  funext x
  cases hf : f x with
  | error e => simp [objective, hf, bind, Except.bind]
  | ok output =>
    cases ha : readObjective source output with
    | error e => simp [objective, hf, ha, bind, Except.bind]
    | ok a => simp [objective, hf, ha, readObjective_real ha, bind, Except.bind, pure, Except.pure]

theorem realParts?_ofList (xs : List α) : (Value.ofList xs).realParts? = some xs := by
  show some (((xs.map Cell.real).map (Value.entry .real)).map fun leaf => leaf.toCell.realPart) = some xs
  rw [List.map_map, List.map_map]
  exact congrArg some (List.map_id xs)

variable [SteadyScalar α]

/-- A part that was read is read again as it is. -/
theorem readPart_ofList {part : Value α} {xs : List α} (h : readPart source part = .ok xs) :
    readPart source (.ofList xs) = .ok xs := by
  have hfixed : xs.map constraintValue = xs := by
    unfold readPart at h
    split at h
    · cases h
      rfl
    · split at h
      · cases h
        rw [List.map_map]
        exact List.map_congr_left fun x _ => constraintValue_constraintValue x
      · cases h
  rw [readPart, if_neg (by simp [Value.ofList, Value.isAbsent]), realParts?_ofList]
  exact congrArg Except.ok hfixed

theorem readConstraints_tuple {output : Value α} {ineq eq : List α}
    (h : readConstraints source output = .ok (ineq, eq)) :
    readConstraints source (.tuple [.ofList ineq, .ofList eq]) = .ok (ineq, eq) := by
  have hparts : ∃ first second, readPart source first = .ok ineq ∧ readPart source second = .ok eq := by
    unfold readConstraints at h
    split at h
    · next first second =>
      simp only [bind_eq_ok, pure_eq_ok, Prod.mk.injEq] at h
      obtain ⟨_, hfirst, _, hsecond, rfl, rfl⟩ := h
      exact ⟨first, second, hfirst, hsecond⟩
    · next first second =>
      simp only [bind_eq_ok, pure_eq_ok, Prod.mk.injEq] at h
      obtain ⟨_, hfirst, _, hsecond, rfl, rfl⟩ := h
      exact ⟨first, second, hfirst, hsecond⟩
    · cases h
  obtain ⟨first, second, hfirst, hsecond⟩ := hparts
  simp only [readConstraints, readPart_ofList hfirst, readPart_ofList hsecond]
  rfl

/-- Constraints behind the barrier return numbers that the barrier lets through. -/
theorem constraints_constraints (c : Evaluator α) :
    constraints source (constraints source c) = constraints source c := by
  funext x
  cases hc : c x with
  | error e => simp [constraints, hc, bind, Except.bind]
  | ok output =>
    cases hparts : readConstraints source output with
    | error e => simp [constraints, hc, hparts, bind, Except.bind]
    | ok parts =>
      simp [constraints, hc, hparts, readConstraints_tuple hparts, bind, Except.bind, pure, Except.pure]

end Barrier

namespace Problem

variable [SteadyScalar α]

theorem guarded_guarded (p : Problem α) : (p.guarded source).guarded source = p.guarded source := by
  simp only [guarded, Option.map_map, Function.comp_def, Barrier.objective_objective,
    Barrier.constraints_constraints]

omit [SteadyScalar α] in
/-- Functions behind barriers are still behind them in the free variables. -/
theorem guarded_reducedBy {p : Problem α} (h : p.guarded source = p) (e : Elimination α) :
    (p.reducedBy e).guarded source = p.reducedBy e := by
  have hobjective : Barrier.objective source (e.onFree p.objective) = e.onFree p.objective := by
    have hp : p.objective.map (Barrier.objective source) = p.objective := congrArg Problem.objective h
    cases hf : p.objective with
    | none =>
      -- whatever is missing is not called, be it behind a barrier or not
      funext y
      cases hx : e.expand y with
      | error x => simp [Barrier.objective, Elimination.onFree, hx, bind, Except.bind]
      | ok x =>
        simp [Barrier.objective, Elimination.onFree, hx, bind, Except.bind]
        rfl
    | some f =>
      rw [hf] at hp
      funext y
      have hf (x : List α) : Barrier.objective source f x = f x := congrFun (Option.some.inj hp) x
      simp only [Barrier.objective, Elimination.onFree, bind_assoc] at hf ⊢
      simp only [hf]
  have hconstraints : (p.constraints.map fun c => e.onFree (some c)).map (Barrier.constraints source)
      = p.constraints.map fun c => e.onFree (some c) := by
    have hp : p.constraints.map (Barrier.constraints source) = p.constraints :=
      congrArg Problem.constraints h
    cases hc : p.constraints with
    | none => rfl
    | some c =>
      rw [hc] at hp
      refine congrArg some (funext fun y => ?_)
      have hc (x : List α) : Barrier.constraints source c x = c x := congrFun (Option.some.inj hp) x
      simp only [Barrier.constraints, Elimination.onFree, bind_assoc] at hc ⊢
      simp only [hc]
  simp only [guarded, reducedBy, Option.map_some, hobjective, hconstraints]

end Problem

/-! ## Rows -/

namespace CheckedSystem

variable (name : SystemName) {s : LinearSystem α} {n : Nat}

/-- Among the rows that were kept none is trivial. -/
theorem trivial_ofSystem_system (s : LinearSystem α) : (ofSystem name (ofSystem name s).system).trivial.any id = false := by
  simp only [ofSystem]
  rw [← Mask.select_zipWith]
  exact Mask.any_select_others_self _

/-- The rows that were kept are kept again. -/
theorem ofSystem_system (hs : s.Fits n) :
    (ofSystem name (ofSystem name s).system).system = (ofSystem name s).system := by
  have hfits : (ofSystem name s).system.Fits n := hs.checked
  have hkept : (Mask.others (ofSystem name (ofSystem name s).system).trivial).all id = true := by
    rw [Mask.others, List.all_map, List.all_eq_not_any_not]
    simpa [Function.comp_def] using trivial_ofSystem_system name s
  have hlen : (Mask.others (ofSystem name (ofSystem name s).system).trivial).length
      = (ofSystem name s).system.rows.length := by
    rw [Mask.length_others]
    show (List.zipWith _ _ _).length = _
    rw [List.length_zipWith, hfits.length_rhs, Nat.min_self]
  have hrows := Mask.select_of_all hlen hkept
  have hrhs := Mask.select_of_all (hlen.trans hfits.length_rhs.symm) hkept
  exact congrArg₂ LinearSystem.mk hrows hrhs

/-- Infeasible rows are kept, so the rows that are kept decide whether there are any. -/
theorem infeasible_ofSystem_system [SteadyScalar α] :
    (ofSystem name (ofSystem name s).system).infeasible.any id = (ofSystem name s).infeasible.any id := by
  simp only [ofSystem]
  rw [← Mask.select_zipWith]
  exact Mask.any_select_others_zipWith (fun _ _ => SystemName.not_isInfeasible_of_isTrivial) s.rows s.rhs

end CheckedSystem

end

end Presolve
