import Presolve.Proofs.Number.Conversion
import Presolve.Proofs.Number.DoubleValues
import Presolve.Proofs.Number.Steady
import Presolve.Proofs.Value.Sound

/-!
# What the barriers keep

Behind the barriers an objective is a number and constraints are two vectors, whatever a caller's functions
return, unless it is no number at all. What they return keeps its meaning: objectives are in the same order,
constraints have the same signs, and a value without a meaning looks as bad as can be
(`Barrier.answers_keep_meaning`).

What is kept of a number is its order and its sign. The number itself is kept if there is one of its value;
an integer with too many digits is rounded (`Barrier.exists_rounded_objective`).
-/

namespace Presolve

open Scalar Extended ValuedScalar

section

variable {α : Type} [Scalar α] [ValuedScalar α]

/-! ## Real parts -/

/-- The real part of an entry that is a number, before it becomes one of the numbers of a solver. -/
noncomputable def Cell.exactPart : Cell α → Extended ℝ
  | .bool b => finite (if b then 1 else 0)
  | .int i => finite i
  | .real x => value x
  | .complex re _ => value re
  | _ => .undefined

/-- The exact real parts of the numbers that a value consists of, in row-major order. -/
noncomputable def Value.exactParts? (v : Value α) : Option (List (Extended ℝ)) :=
  v.numericNest?.map fun nest => nest.leaves.entries.map fun leaf => leaf.toCell.exactPart

theorem CellType.width_le_of_isNumeric {type : CellType} (h : type.isNumeric = true) : type.width ≤ 4 := by
  cases type with
  | bool | bytes | text | object => cases h
  | byte | int | nat | single | real | complex => decide

/-- A flag is one or zero. -/
theorem converts_bool (b : Bool) : Converts (finite (if b then 1 else 0)) (if b then 1 else 0 : α) := by
  cases b with
  | false =>
    have h := Converts.number (0 : α)
    rwa [value_zero] at h
  | true =>
    have h := Converts.number (1 : α)
    rwa [value_one] at h

/-- The real part of a number in an array is what its exact real part becomes. -/
theorem Cell.converts {cell : Cell α} {type : CellType} (h : cell.isOf type = true)
    (hwidth : type.width ≤ 4) : Converts cell.exactPart cell.realPart := by
  cases cell with
  | bool b => exact converts_bool b
  | int i => exact .integer (fits_of_isOf h hwidth)
  | real x => exact .number x
  | complex re _ => exact .number re
  | text | bytes | absent | opaqueItem =>
    cases type with
    | bytes | text | object => exact absurd hwidth (by decide)
    | _ => cases h

theorem Value.converts {leaf : Value α} (h : leaf.isSound = true) (hwidth : leaf.leafType.width ≤ 4) :
    Converts leaf.toCell.exactPart leaf.toCell.realPart := by
  cases leaf with
  | bool b => exact converts_bool b
  | int i =>
    refine .integer (fits_of_natAbs_le (CellType.natAbs_le_of_ofInt ?_))
    have hwidth : (CellType.ofInt i).width ≤ 4 := hwidth
    unfold CellType.ofInt at hwidth ⊢
    split_ifs at hwidth ⊢ <;> first | decide | exact absurd hwidth (by decide)
  | real x => exact .number x
  | complex re _ => exact .number re
  | entry type cell =>
    rw [isSound] at h
    exact Cell.converts h hwidth
  | _ => simp [leafType, CellType.width] at hwidth

/-- The numbers of a sound value are read one by one. -/
theorem Value.realParts?_converts {v : Value α} (hv : v.isSound = true) :
    v.exactParts? = none ∧ v.realParts? = none ∨
      ∃ rs xs, v.exactParts? = some rs ∧ v.realParts? = some xs ∧ List.Forall₂ Converts rs xs := by
  unfold exactParts? realParts?
  cases hnumeric : v.numericNest? with
  | none => exact .inl ⟨rfl, rfl⟩
  | some nest =>
    obtain ⟨hnest, htype⟩ := Option.filter_eq_some_iff.1 hnumeric
    refine .inr ⟨_, _, rfl, rfl, ?_⟩
    rw [List.forall₂_map_left_iff, List.forall₂_map_right_iff, List.forall₂_same]
    intro leaf hleaf
    obtain ⟨hsound, hwidth⟩ := nest?_holds hv hnest leaf hleaf
    exact converts hsound (hwidth.trans (CellType.width_le_of_isNumeric htype))

/-- A function that returns sound values only. -/
def Evaluator.IsSound (f : Evaluator α) : Prop := ∀ x output, f x = .ok output → output.isSound = true

namespace Barrier

/-! ## Objectives -/

/-- The number that a solver sees for an objective with the given real part. -/
structure ShowsObjective (r : Extended ℝ) (y : α) : Prop where
  atMost : value y ≤ finite (2 ^ 100)
  /-- A number that is at most the barrier value stays. -/
  kept : ∀ x : α, value x = r → r ≤ finite (2 ^ 100) → value y = r
  nearest : r ≤ finite (2 ^ 100) → IsNearest y r
  barrier : ¬r ≤ finite (2 ^ 100) → value y = finite (2 ^ 100)

/-- What a solver is told for what an objective returned: a number if it is one, and a complaint if
not. -/
structure AnswersObjective (invoker : String) (output : Value α) (answer : Except Fault (Value α)) : Prop where
  fails_iff : answer = .error (.invalid .objectiveNotScalar invoker) ↔ ¬∃ r, output.exactParts? = some [r]
  returns : ∀ r, output.exactParts? = some [r] → ∃ y, answer = .ok (.real y) ∧ ShowsObjective r y

variable {r r' : Extended ℝ} {x x' : α}

theorem isUndefined_or_huge_lt_iff : isUndefined x = true ∨ huge < x ↔ ¬value x ≤ finite (2 ^ 100) := by
  rw [← value_huge (α := α), value_le_iff]
  by_cases hx : x ≤ x
  · simp [isUndefined, hx, ← OrderedScalar.not_lt huge_defined hx]
  · have hnot : ¬x ≤ huge := fun h => hx (value_le_iff.1 (defined_left (value_le_iff.2 h)))
    simp [isUndefined, hx, hnot]

theorem objectiveValue_of_le (h : value x ≤ finite (2 ^ 100)) : objectiveValue x = x :=
  if_neg fun hbad => isUndefined_or_huge_lt_iff.1 hbad h

theorem objectiveValue_of_not_le (h : ¬value x ≤ finite (2 ^ 100)) : objectiveValue x = huge :=
  if_pos (isUndefined_or_huge_lt_iff.2 h)

theorem value_objectiveValue_le (x : α) : value (objectiveValue x) ≤ finite (2 ^ 100) := by
  by_cases h : value x ≤ finite (2 ^ 100)
  · rwa [objectiveValue_of_le h]
  · rw [objectiveValue_of_not_le h, value_huge, finite_le]

/-- What a real part becomes is shown as the barrier demands. -/
theorem showsObjective (h : Converts r x) : ShowsObjective r (objectiveValue x) := by
  have hkept (hr : r ≤ finite (2 ^ 100)) : objectiveValue x = x := by
    rw [← value_huge (α := α)] at hr
    have hx := h.isNearest.value_le hr
    rw [value_huge] at hx
    exact objectiveValue_of_le hx
  refine ⟨value_objectiveValue_le x, fun z hz hr => ?_, fun hr => ?_, fun hr => ?_⟩
  · rw [hkept hr, ← hz]
    exact (hz ▸ h.isNearest).value_eq
  · rw [hkept hr]
    exact h.isNearest
  · by_cases hx : value x ≤ finite (2 ^ 100)
    · -- the value is above the barrier value, so the number is not below it
      have hdefined : r ≤ r := by
        have hne : r ≠ .undefined := fun hr => by simp [h.undefined_iff.2 hr] at hx
        cases r <;> simp_all
      have hhuge : value (huge : α) ≤ value x := by
        refine h.isNearest.le_value ?_
        rw [value_huge]
        exact (Extended.le_total hdefined ((finite_le _ _).2 le_rfl)).resolve_left hr
      rw [value_huge] at hhuge
      rw [objectiveValue_of_le hx]
      exact Extended.le_antisymm hx hhuge
    · rw [objectiveValue_of_not_le hx, value_huge]

/-- Greater real parts do not look better, and undefined ones look worst. -/
theorem objectiveValue_mono (h : Converts r x) (h' : Converts r' x') (hle : r ≤ r' ∨ r' = .undefined) :
    value (objectiveValue x) ≤ value (objectiveValue x') := by
  by_cases hx' : value x' ≤ finite (2 ^ 100)
  · have hdefined : r' ≠ .undefined := fun hr => by simp [h'.undefined_iff.2 hr] at hx'
    have hvalue := h.value_le_value h' (hle.resolve_right hdefined)
    rwa [objectiveValue_of_le hx', objectiveValue_of_le (Extended.le_trans hvalue hx')]
  · rw [objectiveValue_of_not_le hx', value_huge]
    exact value_objectiveValue_le x

/-- An objective is read if it is a single number. -/
theorem readObjective_cases (invoker : String) {output : Value α} (hsound : output.isSound = true) :
    (¬∃ r, output.exactParts? = some [r]) ∧
        readObjective invoker output = .error (.invalid .objectiveNotScalar invoker) ∨
      ∃ r x, output.exactParts? = some [r] ∧ readObjective invoker output = .ok (objectiveValue x) ∧
        Converts r x := by
  unfold readObjective
  rcases Value.realParts?_converts hsound with ⟨hexact, hparts⟩ | ⟨rs, xs, hexact, hparts, hconverts⟩ <;>
    rw [hexact, hparts]
  · exact .inl ⟨by simp, rfl⟩
  · cases hconverts with
    | nil => exact .inl ⟨by simp, rfl⟩
    | cons hfirst hrest =>
      cases hrest with
      | nil => exact .inr ⟨_, _, rfl, rfl, hfirst⟩
      | cons _ _ => exact .inl ⟨by simp, rfl⟩

omit [ValuedScalar α] in
theorem objective_eq (invoker : String) {f : Evaluator α} {x : List α} {output : Value α}
    (h : f x = .ok output) : objective invoker f x = (readObjective invoker output).map .real := by
  rw [objective, h]
  rfl

/-- Objectives behind the barrier are numbers exactly if the caller's are single numbers. -/
theorem objective_answers (invoker : String) {f : Evaluator α} (hf : f.IsSound) {x : List α}
    {output : Value α} (h : f x = .ok output) : AnswersObjective invoker output (objective invoker f x) := by
  rw [objective_eq invoker h]
  rcases readObjective_cases invoker (hf x output h) with ⟨hnone, hread⟩ | ⟨r, y, hexact, hread, hconverts⟩ <;>
    rw [hread]
  · exact ⟨iff_of_true rfl hnone, fun r hr => absurd ⟨r, hr⟩ hnone⟩
  · refine ⟨iff_of_false (fun h => by cases h) fun hnone => hnone ⟨r, hexact⟩, fun r' hr' => ?_⟩
    obtain rfl : r = r' := by simpa [hexact] using hr'
    exact ⟨_, rfl, showsObjective hconverts⟩

/-- At a point, the objective has a real part and a solver sees a number. -/
structure ObjectiveAt (invoker : String) (f : Evaluator α) (x : List α) (r : Extended ℝ) (y : α) : Prop where
  exact : ∃ output, f x = .ok output ∧ output.exactParts? = some [r]
  shown : objective invoker f x = .ok (.real y)

theorem ObjectiveAt.converts {invoker : String} {f : Evaluator α} (hf : f.IsSound) {x : List α} {y : α}
    (h : ObjectiveAt invoker f x r y) : ∃ z, y = objectiveValue z ∧ Converts r z := by
  obtain ⟨⟨output, houtput, hexact⟩, hshown⟩ := h
  rw [objective_eq invoker houtput] at hshown
  rcases readObjective_cases invoker (hf x output houtput) with ⟨hnone, -⟩ | ⟨r', z, hexact', hread, hconverts⟩
  · exact absurd ⟨r, hexact⟩ hnone
  · obtain rfl : r' = r := by simpa [hexact'] using hexact
    rw [hread] at hshown
    cases hshown
    exact ⟨z, rfl, hconverts⟩

/-! ## Constraints -/

/-- The number that a solver sees for a constraint with the given real part. -/
structure ShowsConstraint (r : Extended ℝ) (y : α) : Prop where
  between : finite (-2 ^ 100) ≤ value y ∧ value y ≤ finite (2 ^ 100)
  negative_iff : value y < finite 0 ↔ r < finite 0
  zero_iff : value y = finite 0 ↔ r = finite 0
  /-- What is undefined is a violation. -/
  positive_iff : finite 0 < value y ↔ finite 0 < r ∨ r = .undefined
  nearest : finite (-2 ^ 100) ≤ r → r ≤ finite (2 ^ 100) → IsNearest y r

theorem constraintValue_of_undefined (h : value x = .undefined) : constraintValue x = huge := by
  have hx : isUndefined x = true := by simpa [isUndefined, defined_iff] using h
  have hneg : isUndefined (-huge : α) = false := by simpa [isUndefined] using neg_huge_defined
  rw [constraintValue, if_pos hx, clamp_upper hneg]

omit [ValuedScalar α] in
theorem constraintValue_of_defined (h : x ≤ x) : constraintValue x = clamp (-huge) huge x := by
  rw [constraintValue, if_neg (by simpa [isUndefined] using h)]

/-- Moved between the barrier values, a number keeps its sign. -/
theorem clamp_huge_sign (h : x ≤ x) :
    (value (clamp (-huge) huge x) ≤ finite 0 ↔ value x ≤ finite 0) ∧
      (finite 0 ≤ value (clamp (-huge) huge x) ↔ finite 0 ≤ value x) := by
  have hbelow : (-huge : α) < 0 := by
    rw [← value_lt_iff, value_neg_huge, value_zero, finite_lt]
    norm_num
  have habove : (0 : α) < huge := by
    rw [← value_lt_iff, value_huge, value_zero, finite_lt]
    norm_num
  rw [OrderedScalar.lt_iff] at hbelow habove
  rw [← value_zero (α := α), value_le_iff, value_le_iff, value_le_iff, value_le_iff,
    OrderedScalar.clamp_le_iff neg_huge_defined huge_defined h,
    OrderedScalar.le_clamp_iff neg_huge_defined huge_defined h]
  simp [hbelow, habove]

/-- What a real part becomes is shown as the barrier demands. -/
theorem showsConstraint (h : Converts r x) : ShowsConstraint r (constraintValue x) := by
  have hroom : (-huge : α) ≤ huge := by
    rw [← value_le_iff, value_neg_huge, value_huge, finite_le]
    norm_num
  by_cases hr : r = .undefined
  · rw [constraintValue_of_undefined (h.undefined_iff.2 hr), hr]
    refine ⟨?_, ?_, ?_, ?_, fun hlow => absurd hlow (not_le_undefined _)⟩ <;> rw [value_huge]
    · exact ⟨(finite_le _ _).2 (by norm_num), (finite_le _ _).2 le_rfl⟩
    · exact iff_of_false (by simp) (not_undefined_lt _)
    · simp
    · exact iff_of_true ((finite_lt _ _).2 (by norm_num)) (.inr rfl)
  · have hx : x ≤ x := defined_iff.2 fun hx => hr (h.undefined_iff.1 hx)
    obtain ⟨hle, hge⟩ := clamp_huge_sign hx
    rw [h.le_zero_iff] at hle
    rw [h.zero_le_iff] at hge
    obtain ⟨hlow, hhigh⟩ := OrderedScalar.clamp_between neg_huge_defined huge_defined hx hroom
    have hbetween := And.intro (value_le_iff.2 hlow) (value_le_iff.2 hhigh)
    rw [value_neg_huge, value_huge] at hbetween
    rw [constraintValue_of_defined hx]
    refine ⟨hbetween, ?_, ?_, ?_, fun hlow hhigh => ?_⟩
    · rw [Extended.lt_iff, Extended.lt_iff, hle, hge]
    · rw [eq_finite_iff, eq_finite_iff, hle, hge]
    · rw [Extended.lt_iff, Extended.lt_iff, hle, hge, or_iff_left hr]
    · rw [← value_neg_huge (α := α)] at hlow
      rw [← value_huge (α := α)] at hhigh
      refine h.isNearest.congr ?_
      rw [value_clamp, clamp, atLeast_eq_self (h.isNearest.le_value hlow),
        atMost_eq_self (h.isNearest.value_le hhigh)]

end Barrier

/-! ## Pairs of vectors -/

/-- The exact real parts of one of the vectors that constraints return; an absent one is empty. -/
noncomputable def Value.exactVector? (part : Value α) : Option (List (Extended ℝ)) :=
  if part.isAbsent then some [] else part.exactParts?

omit [Scalar α] [ValuedScalar α] in
/-- The parts of a sequence of two values. -/
def Value.pair? : Value α → Option (Value α × Value α)
  | .list [ineq, eq] | .tuple [ineq, eq] => some (ineq, eq)
  | _ => none

/-- The exact real parts of both vectors that constraints return. -/
noncomputable def Value.exactPair? (output : Value α) : Option (List (Extended ℝ) × List (Extended ℝ)) := do
  let (ineq, eq) ← output.pair?
  return (← ineq.exactVector?, ← eq.exactVector?)

omit [Scalar α] [ValuedScalar α] in
theorem Value.isSound_pair {output ineq eq : Value α} (h : output.pair? = some (ineq, eq))
    (hsound : output.isSound = true) : ineq.isSound = true ∧ eq.isSound = true := by
  unfold pair? at h
  split at h <;> cases h
  all_goals simpa [isSound, areSound] using hsound

namespace Barrier

omit [ValuedScalar α] in
theorem readConstraints_eq (invoker : String) (output : Value α) :
    readConstraints invoker output = match output.pair? with
      | some (ineq, eq) => do return (← readPart invoker ineq, ← readPart invoker eq)
      | none => .error (.invalid .constraintNotNumeric invoker) := by
  unfold readConstraints Value.pair?
  split <;> simp_all

/-- One of the vectors is shown number by number, if it consists of numbers. -/
theorem readPart_answers (invoker : String) {part : Value α} (hpart : part.isSound = true) :
    part.exactVector? = none ∧ readPart invoker part = .error (.invalid .constraintNotNumeric invoker) ∨
      ∃ rs ys, part.exactVector? = some rs ∧ readPart invoker part = .ok ys ∧
        List.Forall₂ ShowsConstraint rs ys := by
  unfold Value.exactVector? readPart
  split
  · exact .inr ⟨[], [], rfl, rfl, .nil⟩
  · rcases Value.realParts?_converts hpart with ⟨hexact, hparts⟩ | ⟨rs, xs, hexact, hparts, hconverts⟩
    · exact .inl ⟨hexact, by rw [hparts]⟩
    · refine .inr ⟨rs, xs.map constraintValue, hexact, by rw [hparts], ?_⟩
      rw [List.forall₂_map_right_iff]
      exact hconverts.imp fun _ _ h => showsConstraint h

/-! ## Feasibility -/

/-- Inequalities that are at most zero, and equalities that are zero. -/
def IsFeasible (ineq eq : List (Extended ℝ)) : Prop := (∀ r ∈ ineq, r ≤ finite 0) ∧ ∀ r ∈ eq, r = finite 0

theorem ShowsConstraint.le_zero_iff {r : Extended ℝ} {y : α} (h : ShowsConstraint r y) :
    value y ≤ finite 0 ↔ r ≤ finite 0 := by
  have hsplit (x : Extended ℝ) : x ≤ finite 0 ↔ x < finite 0 ∨ x = finite 0 := by
    rw [Extended.lt_iff, eq_finite_iff, ← and_or_left, and_iff_left (em' _)]
  rw [hsplit, hsplit, h.negative_iff, h.zero_iff]

theorem isFeasible_iff {rs ss : List (Extended ℝ)} {ineq eq : List α}
    (hineq : List.Forall₂ ShowsConstraint rs ineq) (heq : List.Forall₂ ShowsConstraint ss eq) :
    IsFeasible (ineq.map value) (eq.map value) ↔ IsFeasible rs ss := by
  have hall {P : Extended ℝ → Prop} {rs : List (Extended ℝ)} {ys : List α}
      (h : List.Forall₂ (fun r y => P (value y) ↔ P r) rs ys) :
      (∀ v ∈ ys.map value, P v) ↔ ∀ r ∈ rs, P r := by
    induction h with
    | nil => simp
    | cons hfirst _ ih => rw [List.map_cons, List.forall_mem_cons, List.forall_mem_cons, hfirst, ih]
  exact and_congr (hall (hineq.imp fun _ _ h => h.le_zero_iff)) (hall (heq.imp fun _ _ h => h.zero_iff))

/-- What a solver is told for what constraints returned: two vectors if they are a pair of vectors, one by one
as the barrier demands, and a complaint if not. -/
structure AnswersConstraints (invoker : String) (output : Value α) (answer : Except Fault (Value α)) : Prop where
  fails_iff : answer = .error (.invalid .constraintNotNumeric invoker) ↔ output.exactPair? = none
  returns : ∀ rs ss, output.exactPair? = some (rs, ss) → ∃ ineq eq,
    answer = .ok (.tuple [.ofList ineq, .ofList eq]) ∧ List.Forall₂ ShowsConstraint rs ineq ∧
      List.Forall₂ ShowsConstraint ss eq ∧ (IsFeasible (ineq.map value) (eq.map value) ↔ IsFeasible rs ss)

/-- Constraints are read if they are a pair of vectors. -/
theorem readConstraints_cases (invoker : String) {output : Value α} (hsound : output.isSound = true) :
    output.exactPair? = none ∧
        readConstraints invoker output = .error (.invalid .constraintNotNumeric invoker) ∨
      ∃ rs ss ineq eq, output.exactPair? = some (rs, ss) ∧ readConstraints invoker output = .ok (ineq, eq) ∧
        List.Forall₂ ShowsConstraint rs ineq ∧ List.Forall₂ ShowsConstraint ss eq := by
  rw [readConstraints_eq, Value.exactPair?]
  cases hpair : output.pair? with
  | none => exact .inl ⟨rfl, rfl⟩
  | some parts =>
    obtain ⟨ineq, eq⟩ := parts
    obtain ⟨hineq, heq⟩ := Value.isSound_pair hpair hsound
    rcases readPart_answers invoker hineq with ⟨hexact, hread⟩ | ⟨rs, ys, hexact, hread, hshows⟩
    · exact .inl ⟨by simp [hexact], by simp [hread, bind, Except.bind]⟩
    · rcases readPart_answers invoker heq with ⟨hexact', hread'⟩ | ⟨ss, zs, hexact', hread', hshows'⟩
      · exact .inl ⟨by simp [hexact, hexact'], by simp [hread, hread', bind, Except.bind]⟩
      · exact .inr ⟨rs, ss, ys, zs, by simp [hexact, hexact'],
          by simp [hread, hread', bind, Except.bind, pure, Except.pure], hshows, hshows'⟩

/-- Constraints behind the barrier are two vectors exactly if the caller's are. -/
theorem constraints_answers (invoker : String) {c : Evaluator α} (hc : c.IsSound) {x : List α}
    {output : Value α} (h : c x = .ok output) :
    AnswersConstraints invoker output (constraints invoker c x) := by
  have hrun : constraints invoker c x = (readConstraints invoker output).map fun s =>
      .tuple [.ofList s.1, .ofList s.2] := by
    rw [constraints, h]
    rfl
  rw [hrun]
  rcases readConstraints_cases invoker (hc x output h) with
    ⟨hnone, hread⟩ | ⟨rs, ss, ineq, eq, hsome, hread, hineq, heq⟩ <;> rw [hread]
  · exact ⟨iff_of_true rfl hnone, by simp [hnone]⟩
  · refine ⟨iff_of_false (fun h => by cases h) (by simp [hsome]), fun rs' ss' hsome' => ?_⟩
    obtain ⟨rfl, rfl⟩ := Prod.mk.inj (Option.some.inj (hsome.symm.trans hsome'))
    exact ⟨ineq, eq, rfl, hineq, heq, isFeasible_iff hineq heq⟩

/-- Behind the barriers every function that returns is answered: with numbers if it returned numbers of the
right shape, and with a complaint if not. Objectives keep their order, and an undefined one is not better
than any other; constraints keep their signs, so the same points are feasible. -/
theorem answers_keep_meaning (invoker : String) {f c : Evaluator α} (hf : f.IsSound) (hc : c.IsSound) :
    (∀ x output, f x = .ok output → AnswersObjective invoker output (objective invoker f x)) ∧
      (∀ x x' r r' y y', ObjectiveAt invoker f x r y → ObjectiveAt invoker f x' r' y' →
        r ≤ r' ∨ r' = .undefined → value y ≤ value y') ∧
      ∀ x output, c x = .ok output → AnswersConstraints invoker output (constraints invoker c x) := by
  refine ⟨fun x output => objective_answers invoker hf, fun x x' r r' y y' h h' hle => ?_,
    fun x output => constraints_answers invoker hc⟩
  obtain ⟨z, rfl, hconverts⟩ := h.converts hf
  obtain ⟨z', rfl, hconverts'⟩ := h'.converts hf
  exact objectiveValue_mono hconverts hconverts' hle

end Barrier

end

namespace Barrier

/-! ## Doubles -/

/-- A function that returns one row with one number, the first of its point. -/
def nestedObjective : Evaluator Float := fun x => .ok (.list [.tuple [.real (x.headD 0)]])

/-- A function that returns no inequalities and two equalities, one of them undefined. -/
def halfDefinedConstraints : Evaluator Float := fun _ =>
  .ok (.tuple [.absent, .list [.real (infinity - infinity), .int (-2)]])

/-- An infinite objective is shown as the barrier value, and the undefined equality as a violation. -/
theorem answers_keep_meaning_halfDefinedConstraints :
    (∃ y, objective Invoker.frontEnd.name nestedObjective [infinity] = .ok (.real y) ∧
      value y = finite (2 ^ 100)) ∧
    ∃ violated negative, constraints Invoker.frontEnd.name halfDefinedConstraints []
        = .ok (.tuple [.ofList [], .ofList [violated, negative]]) ∧
      finite 0 < value violated ∧ value negative < finite 0 := by
  have hf : nestedObjective.IsSound := by
    rintro x output h
    cases h
    rfl
  have hc : halfDefinedConstraints.IsSound := by
    rintro x output h
    cases h
    rfl
  obtain ⟨hobjective, -, hconstraints⟩ := answers_keep_meaning Invoker.frontEnd.name hf hc
  constructor
  · obtain ⟨y, hy, hshows⟩ := (hobjective [infinity] _ rfl).returns (value infinity) rfl
    refine ⟨y, hy, hshows.barrier ?_⟩
    rw [value_infinity]
    exact not_top_le_finite _
  · have hundefined : value (infinity - infinity : Float) = .undefined := rfl
    obtain ⟨ineq, eq, hanswer, hineq, heq, -⟩ := (hconstraints [] _ rfl).returns []
      [value (infinity - infinity : Float), finite ((-2 : Int) : ℝ)] rfl
    obtain _ | ⟨hfirst, _ | ⟨hsecond, _ | _⟩⟩ := heq
    cases hineq
    refine ⟨_, _, hanswer, hfirst.positive_iff.2 (.inr hundefined), hsecond.negative_iff.2 ?_⟩
    rw [finite_lt]
    norm_num

/-- A function that returns an integer with more digits than a double has. -/
def longObjective : Evaluator Float := fun _ => .ok (.int 9007199254740993)

/-- No double has the value of the integer, so a solver sees another one. -/
theorem exists_rounded_objective : ∃ r y, ObjectiveAt Invoker.frontEnd.name longObjective [] r y ∧
    r ≤ finite (2 ^ 100) ∧ value y ≠ r := by
  have hkept : objectiveValue (ofFraction 9007199254740993 1 : Float) = ofFraction 9007199254740992 1 := by
    decide +kernel
  have hshown : objective Invoker.frontEnd.name longObjective []
      = .ok (.real (ofFraction 9007199254740992 1)) := by
    rw [← hkept]
    rfl
  have hvalue : value (ofFraction 9007199254740992 1 : Float) = finite 9007199254740992 := by
    have hunpacked : Binary64.unpacked (ofFraction 9007199254740992 1)
        = .finite .positive (2 ^ 52) 1 (by decide) := rfl
    show Binary64.number (Binary64.unpacked (ofFraction 9007199254740992 1)) = _
    rw [hunpacked, Binary64.number, Binary64.magnitude_eq]
    norm_num
  refine ⟨finite ((9007199254740993 : Int) : ℝ), _, ⟨⟨_, rfl, rfl⟩, hshown⟩, ?_, ?_⟩
  · rw [finite_le]
    norm_num
  · rw [hvalue, ne_eq, finite.injEq]
    norm_num

end Barrier
end Presolve
