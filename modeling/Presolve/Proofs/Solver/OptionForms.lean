import Presolve.Proofs.Solver.Settled

/-!
# Options in fields and in a dictionary

Options can be passed in fields, or as the dictionary of the fields that are given (`Value.givenFields`).
The two are read apart: of fields every one counts that is not absent, and a solver among them is taken by
its name; of a dictionary every entry counts that is not empty. So a dictionary is resolved as the fields are
in which all that is empty is left out (`resolveOptions_givenFields`), and as the fields themselves unless
one of them is given something empty, an empty list say, which is an invalid value there and none at all in
a dictionary.
-/

namespace Presolve

variable {α : Type}

namespace Value

/-- The dictionary of the fields that are given. -/
def givenFields (fields : OptionName → Value α) : Entries α :=
  OptionName.all.filterMap fun name =>
    if (fields name).isAbsent then none else some (text name.key, fields name)

/-- The value, or none at all in place of an empty one. -/
def orAbsent (v : Value α) : Value α := if v.isEmpty then absent else v

/-- What counts of a value in a dictionary: anything that is not empty. -/
def counted? (v : Value α) : Option (Value α) := if v.isEmpty then none else some v

theorem isEmpty_of_isAbsent {v : Value α} (h : v.isAbsent = true) : v.isEmpty = true := by
  cases v with
  | absent => rfl
  | _ => cases h

/-- The fields that count in a dictionary. -/
theorem kept_givenFields (fields : OptionName → Value α) :
    (givenFields fields).filter (fun entry => !entry.2.isEmpty)
      = OptionName.all.filterMap fun name => (fields name).counted?.map (text name.key, ·) := by
  rw [givenFields, List.filter_filterMap]
  refine List.filterMap_congr fun name _ => ?_
  rw [counted?]
  cases hempty : (fields name).isEmpty with
  | true =>
    cases (fields name).isAbsent with
    | true => rfl
    | false => simp [Option.filter, hempty]
  | false =>
    have hgiven : (fields name).isAbsent = false := by
      by_contra habsent
      rw [isEmpty_of_isAbsent (eq_true_of_ne_false habsent)] at hempty
      cases hempty
    simp [hgiven, Option.filter, hempty]

/-- Only what is empty is left out. -/
theorem orAbsent_eq {v : Value α} (h : v.isEmpty = true → v = absent) : v.orAbsent = v := by
  rw [orAbsent]
  split
  · next hempty => exact (h hempty).symm
  · rfl

end Value

namespace Resolution

variable [Scalar α] [Interchange α]

omit [Scalar α] in
/-- Only the keys decide what is reported as unknown. -/
theorem checkUnknown_congr {c : Context α} {entries : Entries α} {s? : Option Solver}
    (hkeys : entries.map (·.1) = c.entries.map (·.1)) :
    checkUnknown { c with entries } s? = checkUnknown c s? := by
  simp only [checkUnknown, hkeys]
  rfl

/-- What is written down for a field is read like the field itself. -/
theorem rel_written? {v : Value α} (h : v ≠ .absent) : Option.Rel ReadAlike v.written? (some v) := by
  cases v with
  | absent => exact absurd rfl h
  | solver s => exact .some ⟨rfl, rfl, requestedName_text s.name⟩
  | _ => exact .some (.refl _)

/-- What is not empty counts in both forms, and is read alike. -/
theorem rel_written?_orAbsent (v : Value α) : Option.Rel ReadAlike v.orAbsent.written? v.counted? := by
  rw [Value.orAbsent, Value.counted?]
  cases hempty : v.isEmpty with
  | true => exact .none
  | false =>
    refine rel_written? ?_
    rintro rfl
    cases hempty

end Resolution

/-- A dictionary of the fields that are given is resolved as the fields without what is empty, with the same
result or fault and the same diagnostics in the same order, and as the fields themselves if none is given
something empty. -/
theorem resolveOptions_givenFields [Scalar α] [Interchange α] (invoker : Invoker)
    (fields : OptionName → Value α) (n : Nat) (bounds : Bounds α) :
    resolveOptions invoker (.mapping (Value.givenFields fields)) n bounds
      = resolveOptions invoker (.options fun name => (fields name).orAbsent) n bounds ∧
    ((∀ name, (fields name).isEmpty = true → fields name = .absent) →
      resolveOptions invoker (.mapping (Value.givenFields fields)) n bounds
        = resolveOptions invoker (.options fields) n bounds) := by
  have hforms : resolveOptions invoker (.mapping (Value.givenFields fields)) n bounds
      = resolveOptions invoker (.options fun name => (fields name).orAbsent) n bounds := by
    have hfind (name : OptionName) := Resolution.rel_written?_orAbsent (fields name)
    simp only [resolveOptions, readEntries, Value.kept_givenFields, Value.setOptions_eq]
    refine (Resolution.settings_of_alike (c := ⟨invoker, n, bounds, _⟩) ?_ ?_).symm
    · intro name
      rw [Resolution.FoundAlike, Resolution.Context.find?, Resolution.Context.find?,
        Value.lookup?_filterMap_key, Value.lookup?_filterMap_key, if_pos name.mem_all, if_pos name.mem_all]
      exact hfind name
    · intro s?
      refine Resolution.checkUnknown_congr ?_
      rw [List.map_filterMap, List.map_filterMap]
      refine List.filterMap_congr fun name _ => ?_
      -- a field counts in both forms or in neither
      rcases Resolution.rel_cases (hfind name) with ⟨hfield, hentry⟩ | ⟨v, w, hfield, hentry, -⟩
      · rw [hfield, hentry]
      · rw [hfield, hentry]
        rfl
  refine ⟨hforms, fun hnone => ?_⟩
  rw [hforms, funext fun name => Value.orAbsent_eq (hnone name)]

/-- A solver, a budget that is no number, and points that the front end does not know as an option. -/
def fieldsOfEveryKind : OptionName → Value (Extended ℚ)
  | .solver => .solver .cobyla
  | .maxfun => .text "many"
  | .npt => .array ⟨.int, .vector [.int 5]⟩
  | _ => .absent

theorem resolveOptions_givenFields_fieldsOfEveryKind :
    (∀ name, (fieldsOfEveryKind name).isEmpty = true → fieldsOfEveryKind name = .absent) ∧
      resolveOptions .frontEnd (.mapping (Value.givenFields fieldsOfEveryKind)) 2 (.free 2)
        = resolveOptions .frontEnd (.options fieldsOfEveryKind) 2 (.free 2) := by
  have hnone (name : OptionName) (h : (fieldsOfEveryKind name).isEmpty = true) :
      fieldsOfEveryKind name = .absent := by
    cases name with
    | solver | maxfun | npt => exact absurd h (by decide)
    | _ => rfl
  exact ⟨hnone, (resolveOptions_givenFields .frontEnd fieldsOfEveryKind 2 (.free 2)).2 hnone⟩

/-- An empty list for the first radius. -/
def emptyRadius (name : OptionName) : Value (Extended ℚ) := if name = .rhobeg then .list [] else .absent

/-- The tags of what a resolution with the front end for two variables without bounds reports. -/
def reportedTags (options : Value (Extended ℚ)) : List String :=
  (Prep.run none (resolveOptions .frontEnd options 2 (.free 2))).2.log.entries.map (·.anomaly.tag)

/-- The fields and the dictionary of them can be resolved differently: an empty list for a radius is reported
as invalid in the fields, and in the dictionary it is not seen. -/
theorem exists_fields_resolved_otherwise :
    reportedTags (.options emptyRadius) = ["InvalidRhobeg"] ∧
      reportedTags (.mapping (Value.givenFields emptyRadius)) = [] ∧
      resolveOptions .frontEnd (.options emptyRadius) 2 (.free 2)
        ≠ resolveOptions .frontEnd (.mapping (Value.givenFields emptyRadius)) 2 (.free 2) := by
  have hfields : reportedTags (.options emptyRadius) = ["InvalidRhobeg"] := by decide +kernel
  have hentries : reportedTags (.mapping (Value.givenFields emptyRadius)) = [] := by decide +kernel
  refine ⟨hfields, hentries, fun h => ?_⟩
  rw [reportedTags, h] at hfields
  rw [reportedTags, hfields] at hentries
  cases hentries

end Presolve
