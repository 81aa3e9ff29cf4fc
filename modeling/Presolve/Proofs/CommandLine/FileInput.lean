import Presolve.Proofs.CommandLine.ReadBack
import Presolve.Proofs.Json.Parsed
import Presolve.Proofs.Preparation.Dictionaries
import Presolve.Proofs.Preparation.Safety
import Presolve.Proofs.Record.CanonicalText

/-!
# Inputs that are read from files

A file holds no arrays, so its values are sound, they all have data, and the keys of its dictionaries are
different texts. No integer in it has too many digits, for such a file cannot be read. Its functions are the
sample functions, and constraints among them return wherever they are called. This is all that a preparation
asks of an input (`Input.IsFromFile`), except that options may still be too large.
-/

namespace Presolve.CommandLine

open Value

/-! ## Values -/

/-- Values as they are read of data: flags, integers that are not too long, reals, texts, lists, and
dictionaries whose keys are different texts. -/
inductive IsDatum : Value Float → Prop where
  | absent : IsDatum .absent
  | bool (b : Bool) : IsDatum (.bool b)
  | int {i : Int} (h : Decimal.isWritable i = true) : IsDatum (.int i)
  | real (x : Float) : IsDatum (.real x)
  | text (t : Text) : IsDatum (.text t)
  | list {items : List (Value Float)} (h : ∀ item ∈ items, IsDatum item) : IsDatum (.list items)
  | mapping {entries : Entries Float} (hkeys : ∀ entry ∈ entries, ∃ key, entry.1 = .text key)
    (hnodup : (entries.map fun entry => entry.1.text?).Nodup) (h : ∀ entry ∈ entries, IsDatum entry.2) :
    IsDatum (.mapping entries)

theorem isDatum_valueOfJson {text : Text → Value Float} (htext : ∀ t, IsDatum (text t)) {j : Json Float}
    (h : j.IsParsed) : IsDatum (valueOfJson text j) := by
  induction h with
  | null => exact .absent
  | bool b => exact .bool b
  | int h => exact .int h
  | real x => exact .real x
  | text t => exact htext t
  | array _ ih =>
    rw [valueOfJson, valuesOfJson_eq]
    exact .list (List.forall_mem_map.2 ih)
  | object hkeys _ ih =>
    rw [valueOfJson, entriesOfJson_eq]
    refine .mapping (List.forall_mem_map.2 fun field _ => ⟨field.1, rfl⟩) ?_ (List.forall_mem_map.2 ih)
    have htexts := hkeys.map (Option.some_injective Text)
    rw [List.map_map] at htexts ⊢
    exact htexts

theorem isDatum_plainValue {j : Json Float} (h : j.IsParsed) : IsDatum (plainValue j) :=
  isDatum_valueOfJson .text h

theorem isDatum_numericValue {j : Json Float} (h : j.IsParsed) : IsDatum (numericValue j) := by
  refine isDatum_valueOfJson (fun t => ?_) h
  cases number? t with
  | some x => exact .real x
  | none => exact .text t

namespace IsDatum

variable {v : Value Float}

theorem isSound (h : IsDatum v) : v.isSound = true := by
  induction h with
  | list _ ih => exact areSound_iff.2 ih
  | mapping hkeys _ _ ih =>
    refine areSoundEntries_iff.2 fun entry hentry => ⟨?_, ih entry hentry⟩
    obtain ⟨key, hkey⟩ := hkeys entry hentry
    rw [hkey]
    rfl
  | _ => rfl

/-- They have data, and these can be written. -/
theorem toJson_settles (h : IsDatum v) :
    Settles False (Json.HasNumbers (Decimal.isWritable · = true)) v.toJson := by
  induction h with
  | absent => exact .ok id .null
  | bool b => exact .ok id (.bool b)
  | int h => exact .ok id (.int h)
  | real x => exact .ok id (Json.hasNumbers_ofNumber x)
  | text t => exact .ok id (.text t)
  | list _ ih =>
    rw [toJson, itemsJson_eq_mapM]
    exact ((Settles.mapM ih).map fun _ => .array).of_iff (by simp)
  | @mapping entries hkeys _ _ ih =>
    have hfields : Settles (∃ entry ∈ entries, False ∨ False)
        (fun fields => ∀ field ∈ fields, field.2.HasNumbers (Decimal.isWritable · = true))
        (entriesJson entries) := by
      rw [entriesJson_eq_mapM]
      refine .mapM fun entry hentry => ?_
      obtain ⟨key, hkey⟩ := hkeys entry hentry
      have htext : Settles False (fun _ => True) entry.1.toText := by
        rw [hkey]
        exact .ok id trivial
      exact (htext.pair (ih entry hentry)).mono fun _ h => h.2
    rw [toJson]
    exact (hfields.map fun _ => .ofFields).of_iff (by simp)

theorem isDictionary {entries : Entries Float} (h : IsDatum (.mapping entries)) : entries.IsDictionary := by
  obtain _ | _ | _ | _ | _ | _ | ⟨hkeys, hnodup, -⟩ := h
  refine ⟨fun entry hentry => ?_, hnodup⟩
  obtain ⟨key, hkey⟩ := hkeys entry hentry
  rw [hkey]
  rfl

/-- What options may be. -/
theorem isDictionary_of_dictionary? (h : IsDatum v) {m : Entries Float} (hm : v.dictionary? = some m) :
    m.IsDictionary := by
  cases v with
  | absent =>
    obtain rfl := Option.some.inj hm
    exact ⟨List.forall_mem_nil _, List.nodup_nil⟩
  | mapping entries =>
    obtain rfl := Option.some.inj hm
    exact h.isDictionary
  | _ => cases hm

/-- Where they are read as options, they are a dictionary. -/
theorem exists_dictionary (h : IsDatum v) {source : String} {entries : Entries Float}
    (hread : readEntries source v = .ok entries) : ∃ m, v.dictionary? = some m ∧ entries = m.kept := by
  cases h with
  | absent =>
    cases hread
    exact ⟨[], rfl, rfl⟩
  | mapping _ _ _ =>
    cases hread
    exact ⟨_, rfl, rfl⟩
  | _ => cases hread

/-- An entry that is written keeps a dictionary what it is. -/
theorem setEntry {entries : Entries Float} (h : IsDatum (.mapping entries)) (key : Text)
    (hv : IsDatum v) : IsDatum (.mapping (Value.setEntry (.text key) v entries)) := by
  have hnodup := (h.isDictionary.setEntry key v).nodup
  obtain _ | _ | _ | _ | _ | _ | ⟨hkeys, -, hvalues⟩ := h
  have hentries : ∀ entry ∈ Value.setEntry (.text key) v entries,
      (∃ key, entry.1 = .text key) ∧ IsDatum entry.2 := by
    clear hnodup
    induction entries with
    | nil => exact List.forall_mem_cons.2 ⟨⟨⟨key, rfl⟩, hv⟩, List.forall_mem_nil _⟩
    | cons entry rest ih =>
      rw [List.forall_mem_cons] at hkeys hvalues
      rw [Value.setEntry]
      split
      · refine List.forall_mem_cons.2 ⟨⟨hkeys.1, hv⟩, fun entry hentry => ?_⟩
        exact ⟨hkeys.2 entry hentry, hvalues.2 entry hentry⟩
      · exact List.forall_mem_cons.2 ⟨⟨hkeys.1, hvalues.1⟩, ih hkeys.2 hvalues.2⟩
  exact .mapping (fun entry hentry => (hentries entry hentry).1) hnodup
    fun entry hentry => (hentries entry hentry).2

/-- Options stay what they are when a solver is written among them. -/
theorem withSolver {solver options : Value Float} (hsolver : IsDatum solver) (h : IsDatum options) :
    IsDatum (Presolve.withSolver solver options) := by
  cases h with
  | absent =>
    have hnone : IsDatum (.mapping []) :=
      .mapping (List.forall_mem_nil _) List.nodup_nil (List.forall_mem_nil _)
    exact hnone.setEntry "solver" hsolver
  | mapping hkeys hnodup hvalues => exact (IsDatum.mapping hkeys hnodup hvalues).setEntry "solver" hsolver
  | bool b => exact .bool b
  | int h => exact .int h
  | real x => exact .real x
  | text t => exact .text t
  | list h => exact .list h

end IsDatum

/-! ## Fields -/

/-- What was read under a key was read of data under this key. -/
theorem AreRead.exists_data {jsonFields : List (Text × Json Float)} {read : List (Text × ProblemField)}
    (h : AreRead jsonFields read) {field : Text × ProblemField} (hmem : field ∈ read) :
    ∃ data, (field.1, data) ∈ jsonFields ∧ ProblemField.read field.1 data = .ok field.2 := by
  induction h with
  | nil => cases hmem
  | cons hfield _ ih =>
    rcases List.mem_cons.1 hmem with rfl | hmem
    · obtain ⟨f, hf, rfl⟩ := hfield
      exact ⟨_, List.mem_cons_self, hf⟩
    · obtain ⟨data, hdata, hread⟩ := ih hmem
      exact ⟨data, List.mem_cons_of_mem _ hdata, hread⟩

variable {path text : String} {p : ProblemFile}

/-- What a file is read from are the fields of an object of data. -/
theorem exists_object_of_read (hp : ProblemFile.read path text = .ok p) : ∃ fields,
    (Json.object fields).IsParsed ∧ AreRead fields p.fields := by
  unfold ProblemFile.read at hp
  split at hp
  · cases hp
  · next fields hparse =>
    obtain ⟨read, hread, hp⟩ := bind_eq_ok.1 hp
    cases hp
    refine ⟨fields, Json.isParsed_of_parseLenient hparse, ?_⟩
    simpa only [AreRead, bind_eq_ok, pure_eq_ok] using mapM_eq_ok.1 hread
  · cases hp

/-- Every field of a problem was read of data under its key. -/
theorem exists_data_of_read (hp : ProblemFile.read path text = .ok p) {field : Text × ProblemField}
    (hfield : field ∈ p.fields) :
    ∃ data : Json Float, data.IsParsed ∧ ProblemField.read field.1 data = .ok field.2 := by
  obtain ⟨fields, hparsed, hread⟩ := exists_object_of_read hp
  obtain _ | _ | _ | _ | _ | _ | ⟨-, hdata⟩ := hparsed
  obtain ⟨data, hmem, hf⟩ := hread.exists_data hfield
  exact ⟨data, hdata _ hmem, hf⟩

/-- The keys of a problem file are different texts. -/
theorem isDictionary_of_read (hp : ProblemFile.read path text = .ok p) :
    Entries.IsDictionary (fieldEntries (readValues p)) := by
  obtain ⟨fields, hparsed, hread⟩ := exists_object_of_read hp
  obtain _ | _ | _ | _ | _ | _ | ⟨hkeys, -⟩ := hparsed
  refine ⟨List.forall_mem_map.2 fun _ _ => rfl, ?_⟩
  have htexts := (hread.keys_eq ▸ hkeys).map (Option.some_injective Text)
  rw [fieldEntries, readValues, List.map_map, List.map_map]
  rwa [List.map_map] at htexts

/-- Except for the objective and the constraints, what is read is a datum. -/
theorem isDatum_of_read {key : Text} {data : Json Float} {field : ProblemField}
    (hobjective : key ≠ "objective") (hconstraints : key ≠ "nonlcon") (hdata : data.IsParsed)
    (h : ProblemField.read key data = .ok field) : IsDatum field.toValue := by
  unfold ProblemField.read at h
  split at h
  · next hkey => exact absurd (Text.string?_eq_some.1 hkey) hobjective
  · next hkey => exact absurd (Text.string?_eq_some.1 hkey) hconstraints
  · cases h
    exact isDatum_plainValue hdata
  · cases h
    exact isDatum_plainValue hdata
  · cases h
    exact isDatum_numericValue hdata

/-- The fields of a problem file that count. -/
def givenEntries (p : ProblemFile) : Entries Float := Entries.kept (fieldEntries (readValues p))

/-- What is found under a key was read of data under this key. -/
theorem exists_data_of_lookup? (hp : ProblemFile.read path text = .ok p) {key : Text}
    {v : Value Float} (h : lookup? key (givenEntries p) = some v) :
    ∃ (data : Json Float) (field : ProblemField), data.IsParsed ∧ ProblemField.read key data = .ok field ∧
      v = field.toValue := by
  rw [lookup?, Option.map_eq_some_iff] at h
  obtain ⟨entry, hfound, rfl⟩ := h
  have hkey := List.find?_some hfound
  have hentry := (List.mem_filter.1 (List.mem_of_find?_eq_some hfound)).1
  obtain ⟨value, hvalue, rfl⟩ := List.mem_map.1 hentry
  obtain ⟨field, hfield, rfl⟩ := List.mem_map.1 hvalue
  obtain rfl : field.1 = key := by simpa [text?] using hkey
  obtain ⟨data, hparsed, hdata⟩ := exists_data_of_read hp hfield
  exact ⟨data, field.2, hparsed, hdata, rfl⟩

theorem isDatum_of_lookup? (hp : ProblemFile.read path text = .ok p) {key : Text} {v : Value Float}
    (hobjective : key ≠ "objective") (hconstraints : key ≠ "nonlcon")
    (h : lookup? key (givenEntries p) = some v) : IsDatum v := by
  obtain ⟨data, field, hparsed, hread, rfl⟩ := exists_data_of_lookup? hp h
  exact isDatum_of_read hobjective hconstraints hparsed hread

theorem isDatum_part (hp : ProblemFile.read path text = .ok p) {key : Text}
    (hobjective : key ≠ "objective") (hconstraints : key ≠ "nonlcon") :
    IsDatum ((givenEntries p).part key) := by
  rw [Entries.part]
  cases hlookup : lookup? key (givenEntries p) with
  | none => exact .absent
  | some v => exact isDatum_of_lookup? hp hobjective hconstraints hlookup

theorem isDatum_partOptions (hp : ProblemFile.read path text = .ok p) :
    IsDatum (givenEntries p).partOptions := by
  have hoptions : IsDatum ((givenEntries p).part "options") := isDatum_part hp (by decide) (by decide)
  rw [Entries.partOptions_eq]
  cases hlookup : lookup? "solver" (givenEntries p) with
  | none => exact hoptions
  | some solver => exact (isDatum_of_lookup? hp (by decide) (by decide) hlookup).withSolver hoptions

/-- Constraints, if there are any, are sample functions. -/
theorem part_constraints (hp : ProblemFile.read path text = .ok p) :
    (givenEntries p).part "nonlcon" = .absent ∨
      ∃ c : Sample.Constraint, (givenEntries p).part "nonlcon" = c.toValue := by
  rw [Entries.part]
  cases hlookup : lookup? "nonlcon" (givenEntries p) with
  | none => exact .inl rfl
  | some v =>
    obtain ⟨data, field, -, hread, rfl⟩ := exists_data_of_lookup? hp hlookup
    obtain ⟨c?, -, rfl⟩ := map_eq_ok.1 hread
    cases c? with
    | none => exact .inl rfl
    | some c => exact .inr ⟨c, rfl⟩

/-- An objective, if there is one, is a sample function. -/
theorem part_objective (hp : ProblemFile.read path text = .ok p) :
    (givenEntries p).part "objective" = .absent ∨
      ∃ o : Sample.Objective, (givenEntries p).part "objective" = o.toValue := by
  rw [Entries.part]
  cases hlookup : lookup? "objective" (givenEntries p) with
  | none => exact .inl rfl
  | some v =>
    obtain ⟨data, field, -, hread, rfl⟩ := exists_data_of_lookup? hp hlookup
    obtain ⟨o?, -, rfl⟩ := map_eq_ok.1 hread
    cases o? with
    | none => exact .inl rfl
    | some o => exact .inr ⟨o, rfl⟩

/-! ## Inputs -/

/-- A part of a record has data that can be written. -/
abbrev HasData (v : Value Float) : Prop :=
  Settles False (Json.HasNumbers (Decimal.isWritable · = true)) (Record.partJson v)

theorem IsDatum.hasData {v : Value Float} (h : IsDatum v) : HasData v := by
  have hplain : Record.partJson v = v.toJson := by
    cases h <;> rfl
  rw [HasData, hplain]
  exact h.toJson_settles

/-- What a preparation asks of an input, except that its options are not too large: its values are sound
and have data that can be written, its constraints return, and its options can only be data. -/
structure IsFromFile (i : Input Float) : Prop where
  sound : i.Sound
  returns : i.constraints.Returns
  hasData : ∃ j, Record.inputJson i = .ok j ∧ j.isWritable = true
  options : IsDatum i.options

/-- The keys of the options are texts, also among the entries that count. -/
theorem IsFromFile.textKeys {i : Input Float} (h : IsFromFile i) : i.options.HasTextKeys := by
  intro source entries hread
  obtain ⟨m, hm, rfl⟩ := h.options.exists_dictionary hread
  exact (h.options.isDictionary_of_dictionary? hm).kept.texts

/-- The parts of an input make its data, if each of them has data. -/
theorem exists_inputJson {i : Input Float} (h : ∀ part ∈ i.parts, HasData part.2) :
    ∃ j, Record.inputJson i = .ok j ∧ j.isWritable = true := by
  have hfields : Settles (∃ part ∈ i.parts, False)
      (fun fields => ∀ field ∈ fields, field.2.HasNumbers (Decimal.isWritable · = true))
      (i.parts.mapM fun part => (Record.partJson part.2).map fun j => ((part.1 : Text), j)) :=
    .mapM fun part hpart => (h part hpart).map fun _ hj => hj
  have hsettles : Settles _ (Json.HasNumbers (Decimal.isWritable · = true)) _ :=
    hfields.map (f := Json.object) fun _ => .object
  obtain ⟨j, hj, hnumbers⟩ := hsettles.returns (by simp)
  rw [← Record.inputJson_eq] at hj
  exact ⟨j, hj, (Json.isWritable_iff j).2 (hnumbers.mono (fun _ h => h) fun _ _ => trivial)⟩

/-- What is nothing or a function has data. -/
theorem hasData_of_absent_or_function {v : Value Float}
    (h : v = .absent ∨ ∃ view parts? f, v = .function view parts? f) : HasData v := by
  rcases h with rfl | ⟨view, parts?, f, rfl⟩
  · exact .ok id .null
  · exact .ok id (.text _)

/-- The input that is read of a problem file. -/
theorem isFromFile_of_readFields (hp : ProblemFile.read path text = .ok p) {source : String}
    {i : Input Float} (hi : (readFields source p.toValue).Yields i) : IsFromFile i := by
  rw [toValue_eq] at hi
  obtain ⟨objective, hobjective, rfl⟩ := readFields_yields hi
  have hdatum {key : Text} (hobjective : key ≠ "objective") (hconstraints : key ≠ "nonlcon") :
      IsDatum ((givenEntries p).part key) := isDatum_part hp hobjective hconstraints
  have hoptions := isDatum_partOptions hp
  constructor
  case sound =>
    exact {
      start := (hdatum (by decide) (by decide)).isSound
      inequalityRows := (hdatum (by decide) (by decide)).isSound
      inequalityRhs := (hdatum (by decide) (by decide)).isSound
      equalityRows := (hdatum (by decide) (by decide)).isSound
      equalityRhs := (hdatum (by decide) (by decide)).isSound
      lower := (hdatum (by decide) (by decide)).isSound
      upper := (hdatum (by decide) (by decide)).isSound
      options := hoptions.isSound }
  case returns =>
    intro view parts? f hf x
    have hf : (givenEntries p).part "nonlcon" = .function view parts? f := hf
    rcases part_constraints hp with h | ⟨c, h⟩
    · cases h.symm.trans hf
    · cases h.symm.trans hf
      exact ⟨_, rfl⟩
  case hasData =>
    have hobjectiveData : HasData objective := by
      refine hasData_of_absent_or_function ?_
      rcases hobjective with rfl | rfl
      · exact .inr ⟨_, _, _, rfl⟩
      · exact (part_objective hp).imp id fun ⟨o, h⟩ => ⟨_, _, _, h⟩
    have hconstraintsData : HasData ((givenEntries p).part "nonlcon") :=
      hasData_of_absent_or_function ((part_constraints hp).imp id fun ⟨c, h⟩ => ⟨_, _, _, h⟩)
    apply exists_inputJson
    simp only [Input.parts, Input.ofParts, List.forall_mem_cons]
    refine ⟨hobjectiveData, ?_, ?_, ?_, ?_, ?_, ?_, ?_, hconstraintsData, hoptions.hasData,
      List.forall_mem_nil _⟩ <;> exact (hdatum (by decide) (by decide)).hasData
  case options => exact hoptions

end Presolve.CommandLine
