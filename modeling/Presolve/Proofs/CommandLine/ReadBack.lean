import Mathlib.Logic.Relation
import Presolve.CommandLine.ProblemFile
import Presolve.Proofs.Json.LineEnds
import Presolve.Proofs.Json.Numerals
import Presolve.Proofs.Linear.Vector
import Presolve.Proofs.Value.Canonical
import Presolve.Proofs.Value.Lookup

/-!
# Problem files that the program wrote

A problem file can hold what the library writes as data. Infinite and undefined numbers are texts there, and
reading takes these three texts for the numbers again, so no value is changed on the way
(`IsPlain.numericValue_data`), if it is none of those texts itself.

The canonical text of a problem has its fields in order, and so have the dictionaries in it. So what is read
back under a key is what was written but for the order of entries (`read_canonicalText`), unless a text in it
has the two halves of a pair side by side: these are written one by one and read as the character that they
make (`exists_joined_text`). The objective, the constraints, options and solver are read in ways of their own.
-/

namespace Presolve

namespace Value

variable {α : Type}

/-- Fields as the entries of a dictionary. -/
def fieldEntries (fields : List (Text × Value α)) : List (Value α × Value α) :=
  fields.map fun field => (text field.1, field.2)

/-- The dictionary of some fields. -/
def ofFields (fields : List (Text × Value α)) : Value α := mapping (fieldEntries fields)

/-- The same value but for the order of the entries of dictionaries in it. -/
def IsReordering : Value α → Value α → Prop := Relation.ReflTransGen Reorders

end Value

namespace CommandLine

open Value

/-! ## Values of a problem file -/

/-- Nothing, flags, integers that satisfy `I`, reals that satisfy `R` if they are finite, texts that satisfy
`T` and stand for no number, and lists and dictionaries of such values, whose keys are texts that satisfy
`T`. -/
inductive IsPlain (I : Int → Prop) (T : Text → Prop) (R : Float → Prop) : Value Float → Prop where
  | absent : IsPlain I T R absent
  | bool (b : Bool) : IsPlain I T R (bool b)
  | int {i : Int} (h : I i) : IsPlain I T R (int i)
  | real {x : Float} (h : Scalar.isFinite x = true → R x) : IsPlain I T R (real x)
  | text {t : Text} (h : number? t = none) (ht : T t) : IsPlain I T R (text t)
  | list {items : List (Value Float)} (h : ∀ item ∈ items, IsPlain I T R item) : IsPlain I T R (list items)
  | ofFields {fields : List (Text × Value Float)} (hkeys : (fields.map Prod.fst).Nodup)
    (htexts : ∀ field ∈ fields, T field.1) (h : ∀ field ∈ fields, IsPlain I T R field.2) :
    IsPlain I T R (ofFields fields)

variable {I : Int → Prop} {T : Text → Prop} {R : Float → Prop} {v : Value Float}
  {fields : List (Text × Value Float)}

/-! ### Their data -/

/-- A field in data. -/
def fieldData (field : Text × Value Float) : Text × Json Float := (field.1, field.2.data)

theorem map_fst_fieldData (fields : List (Text × Value Float)) :
    (fields.map fieldData).map Prod.fst = fields.map Prod.fst := by
  rw [List.map_map]
  rfl

theorem toJson_ofFields (hkeys : (fields.map Prod.fst).Nodup)
    (h : ∀ field ∈ fields, field.2.toJson = .ok field.2.data) :
    (Value.ofFields fields).toJson = .ok (.object (fields.map fieldData)) := by
  have hdata : ∀ entry ∈ fieldEntries fields, entry.2.toJson = .ok entry.2.data := by
    intro entry hentry
    obtain ⟨field, hfield, rfl⟩ := List.mem_map.1 hentry
    exact h field hfield
  have hshown : ((fieldEntries fields).map fun entry => entry.1.shown).Nodup := by
    rw [fieldEntries, List.map_map]
    exact hkeys
  have hwritable : ∀ entry ∈ fieldEntries fields, entry.1.isWritable = true := by
    intro entry hentry
    obtain ⟨field, -, rfl⟩ := List.mem_map.1 hentry
    rfl
  rw [Value.ofFields, toJson_mapping hwritable hdata hshown, fieldEntries, List.map_map]
  rfl

theorem IsPlain.toJson_eq (h : IsPlain I T R v) : v.toJson = .ok v.data := by
  have hdata {v : Value Float} {j : Json Float} (hj : v.toJson = .ok j) : v.toJson = .ok v.data := by
    rw [data_of_toJson hj, hj]
  induction h with
  | list _ ih => exact hdata (toJson_list ih)
  | ofFields hkeys _ _ ih => exact hdata (toJson_ofFields hkeys ih)
  | _ => exact hdata rfl

theorem IsPlain.data_list {items : List (Value Float)} (h : ∀ item ∈ items, IsPlain I T R item) :
    (Value.list items).data = .array (items.map data) :=
  data_of_toJson (toJson_list fun item hitem => (h item hitem).toJson_eq)

theorem IsPlain.data_ofFields (hkeys : (fields.map Prod.fst).Nodup)
    (h : ∀ field ∈ fields, IsPlain I T R field.2) :
    (Value.ofFields fields).data = .object (fields.map fieldData) :=
  data_of_toJson (toJson_ofFields hkeys fun field hfield => (h field hfield).toJson_eq)

/-- The data can be written and read if integers are not too long and texts are joined. -/
theorem IsPlain.isReadable_data (hI : ∀ i, I i → Decimal.isWritable i = true) (hT : ∀ t, T t → t.IsJoined)
    (h : IsPlain I T R v) : v.data.IsReadable fun x => Scalar.isFinite x = true ∧ R x := by
  induction h with
  | absent => exact .null
  | bool b => exact .bool b
  | int h => exact .int (hI _ h)
  | real h => exact Json.isReadable_ofNumber fun hfinite => ⟨hfinite, h hfinite⟩
  | text _ ht => exact .text (hT _ ht)
  | list h ih =>
    rw [data_list h]
    refine .array fun j hj => ?_
    obtain ⟨item, hitem, rfl⟩ := List.mem_map.1 hj
    exact ih item hitem
  | ofFields hkeys htexts h ih =>
    rw [data_ofFields hkeys h]
    refine .object (by rwa [map_fst_fieldData]) ?_ ?_
    · intro j hj
      obtain ⟨field, hfield, rfl⟩ := List.mem_map.1 hj
      exact hT _ (htexts field hfield)
    · intro j hj
      obtain ⟨field, hfield, rfl⟩ := List.mem_map.1 hj
      exact ih field hfield

/-! ### What is read from them -/

theorem valuesOfJson_eq (text : Text → Value Float) (items : List (Json Float)) :
    valuesOfJson text items = items.map (valueOfJson text) := by
  induction items with
  | nil => rfl
  | cons item rest ih => rw [valuesOfJson, ih, List.map_cons]

theorem entriesOfJson_eq (text : Text → Value Float) (fields : List (Text × Json Float)) :
    entriesOfJson text fields = fields.map fun field => (.text field.1, valueOfJson text field.2) := by
  induction fields with
  | nil => rfl
  | cons field rest ih => rw [entriesOfJson, ih, List.map_cons]

/-- A field as it is read. -/
def readField (field : Text × Json Float) : Text × Value Float := (field.1, numericValue field.2)

theorem numericValue_array (items : List (Json Float)) :
    numericValue (.array items) = .list (items.map numericValue) := by
  rw [numericValue, valueOfJson, valuesOfJson_eq]

theorem numericValue_object (fields : List (Text × Json Float)) :
    numericValue (.object fields) = .ofFields (fields.map readField) := by
  rw [numericValue, valueOfJson, entriesOfJson_eq, Value.ofFields, fieldEntries, List.map_map]
  rfl

/-- A number is read from its form in data, infinite or undefined as it may be. -/
theorem numericValue_ofNumber (x : Float) : numericValue (.ofNumber x) = .real x := by
  unfold Json.ofNumber
  split
  · next h => rw [Binary64.eq_undefined h]; rfl
  · next hdefined =>
    split
    · rfl
    · next hinfinite =>
      have hx := Binary64.eq_infinity (eq_false_of_ne_true hdefined) (eq_false_of_ne_true hinfinite)
      split
      · next hpositive => rw [(hx.resolve_right fun h => h.2 hpositive).1]; rfl
      · next hnegative => rw [(hx.resolve_left fun h => hnegative h.2).1]; rfl

/-- What is read from the data of a value is the value. -/
theorem IsPlain.numericValue_data (h : IsPlain I T R v) : numericValue v.data = v := by
  induction h with
  | absent | bool _ | int _ => rfl
  | real _ => exact numericValue_ofNumber _
  | @text t h _ =>
    show numericValue (.text t) = .text t
    simp only [numericValue, valueOfJson, h]
  | @list items h ih =>
    rw [data_list h, numericValue_array, List.map_map]
    refine congrArg Value.list ((List.map_congr_left ih).trans (List.map_id _))
  | @ofFields fields hkeys _ h ih =>
    rw [data_ofFields hkeys h, numericValue_object, List.map_map]
    have hfields : fields.map (readField ∘ fieldData) = fields := by
      refine (List.map_congr_left fun field hfield => ?_).trans (List.map_id fields)
      exact Prod.ext rfl (ih field hfield)
    rw [hfields]

/-! ## Reading what is in order -/

/-- What is reordered item by item is reordered. -/
theorem isReordering_list {items items' : List (Value Float)}
    (h : List.Forall₂ Value.IsReordering items items') (before : List (Value Float)) :
    (Value.list (before ++ items)).IsReordering (.list (before ++ items')) := by
  induction h generalizing before with
  | nil => exact .refl
  | @cons v w rest rest' hitem _ ih =>
    have hfirst : (Value.list (before ++ v :: rest)).IsReordering (.list (before ++ w :: rest)) :=
      hitem.lift (fun v => Value.list (before ++ v :: rest)) fun _ _ h => .list before rest h
    have hothers := ih (before ++ [w])
    rw [List.append_assoc, List.append_assoc] at hothers
    exact hfirst.trans hothers

theorem isReordering_mapping {entries entries' : List (Value Float × Value Float)}
    (h : List.Forall₂ (fun a b => a.1 = b.1 ∧ a.2.IsReordering b.2) entries entries')
    (before : List (Value Float × Value Float)) :
    (Value.mapping (before ++ entries)).IsReordering (.mapping (before ++ entries')) := by
  induction h generalizing before with
  | nil => exact .refl
  | @cons a b rest rest' hentry _ ih =>
    obtain ⟨key, v⟩ := a
    obtain ⟨key', w⟩ := b
    obtain ⟨rfl, hvalue⟩ : key = key' ∧ v.IsReordering w := hentry
    have hfirst : (Value.mapping (before ++ (key, v) :: rest)).IsReordering
        (.mapping (before ++ (key, w) :: rest)) :=
      hvalue.lift (fun v => Value.mapping (before ++ (key, v) :: rest)) fun _ _ h =>
        .mapping before rest key h
    have hothers := ih (before ++ [(key, w)])
    rw [List.append_assoc, List.append_assoc] at hothers
    exact hfirst.trans hothers

/-- Sorting the fields of data does not change what is read but for the order of entries. -/
theorem isReordering_sorted {S : Float → Prop} {j : Json Float} (h : j.IsReadable S) :
    (numericValue j).IsReordering (numericValue j.sorted) := by
  induction h with
  | @array items _ ih =>
    rw [Json.sorted_array, numericValue_array, numericValue_array, List.map_map]
    refine isReordering_list ?_ []
    rw [List.forall₂_map_left_iff, List.forall₂_map_right_iff, List.forall₂_same]
    exact ih
  | @object fields _ _ _ ih =>
    rw [Json.sorted_object, numericValue_object, numericValue_object]
    have hsorted : (Value.ofFields (fields.map readField)).IsReordering
        (.ofFields ((fields.map Json.sortedField).map readField)) := by
      refine isReordering_mapping ?_ []
      rw [List.forall₂_map_left_iff, List.forall₂_map_right_iff, List.forall₂_map_left_iff,
        List.forall₂_map_right_iff, List.forall₂_map_right_iff, List.forall₂_same]
      exact fun field hfield => ⟨rfl, ih field hfield⟩
    refine hsorted.tail (.here ?_)
    exact (((Json.sortedFields_perm fields).map readField).map _).symm
  | _ => exact .refl

/-! ## Problem files -/

/-- What is found under a key is the field that has it. -/
theorem lookup?_fieldEntries {key : Text} (hkeys : (fields.map Prod.fst).Nodup) :
    lookup? key (fieldEntries fields) = some v ↔ (key, v) ∈ fields := by
  induction fields with
  | nil => simp [fieldEntries, lookup?]
  | cons field rest ih =>
    obtain ⟨other, w⟩ := field
    rw [List.map_cons, List.nodup_cons] at hkeys
    have ih := ih hkeys.2
    rw [fieldEntries, List.map_cons, lookup?_cons]
    by_cases hkey : other = key
    · subst hkey
      -- no other field has this key
      have hrest : (other, v) ∉ rest := fun hmem => hkeys.1 (List.mem_map.2 ⟨_, hmem, rfl⟩)
      simp [text?, hrest, eq_comm]
    · rw [if_neg (by simpa [text?] using hkey)]
      rw [List.mem_cons, Prod.mk.injEq]
      simpa only [fieldEntries, Ne.symm hkey, false_and, false_or] using ih

theorem lookup?_fieldEntries_eq_none {key : Text} :
    lookup? key (fieldEntries fields) = none ↔ key ∉ fields.map Prod.fst := by
  rw [lookup?_eq_none_iff, fieldEntries, List.forall_mem_map, List.mem_map, not_exists]
  refine forall_congr' fun field => ?_
  show (field ∈ fields → some field.1 ≠ some key) ↔ ¬(field ∈ fields ∧ field.1 = key)
  rw [not_and, Ne, Option.some.injEq]

/-- The keys of fields that are read in a way of their own. -/
def ownKeys : List Text := ["objective", "nonlcon", "options", "solver"]

theorem read_of_not_mem_ownKeys {key : Text} (h : key ∉ ownKeys) (j : Json Float) :
    ProblemField.read key j = .ok (.value (numericValue j)) := by
  simp only [ownKeys, List.mem_cons, List.not_mem_nil, or_false, not_or] at h
  obtain ⟨hobjective, hconstraints, hoptions, hsolver⟩ := h
  unfold ProblemField.read
  split
  · next hkey => exact absurd (Text.string?_eq_some.1 hkey) hobjective
  · next hkey => exact absurd (Text.string?_eq_some.1 hkey) hconstraints
  · next hkey => exact absurd (Text.string?_eq_some.1 hkey) hoptions
  · next hkey => exact absurd (Text.string?_eq_some.1 hkey) hsolver
  · rfl

/-- A double whose text reads back. -/
def IsNumeral (x : Float) : Prop := Scalar.isFinite x = true ∧ Json.ReadsBack shortestText x

/-- Fields that are read in turn, each by its key. -/
def AreRead (jsonFields : List (Text × Json Float)) (read : List (Text × ProblemField)) : Prop :=
  List.Forall₂ (fun field field' => ∃ f, ProblemField.read field.1 field.2 = .ok f ∧ (field.1, f) = field')
    jsonFields read

theorem AreRead.keys_eq {jsonFields : List (Text × Json Float)} {read : List (Text × ProblemField)}
    (h : AreRead jsonFields read) : read.map Prod.fst = jsonFields.map Prod.fst := by
  induction h with
  | nil => rfl
  | cons hfield _ ih =>
    obtain ⟨f, -, rfl⟩ := hfield
    rw [List.map_cons, List.map_cons, ih]

theorem AreRead.exists_of_mem {jsonFields : List (Text × Json Float)}
    {read : List (Text × ProblemField)} (h : AreRead jsonFields read) {key : Text} {j : Json Float}
    (hmem : (key, j) ∈ jsonFields) : ∃ f, ProblemField.read key j = .ok f ∧ (key, f) ∈ read := by
  induction h with
  | nil => cases hmem
  | cons hfield _ ih =>
    rcases List.mem_cons.1 hmem with rfl | hmem
    · obtain ⟨f, hf, rfl⟩ := hfield
      exact ⟨f, hf, List.mem_cons_self⟩
    · obtain ⟨f, hf, hread⟩ := ih hmem
      exact ⟨f, hf, List.mem_cons_of_mem _ hread⟩

/-- Only an objective and constraints can fail to be read. -/
theorem exists_areRead {jsonFields : List (Text × Json Float)}
    (hobjective : ("objective" : Text) ∉ jsonFields.map Prod.fst)
    (hconstraints : ("nonlcon" : Text) ∉ jsonFields.map Prod.fst) : ∃ read, AreRead jsonFields read := by
  induction jsonFields with
  | nil => exact ⟨[], .nil⟩
  | cons field rest ih =>
    rw [List.map_cons, List.mem_cons, not_or] at hobjective hconstraints
    obtain ⟨read, hread⟩ := ih hobjective.2 hconstraints.2
    obtain ⟨f, hf⟩ : ∃ f, ProblemField.read field.1 field.2 = .ok f := by
      unfold ProblemField.read
      split
      · next hkey => exact absurd (Text.string?_eq_some.1 hkey).symm hobjective.1
      · next hkey => exact absurd (Text.string?_eq_some.1 hkey).symm hconstraints.1
      · exact ⟨_, rfl⟩
      · exact ⟨_, rfl⟩
      · exact ⟨_, rfl⟩
    exact ⟨(field.1, f) :: read, .cons ⟨f, hf, rfl⟩ hread⟩

/-- From the canonical text of an object its fields are read in turn, in the order of their keys. -/
theorem read_canonicalText_eq_ok_iff {jsonFields : List (Text × Json Float)} {p : ProblemFile}
    (hread : (Json.object jsonFields).IsReadable IsNumeral) (layout : Json.Layout) (path : String) :
    ProblemFile.read path ((Json.object jsonFields).render shortestText layout) = .ok p ↔
      AreRead ((jsonFields.map Json.sortedField).mergeSort fun a b => decide (a.1 ≤ b.1)) p.fields := by
  have hlines := hread.allNumbers.unifyLineEnds_render layout fun _ h => isNumber_shortestText h.1
  have hparse := (hread.mono fun _ h => h.2).parseLenient_render layout
  rw [ProblemFile.read, hlines, String.ofList_toList, hparse, Json.sorted_object]
  obtain ⟨fields⟩ := p
  simp only [bind_eq_ok, pure_eq_ok, mapM_eq_ok, ProblemFile.mk.injEq, exists_eq_right]
  rfl

/-- The values that were read, under their keys. -/
def readValues (p : ProblemFile) : List (Text × Value Float) :=
  p.fields.map fun field => (field.1, field.2.toValue)

theorem toValue_eq (p : ProblemFile) : p.toValue = .ofFields (readValues p) := by
  rw [ProblemFile.toValue, Value.ofFields, fieldEntries, readValues, List.map_map]
  rfl

/-- Under a key that is read as it is stands what was written, but for the order of entries. -/
theorem rel_lookup?_of_areRead (hkeys : (fields.map Prod.fst).Nodup)
    (h : ∀ field ∈ fields, IsPlain I T R field.2) {S : Float → Prop}
    (hreadable : ∀ field ∈ fields, field.2.data.IsReadable S) {p : ProblemFile}
    (hread : AreRead (((fields.map fieldData).map Json.sortedField).mergeSort fun a b => decide (a.1 ≤ b.1))
      p.fields) {key : Text} (hkey : key ∉ ownKeys) :
    Option.Rel IsReordering (lookup? key (fieldEntries fields))
      (lookup? key (fieldEntries (readValues p))) := by
  have hperm := Json.sortedFields_perm (fields.map fieldData)
  have hsame : ((readValues p).map Prod.fst).Perm (fields.map Prod.fst) := by
    have hkeysPerm := hperm.map Prod.fst
    rw [Json.map_fst_sortedField, map_fst_fieldData, ← hread.keys_eq] at hkeysPerm
    rwa [readValues, List.map_map]
  cases hlookup : lookup? key (fieldEntries fields) with
  | none =>
    rw [lookup?_fieldEntries_eq_none, ← hsame.mem_iff, ← lookup?_fieldEntries_eq_none] at hlookup
    rw [hlookup]
    exact .none
  | some v =>
    have hmem : (key, v) ∈ fields := (lookup?_fieldEntries hkeys).1 hlookup
    have hdata : (key, v.data.sorted) ∈ (fields.map fieldData).map Json.sortedField :=
      List.mem_map_of_mem (f := Json.sortedField) (List.mem_map_of_mem (f := fieldData) hmem)
    obtain ⟨f, hf, hp⟩ := hread.exists_of_mem (hperm.mem_iff.2 hdata)
    obtain rfl := Except.ok.inj ((read_of_not_mem_ownKeys hkey _).symm.trans hf)
    have hfound : lookup? key (fieldEntries (readValues p)) = some (numericValue v.data.sorted) :=
      (lookup?_fieldEntries (hsame.nodup_iff.2 hkeys)).2 (List.mem_map.2 ⟨_, hp, rfl⟩)
    rw [hfound]
    have hreorders := isReordering_sorted (hreadable _ hmem)
    rw [(h _ hmem).numericValue_data] at hreorders
    exact .some hreorders

/-- What the library writes the command line reads back. The data of a value with infinite and undefined
numbers in them are read as that value. And some fields in which no first half of a pair stands in front of a
second one have a canonical text; if a problem file can be read from it at all, then under every key but those
that are read in ways of their own stands the value that was written, but for the order of the entries of
dictionaries. Without an objective and constraints among the fields the file can be read. -/
theorem read_canonicalText (hR : ∀ x, R x → Json.ReadsBack shortestText x) :
    (∀ v, IsPlain (fun _ => True) (fun _ => True) (fun _ => True) v →
      ∃ j, v.toJson = .ok j ∧ numericValue j = v) ∧
    ∀ fields : List (Text × Value Float), (fields.map Prod.fst).Nodup →
      (∀ field ∈ fields, field.1.IsJoined) →
      (∀ field ∈ fields, IsPlain (Decimal.isWritable · = true) Text.IsJoined R field.2) →
      ∀ (layout : Json.Layout) (path : String), ∃ j text, (Value.ofFields fields).toJson = .ok j ∧
        canonicalText layout j = .ok text ∧
        (∀ p, ProblemFile.read path text = .ok p →
          ∃ fields', p.toValue = .ofFields fields' ∧ ∀ key ∉ ownKeys,
            Option.Rel IsReordering (lookup? key (fieldEntries fields)) (lookup? key (fieldEntries fields'))) ∧
        (("objective" : Text) ∉ fields.map Prod.fst → ("nonlcon" : Text) ∉ fields.map Prod.fst →
          ∃ p, ProblemFile.read path text = .ok p) := by
  refine ⟨fun v hv => ⟨v.data, hv.toJson_eq, hv.numericValue_data⟩, ?_⟩
  intro fields hkeys htexts h layout path
  have hfields (field) (hfield : field ∈ fields) :=
    (h field hfield).isReadable_data (fun _ hi => hi) fun _ ht => ht
  have hreadable : (Json.object (fields.map fieldData)).IsReadable IsNumeral := by
    have hdata := (IsPlain.ofFields hkeys htexts h).isReadable_data (fun _ hi => hi) fun _ ht => ht
    rw [IsPlain.data_ofFields hkeys h] at hdata
    exact hdata.mono fun x hx => ⟨hx.1, hR x hx.2⟩
  have hiff {p : ProblemFile} := read_canonicalText_eq_ok_iff (p := p) hreadable layout path
  refine ⟨_, _, toJson_ofFields hkeys fun field hfield => (h field hfield).toJson_eq,
    canonicalText_eq_ok hreadable layout, ?back, ?success⟩
  case back =>
    intro p hp
    refine ⟨readValues p, toValue_eq p, fun key hkey => ?_⟩
    exact rel_lookup?_of_areRead hkeys h hfields (hiff.1 hp) hkey
  case success =>
    intro hobjective hconstraints
    have hperm := (Json.sortedFields_perm (fields.map fieldData)).map Prod.fst
    rw [Json.map_fst_sortedField, map_fst_fieldData] at hperm
    obtain ⟨read, hread⟩ := exists_areRead (mt hperm.mem_iff.1 hobjective) (mt hperm.mem_iff.1 hconstraints)
    exact ⟨⟨read⟩, hiff.2 hread⟩

/-- A problem with an infinite bound, a text that only looks like a number, and a dictionary whose keys are
not in order, one of them a single half. -/
def outOfOrderFields : List (Text × Value Float) :=
  [("x0", .list [.real 0.1, .int (-3)]), ("lb", .list [.real (-1 / 0), .real 0.1]),
    ("extra", .ofFields [("note", .text "infinity"), ("flag", .bool true), (⟨[.half 0]⟩, .real (0 / 0))])]

theorem read_canonicalText_outOfOrderFields :
    (∀ x : Float, x = 0.1 → Json.ReadsBack shortestText x) ∧
      (outOfOrderFields.map Prod.fst).Nodup ∧ (∀ field ∈ outOfOrderFields, field.1.IsJoined) ∧
      (∀ field ∈ outOfOrderFields, IsPlain (Decimal.isWritable · = true) Text.IsJoined (· = 0.1) field.2) ∧
      ("objective" : Text) ∉ outOfOrderFields.map Prod.fst ∧
      ("nonlcon" : Text) ∉ outOfOrderFields.map Prod.fst ∧ ("extra" : Text) ∉ ownKeys ∧
      ∃ j text p fields', (Value.ofFields outOfOrderFields).toJson = .ok j ∧
        canonicalText (.lines 2) j = .ok text ∧ ProblemFile.read "problem.json" text = .ok p ∧
        p.toValue = .ofFields fields' ∧
        Option.Rel IsReordering (lookup? "extra" (fieldEntries outOfOrderFields))
          (lookup? "extra" (fieldEntries fields')) := by
  have hR : ∀ x : Float, x = 0.1 → Json.ReadsBack shortestText x := by
    rintro x rfl
    rfl
  have hinfinite : IsPlain (Decimal.isWritable · = true) Text.IsJoined (· = (0.1 : Float)) (.real (-1 / 0)) :=
    .real fun h => absurd h (by decide)
  have hundefined : IsPlain (Decimal.isWritable · = true) Text.IsJoined (· = (0.1 : Float)) (.real (0 / 0)) :=
    .real fun h => absurd h (by decide)
  have hdecimal : IsPlain (Decimal.isWritable · = true) Text.IsJoined (· = (0.1 : Float)) (.real 0.1) :=
    .real fun _ => rfl
  have hplain : ∀ field ∈ outOfOrderFields,
      IsPlain (Decimal.isWritable · = true) Text.IsJoined (· = (0.1 : Float)) field.2 := by
    simp only [outOfOrderFields, List.mem_cons, List.not_mem_nil, or_false, forall_eq_or_imp, forall_eq]
    refine ⟨.list ?_, .list ?_, .ofFields (by decide) (by decide) ?_⟩
    · simp only [List.mem_cons, List.not_mem_nil, or_false, forall_eq_or_imp, forall_eq]
      exact ⟨hdecimal, .int (Decimal.isWritable_of_lt 1 (by decide) (by decide))⟩
    · simp only [List.mem_cons, List.not_mem_nil, or_false, forall_eq_or_imp, forall_eq]
      exact ⟨hinfinite, hdecimal⟩
    · simp only [List.mem_cons, List.not_mem_nil, or_false, forall_eq_or_imp, forall_eq]
      exact ⟨.text (by decide) (by decide), .bool true, hundefined⟩
  have hkeys : (outOfOrderFields.map Prod.fst).Nodup := by decide
  have htexts : ∀ field ∈ outOfOrderFields, field.1.IsJoined := by decide
  have hobjective : ("objective" : Text) ∉ outOfOrderFields.map Prod.fst := by decide
  have hconstraints : ("nonlcon" : Text) ∉ outOfOrderFields.map Prod.fst := by decide
  have hextra : ("extra" : Text) ∉ ownKeys := by decide
  obtain ⟨j, text, hj, htext, hback, hsuccess⟩ :=
    (read_canonicalText hR).2 outOfOrderFields hkeys htexts hplain (.lines 2) "problem.json"
  obtain ⟨p, hp⟩ := hsuccess hobjective hconstraints
  obtain ⟨fields', hfields', hrel⟩ := hback p hp
  exact ⟨hR, hkeys, htexts, hplain, hobjective, hconstraints, hextra, j, text, p, fields', hj, htext, hp,
    hfields', hrel "extra" hextra⟩

/-- The two halves of a pair side by side. -/
def halves : Text := ⟨[.half 0, .half 0x400]⟩

/-- The character that they make. -/
def whole : Text := ⟨[.char (Char.ofNat 0x10000)]⟩

/-- A text of two halves is a value like any other, but it is read back as the character that they make. -/
theorem exists_joined_text :
    IsPlain (Decimal.isWritable · = true) (fun _ => True) (fun _ => False) (.text halves) ∧
      ∃ j text p fields' v, (Value.ofFields [("lb", .text halves)] : Value Float).toJson = .ok j ∧
        canonicalText (.lines 2) j = .ok text ∧ ProblemFile.read "problem.json" text = .ok p ∧
        p.toValue = .ofFields fields' ∧ ("lb" : Text) ∉ ownKeys ∧
        lookup? "lb" (fieldEntries fields') = some v ∧ v.text? = some whole ∧ whole ≠ halves := by
  have htext : (Json.object [("lb", .text halves)] : Json Float).render shortestText (.lines 2)
      = "\x7b\n  \"lb\": \"\\ud800\\udc00\"\n\x7d" := by
    rw [Json.render, Json.sorted_object, List.map_singleton, List.mergeSort_singleton]
    decide +kernel
  have hread : (ProblemFile.read "problem.json" "\x7b\n  \"lb\": \"\\ud800\\udc00\"\n\x7d").toOption.map
      (fun p => p.fields.map fun field => (field.1, field.2.toValue.text?))
        = some [(("lb" : Text), some whole)] := by
    decide +kernel
  obtain ⟨p, hp, hfields⟩ := exists_of_toOption_map hread
  obtain ⟨⟨key, field⟩, rest, hpfields, hfield, hrest⟩ := List.map_eq_cons_iff.1 hfields
  obtain rfl := List.map_eq_nil_iff.1 hrest
  obtain ⟨rfl, hfield⟩ := Prod.mk.inj hfield
  refine ⟨.text (by decide) trivial, .object [("lb", .text halves)], _, p, readValues p, field.toValue, rfl,
    rfl, ?_, toValue_eq p, by decide, ?_, hfield, by decide⟩
  · rw [htext]
    exact hp
  · rw [readValues, hpfields]
    rfl

end CommandLine
end Presolve
