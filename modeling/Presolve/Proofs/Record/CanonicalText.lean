import Presolve.Proofs.Json.Numerals
import Presolve.Proofs.Preparation.Course
import Presolve.Proofs.Value.Data

/-!
# The canonical text of a record

The record of a preparation has a canonical text, and the text keeps to the grammar of JSON, unless something
in it cannot be written (`prepare_canonicalText`). Outside debug mode that could only be one of the numbers of
the record itself with more than 4300 digits. In debug mode the record also holds the input as it was given,
and a part of the input may have no data: an array without dimensions can be a start, a bound or a side of a
constraint, but it is not written. Or its data hold an integer of too many digits, which nothing forbids.

As a part of a record a value is taken apart further than by itself, since records and options are objects of
their parts. A record among the keys of a dictionary has no data there, for its parts are no key
(`Value.partJson_settles`).
-/

namespace Presolve

variable {α : Type}

namespace Value

/-! ## Parts of records -/

/-- The parts of a value that are parts of a record in turn. A value without them is written as it is. -/
def recordParts? : Value α → Option (List (Value α))
  | options fields => some (OptionName.all.map fields)
  | function _ (some parts) _ => some (parts.map (·.2))
  | list items | tuple items => some items
  | mapping entries => some (entries.map (·.2))
  | _ => none

/-- A dictionary with a key that is a record or has no text. -/
def hasUnusableKey : Value α → Bool
  | mapping entries => entries.any fun entry => entry.1.holdsRecord || !entry.1.isWritable
  | _ => false

/-- A part of a record without data: something without a form is written in it, or a key in it cannot be
used. -/
inductive HoldsUnwritable : Value α → Prop where
  | formless {v : Value α} (hparts : v.recordParts? = none) (h : v.HoldsFormless) : HoldsUnwritable v
  | key {v : Value α} (h : v.hasUnusableKey = true) : HoldsUnwritable v
  | deeper {v w : Value α} {parts : List (Value α)} (hparts : v.recordParts? = some parts)
    (hw : w ∈ parts) (h : w.HoldsUnwritable) : HoldsUnwritable v

theorem holdsUnwritable_iff_of_none {v : Value α} (hparts : v.recordParts? = none)
    (hkey : v.hasUnusableKey = false) : v.HoldsUnwritable ↔ v.HoldsFormless := by
  constructor
  · intro h
    cases h with
    | formless _ h => exact h
    | key h => exact nomatch hkey.symm.trans h
    | deeper hparts' _ _ => exact nomatch hparts.symm.trans hparts'
  · exact .formless hparts

theorem holdsUnwritable_iff_of_some {v : Value α} {parts : List (Value α)}
    (hparts : v.recordParts? = some parts) :
    v.HoldsUnwritable ↔ v.hasUnusableKey = true ∨ ∃ w ∈ parts, w.HoldsUnwritable := by
  constructor
  · intro h
    cases h with
    | formless hparts' _ => exact nomatch hparts.symm.trans hparts'
    | key h => exact .inl h
    | deeper hparts' hw h =>
      obtain rfl := Option.some.inj (hparts.symm.trans hparts')
      exact .inr ⟨_, hw, h⟩
  · rintro (h | ⟨w, hw, h⟩)
    · exact .key h
    · exact .deeper hparts hw h

variable [Scalar α] [Interchange α]

theorem partsJson_eq_mapM (items : List (Value α)) : partsJson items = items.mapM partJson := by
  induction items with
  | nil => rfl
  | cons item rest ih => rw [partsJson, List.mapM_cons, ih]

theorem namedPartsJson_eq_mapM (parts : List (String × Value α)) :
    namedPartsJson parts = parts.mapM fun part => part.2.partJson.map fun j => ((part.1 : Text), j) := by
  induction parts with
  | nil => rfl
  | cons part rest ih =>
    rw [namedPartsJson, List.mapM_cons, ih]
    cases part.2.partJson <;> rfl

theorem entryPartsJson_eq_mapM (entries : List (Value α × Value α)) :
    entryPartsJson entries = entries.mapM fun e =>
      if e.1.holdsRecord then .error .wrongType else do return (← e.1.toText, ← e.2.partJson) := by
  induction entries with
  | nil => rfl
  | cons entry rest ih =>
    rw [entryPartsJson, List.mapM_cons, ih]
    split
    · rfl
    · simp only [bind_assoc, pure_bind]

/-- As a part of a record a value has data exactly if everything that is written in it has a form, and every
key in it can be used. -/
theorem partJson_settles (v : Value α) :
    Settles v.HoldsUnwritable Json.HasFiniteReals v.partJson := by
  refine of_children (Q := fun v =>
    Settles v.HoldsUnwritable Json.HasFiniteReals v.partJson) (fun v ih => ?_) v
  have hplain {v : Value α} (hparts : v.recordParts? = none) (hkey : v.hasUnusableKey = false)
      (heq : v.partJson = v.toJson) :
      Settles v.HoldsUnwritable Json.HasFiniteReals v.partJson := by
    rw [heq]
    exact v.toJson_settles.1.of_iff (holdsUnwritable_iff_of_none hparts hkey)
  cases v with
  | options fields =>
    have hfields : Settles (∃ name ∈ OptionName.all, (fields name).HoldsUnwritable)
        (fun fields => ∀ field ∈ fields, field.2.HasFiniteReals)
        (OptionName.all.mapM fun name => (fields name).partJson.map fun j => ((name.key : Text), j)) :=
      .mapM fun name hname => (ih _ (List.mem_map_of_mem hname)).map fun _ hj => hj
    refine (hfields.map (f := Json.object) fun _ => .object).of_iff ?_
    rw [holdsUnwritable_iff_of_some rfl, exists_mem_map_iff]
    simp [hasUnusableKey]
  | function view parts? call =>
    cases parts? with
    | none => exact hplain rfl rfl rfl
    | some parts =>
      have hfields : Settles (∃ part ∈ parts, part.2.HoldsUnwritable)
          (fun fields => ∀ field ∈ fields, field.2.HasFiniteReals) (namedPartsJson parts) := by
        rw [namedPartsJson_eq_mapM]
        exact .mapM fun part hpart => (ih _ (List.mem_map_of_mem hpart)).map fun _ hj => hj
      refine (hfields.map fun _ => .ofFields).of_iff ?_
      rw [holdsUnwritable_iff_of_some rfl, exists_mem_map_iff]
      simp [hasUnusableKey]
  | list items | tuple items =>
    have hitems : Settles (∃ item ∈ items, item.HoldsUnwritable) (fun js => ∀ j ∈ js, j.HasFiniteReals)
        (partsJson items) := by
      rw [partsJson_eq_mapM]
      exact .mapM ih
    refine (hitems.map (f := Json.array) fun _ => .array).of_iff ?_
    rw [holdsUnwritable_iff_of_some rfl]
    simp [hasUnusableKey]
  | mapping entries =>
    have hvalues := List.forall_mem_map.1 (List.forall_mem_append.1 ih).2
    have hfields : Settles
        (∃ e ∈ entries, (e.1.holdsRecord || !e.1.isWritable) = true ∨ e.2.HoldsUnwritable)
        (fun fields => ∀ field ∈ fields, field.2.HasFiniteReals) (entryPartsJson entries) := by
      rw [entryPartsJson_eq_mapM]
      refine .mapM fun e he => ?_
      by_cases hkey : e.1.holdsRecord = true
      · rw [if_pos hkey]
        exact .error (.inl (by simp [hkey]))
      · rw [if_neg hkey]
        refine ((e.1.toText_settles.pair (hvalues e he)).mono fun _ h => h.2).of_iff ?_
        simp [hkey]
    refine (hfields.map fun _ => .ofFields).of_iff ?_
    rw [holdsUnwritable_iff_of_some rfl, exists_mem_map_iff]
    simp only [hasUnusableKey, List.any_eq_true, and_or_left, exists_or]
  | _ => exact hplain rfl rfl rfl

end Value

/-! ## Inputs -/

variable [Scalar α] [Interchange α]

/-- A part of the input that has no data. Options are taken apart, and of a function only the name is
written. -/
def Value.LacksData (v : Value α) : Prop :=
  match v with
  | .options fields => (Value.options fields).HoldsUnwritable
  | .function .. => False
  | v => v.HoldsFormless

theorem Record.partJson_settles (v : Value α) :
    Settles v.LacksData Json.HasFiniteReals (Record.partJson v) := by
  cases v with
  | options fields => exact (Value.options fields).partJson_settles
  | function view parts? call => exact .ok id (.text _)
  | _ => exact (Value.toJson_settles _).1

/-- The parts of the input under their names. -/
def Input.parts (i : Input α) : List (String × Value α) :=
  [("objective", i.objective), ("x0", i.start), ("Aineq", i.inequalityRows), ("bineq", i.inequalityRhs),
    ("Aeq", i.equalityRows), ("beq", i.equalityRhs), ("lb", i.lower), ("ub", i.upper),
    ("nonlcon", i.constraints), ("options", i.options)]

/-- Some part of the input has no data. -/
def Input.LacksData (i : Input α) : Prop := ∃ part ∈ i.parts, part.2.LacksData

theorem Record.inputJson_eq (i : Input α) : inputJson i
    = (i.parts.mapM fun part => (partJson part.2).map fun j => ((part.1 : Text), j)).map .object := by
  have hmap {β γ : Type} (f : β → γ) (x : Except Fault β) : x.map f = x >>= fun b => pure (f b) := by
    cases x <;> rfl
  simp only [inputJson, Input.parts, List.mapM_cons, List.mapM_nil, hmap, bind_assoc, pure_bind]

theorem Record.inputJson_settles (i : Input α) : Settles i.LacksData Json.HasFiniteReals (inputJson i) := by
  have hfields : Settles i.LacksData (fun fields => ∀ field ∈ fields, field.2.HasFiniteReals)
      (i.parts.mapM fun part => (partJson part.2).map fun j => ((part.1 : Text), j)) :=
    .mapM fun part _ => (partJson_settles part.2).map fun _ hj => hj
  rw [inputJson_eq]
  exact hfields.map fun _ => .object

/-- The data of an input hold an integer that is too long to be written. -/
def Input.HasLongInteger (i : Input α) : Prop :=
  ∃ j, Record.inputJson i = .ok j ∧ j.isWritable = false

/-- An input whose data are made and can be written is one whose parts have data without long integers. -/
theorem Input.not_lacksData {i : Input α} (h : (Record.inputJson i).toOption.any Json.isWritable = true) :
    ¬(i.LacksData ∨ i.HasLongInteger) := by
  rintro (hbad | ⟨j, hj, hlong⟩)
  · rcases (Record.inputJson_settles i).fails hbad with hf | hf <;> rw [hf] at h <;> exact nomatch h
  · rw [hj] at h
    exact absurd h (by simp [Except.toOption, hlong])

/-! ## Records -/

section

omit [Interchange α]

variable {I : Int → Prop}

@[simp] theorem Json.hasNumbers_ofNumber (x : α) : (Json.ofNumber x).HasNumbers I :=
  Json.ofNumber_cases (fun _ => .text _) fun h => .real h

@[simp] theorem Json.hasNumbers_ofVector (xs : List α) : (Json.ofVector xs).HasNumbers I := by
  simp [Json.ofVector]

@[simp] theorem Json.hasNumbers_ofMatrix (rows : List (List α)) : (Json.ofMatrix rows).HasNumbers I := by
  simp [Json.ofMatrix]

@[simp] theorem Json.hasNumbers_ofFlags (flags : List Bool) : (Json.ofFlags flags : Json α).HasNumbers I :=
  .array (List.forall_mem_map.2 fun flag _ => .bool flag)

@[simp] theorem Json.hasNumbers_ofOption {β : Type} {f : β → Json α} {b? : Option β} :
    (Json.ofOption f b?).HasNumbers I ↔ ∀ b ∈ b?, (f b).HasNumbers I := by
  cases b? <;> simp [Json.ofOption]

@[simp] theorem Facts.hasNumbers_toJson (f : Facts α) : f.toJson.HasNumbers I := by
  simp [Facts.toJson]

@[simp] theorem Problem.hasNumbers_toJson (p : Problem α) : p.toJson.HasNumbers I := by
  simp [Problem.toJson]

@[simp] theorem Settings.hasNumbers_toJson (s : Settings α) :
    s.toJson.HasNumbers I ↔ (∀ i ∈ s.npt, I i) ∧ I s.maxfun := by
  simp [Settings.toJson]

end

namespace Record

/-- The integers of a record itself: its dimensions, the numbers of its diagnostics, and the settings that
are integers. -/
def integers (r : Record α) : List Int :=
  [(r.rawDimension : Int), r.refinedDimension]
    ++ (List.range r.diagnostics.length).map (fun k : Nat => (k : Int)) ++ r.settings.npt.toList
    ++ [r.settings.maxfun]

/-- An integer of the record itself is too long to be written. -/
def HasLongInteger (r : Record α) : Prop := ∃ i ∈ r.integers, Decimal.isWritable i = false

omit [Scalar α] [Interchange α] in
theorem forall_mem_integers {I : Int → Prop} {r : Record α} : (∀ i ∈ r.integers, I i) ↔
    I r.rawDimension ∧ I r.refinedDimension ∧ (∀ k < r.diagnostics.length, I (k : Nat)) ∧
      (∀ i ∈ r.settings.npt, I i) ∧ I r.settings.maxfun := by
  simp only [integers, List.forall_mem_append, List.forall_mem_cons, List.forall_mem_map, List.mem_range,
    Option.mem_toList, List.not_mem_nil, false_imp_iff, implies_true, and_true, and_assoc]
  rfl

theorem hasNumbers_diagnosticsJson {I : Int → Prop} (ds : List (Diagnostic α)) :
    (diagnosticsJson ds).HasNumbers I ↔ ∀ k < ds.length, I (k : Nat) := by
  simp only [diagnosticsJson, Json.allNumbers_array, List.forall_mem_map]
  constructor
  · intro h k hk
    simpa using h (ds[k], k) (List.mk_mem_zipIdx_iff_getElem?.2 (List.getElem?_eq_getElem hk))
  · rintro h ⟨d, k⟩ hmem
    simpa using h k (List.snd_lt_of_mem_zipIdx hmem)

/-- What is written of a record are its own numbers and those of the input that it keeps. -/
theorem hasNumbers_of_toJson {I : Int → Prop} {r : Record α} {data : Json α} (h : r.toJson = .ok data) :
    data.HasNumbers I ↔ (∀ i ∈ r.integers, I i) ∧
      ∀ i ∈ r.input, ∀ j, inputJson i = .ok j → j.HasNumbers I := by
  unfold toJson at h
  cases hinput : r.input with
  | none =>
    rw [hinput] at h
    obtain rfl := Except.ok.inj h
    simp [forall_mem_integers, hasNumbers_diagnosticsJson]
  | some i =>
    rw [hinput] at h
    cases hj : inputJson i with
    | error f => simp [hj] at h
    | ok j =>
      simp only [hj] at h
      obtain rfl := Except.ok.inj h
      clear h
      simp [forall_mem_integers, hasNumbers_diagnosticsJson, hj]
      tauto

/-- A record has data exactly if the input that it keeps has. -/
theorem toJson_settles (r : Record α) :
    Settles (∃ i ∈ r.input, i.LacksData) Json.HasFiniteReals r.toJson := by
  unfold toJson
  cases r.input with
  | none => exact .ok (by simp) (by simp [hasNumbers_diagnosticsJson])
  | some i =>
    have hiff : (∃ i' ∈ some i, i'.LacksData) ↔ i.LacksData ∨ False := by simp
    refine ((inputJson_settles i).bind fun j _ hreals => .ok id ?_).of_iff hiff
    simp [hasNumbers_diagnosticsJson, hreals]

end Record

omit [Interchange α] in
/-- Data with finite reals can be written if their integers can. -/
theorem Json.isWritable_iff_hasNumbers {j : Json α} (h : j.HasFiniteReals) :
    j.isWritable = true ↔ j.HasNumbers (Decimal.isWritable · = true) := by
  rw [isWritable_iff]
  exact ⟨fun hlong => (hlong.and h).mono (fun _ h => h.1) fun _ h => h.2,
    fun hlong => hlong.mono (fun _ h => h) fun _ _ => trivial⟩

/-- The canonical text of data with finite reals is a text of JSON. -/
theorem canonicalText_settles {data : Json Float} (h : data.HasFiniteReals) (layout : Json.Layout) :
    Settles (data.isWritable = false) Json.IsText (canonicalText layout data) := by
  unfold canonicalText
  cases data.isWritable with
  | true => exact .ok (by simp) (h.isText_render layout fun _ => isNumber_shortestText)
  | false => exact .tooLong rfl

/-- The data of a record can be written exactly if no integer of the record or of the input that it keeps is
too long. -/
theorem Record.isWritable_iff_of_toJson {r : Record α} {data : Json α} (h : r.toJson = .ok data) :
    data.isWritable = true ↔ ¬(r.HasLongInteger ∨ ∃ i ∈ r.input, i.HasLongInteger) := by
  rw [Json.isWritable_iff_hasNumbers (r.toJson_settles.of_eq_ok h), hasNumbers_of_toJson h, not_or]
  refine and_congr (by simp [HasLongInteger]) ?_
  simp only [Input.HasLongInteger, not_exists, not_and, Bool.not_eq_false]
  refine forall₂_congr fun i _ => forall₂_congr fun j hj => ?_
  exact (Json.isWritable_iff_hasNumbers ((inputJson_settles i).of_eq_ok hj)).symm

/-- A record has a text, which is a text of JSON in every layout, unless the input that it keeps has no data,
or an integer of the one or of the other is too long. -/
theorem Record.text_settles (r : Record Float) (layout : Json.Layout) :
    Settles (r.HasLongInteger ∨ ∃ i ∈ r.input, i.LacksData ∨ i.HasLongInteger) Json.IsText
      (r.toJson >>= canonicalText layout) := by
  have hlong (data : Json Float) (hdata : r.toJson = .ok data) :
      (r.HasLongInteger ∨ ∃ i ∈ r.input, i.HasLongInteger) ↔ data.isWritable = false := by
    rw [← Bool.not_eq_true, isWritable_iff_of_toJson hdata, not_not]
  refine (r.toJson_settles.bind fun data hdata hreals =>
    (canonicalText_settles hreals layout).of_iff (hlong data hdata)).of_iff ?_
  simp only [and_or_left, exists_or]
  exact or_left_comm

/-! ## Preparations -/

/-- The record of a preparation that succeeds has a canonical text of JSON in every layout, unless one of its
own integers is too long to be written, or it is made in debug mode from an input of which some part has no
data, or whose data hold an integer that is too long. It has no text then, and no fingerprint. The same holds of
the input that is read from a dictionary. -/
theorem prepare_canonicalText (search : NearestSearch Float) (invoker : Invoker) (e : Option Category)
    (layout : Json.Layout) :
    (∀ (i : Input Float) (r : Record Float), (Prep.run e (prepare search invoker i)).1 = .ok r →
      Settles (r.HasLongInteger ∨ r.settings.debug = true ∧ (i.LacksData ∨ i.HasLongInteger))
        Json.IsText (r.toJson >>= canonicalText layout)) ∧
    ∀ (v : Value Float) (r : Record Float), (Prep.run e (prepareFields search invoker v)).1 = .ok r →
      ∃ i, (Prep.run e (readFields invoker.name v)).1 = .ok i ∧
        Settles (r.HasLongInteger ∨ r.settings.debug = true ∧ (i.LacksData ∨ i.HasLongInteger))
          Json.IsText (r.toJson >>= canonicalText layout) := by
  have hprepared {i : Input Float} {r : Record Float} {j k : Journal Float}
      (h : (prepare search invoker i).outcome e j = (.ok r, k)) :
      Settles (r.HasLongInteger ∨ r.settings.debug = true ∧ (i.LacksData ∨ i.HasLongInteger))
        Json.IsText (r.toJson >>= canonicalText layout) := by
    refine (r.text_settles layout).of_iff (or_congr_right ?_)
    rw [(prepare_keeps h).2]
    by_cases hdebug : r.settings.debug = true <;> simp [hdebug]
  refine ⟨fun i r h => hprepared (Prod.ext h rfl), fun v r h => ?_⟩
  obtain ⟨i, l, hi, hr⟩ := Prep.outcome_bind_eq_ok.1 (Prod.ext h rfl)
  exact ⟨i, congrArg Prod.fst hi, hprepared hr⟩

/-- A start given as an array without dimensions, which is a vector of one number, in debug mode. -/
def pointInput : Input Float where
  objective := zeroObjective
  start := .array ⟨.real, .scalar (.real (Scalar.ofFraction 1 1))⟩
  options := .mapping [(.text "debug", .bool true)]

/-- The same start as an array of one dimension. -/
def lineInput : Input Float :=
  { pointInput with start := .array ⟨.real, .vector [.real (Scalar.ofFraction 1 1)]⟩ }

/-- The second start under its key. -/
def lineFields : Value Float :=
  .mapping [(.text "x0", lineInput.start), (.text "options", lineInput.options)]

theorem lacksData_pointInput : pointInput.LacksData :=
  ⟨("x0", pointInput.start), List.mem_cons_of_mem _ List.mem_cons_self, .here rfl⟩

/-- One dimension makes the difference. -/
theorem prepare_canonicalText_lineInput :
    (∃ r, (Prep.run none (prepare .stay .frontEnd pointInput)).1 = .ok r ∧
      ∀ text, (r.toJson >>= canonicalText .compact) ≠ .ok text) ∧
    (∃ r text, (Prep.run none (prepare .stay .frontEnd lineInput)).1 = .ok r ∧
      r.settings.debug = true ∧ (r.toJson >>= canonicalText .compact) = .ok text ∧ Json.IsText text) ∧
    ∃ r text, (Prep.run none (prepareFields .stay .frontEnd lineFields)).1 = .ok r ∧
      r.settings.debug = true ∧ (r.toJson >>= canonicalText .compact) = .ok text ∧ Json.IsText text := by
  have hrun (x : Except Fault (Record Float))
      (h : x.toOption.map (fun r => r.settings.debug && r.integers.all Decimal.isWritable) = some true) :
      ∃ r, x = .ok r ∧ r.settings.debug = true ∧ ¬r.HasLongInteger := by
    obtain ⟨r, hr, hshort⟩ := exists_of_toOption_map h
    rw [Bool.and_eq_true, List.all_eq_true] at hshort
    refine ⟨r, hr, hshort.1, ?_⟩
    rintro ⟨i, hi, hlong⟩
    rw [hshort.2 i hi] at hlong
    exact nomatch hlong
  obtain ⟨hinput, hfields⟩ := prepare_canonicalText .stay .frontEnd none .compact
  refine ⟨?_, ?_, ?_⟩
  · obtain ⟨r, hr, hdebug, -⟩ := hrun (Prep.run none (prepare .stay .frontEnd pointInput)).1
      (by decide +kernel)
    refine ⟨r, hr, fun text htext => ?_⟩
    rcases (hinput pointInput r hr).fails (.inr ⟨hdebug, .inl lacksData_pointInput⟩) with hf | hf <;>
      exact nomatch htext.symm.trans hf
  · obtain ⟨r, hr, hdebug, hshort⟩ := hrun (Prep.run none (prepare .stay .frontEnd lineInput)).1
      (by decide +kernel)
    have hdata := Input.not_lacksData (i := lineInput) (by decide +kernel)
    obtain ⟨text, htext⟩ := (hinput lineInput r hr).returns fun hbad =>
      hbad.elim hshort fun hbad => hdata hbad.2
    exact ⟨r, text, hr, hdebug, htext⟩
  · obtain ⟨r, hr, hdebug, hshort⟩ := hrun (Prep.run none (prepareFields .stay .frontEnd lineFields)).1
      (by decide +kernel)
    obtain ⟨i, hi, hsettles⟩ := hfields lineFields r hr
    have hread : ((Prep.run none (readFields Invoker.frontEnd.name lineFields)).1.bind
        Record.inputJson).toOption.any Json.isWritable = true := by decide +kernel
    have hdata := Input.not_lacksData (i := i) (by rw [hi] at hread; exact hread)
    obtain ⟨text, htext⟩ := hsettles.returns fun hbad => hbad.elim hshort fun hbad => hdata hbad.2
    exact ⟨r, text, hr, hdebug, htext⟩

/-- A preparation that succeeds can have a record without data. -/
theorem exists_record_without_data :
    ∃ r, (Prep.run none (prepare .stay .frontEnd pointInput)).1 = .ok r ∧ ∀ data, r.toJson ≠ .ok data := by
  have hrun : (Prep.run none (prepare .stay .frontEnd pointInput)).1.toOption.map
      (fun r => r.toJson.toOption.isSome) = some false := by decide +kernel
  obtain ⟨r, hr, hnone⟩ := exists_of_toOption_map hrun
  refine ⟨r, hr, fun data hdata => ?_⟩
  rw [hdata] at hnone
  exact nomatch hnone

end Presolve
