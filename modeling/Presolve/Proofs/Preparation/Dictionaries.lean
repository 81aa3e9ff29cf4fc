import Presolve.Proofs.Json.Sorted
import Presolve.Proofs.Linear.Vector
import Presolve.Proofs.Preparation.Escalation
import Presolve.Proofs.Preparation.Fields
import Presolve.Proofs.Solver.Consulted

/-!
# What counts in a dictionary

A problem can be given as a dictionary, with a dictionary of options in it. What counts are the entries of
both that are not empty, whatever their order: dictionaries with the same entries that are not empty are
prepared alike. Unknown keys are reported in the order of their texts, and everything else is looked up.
-/

namespace Presolve

open Scalar

variable {α : Type}

/-! ## Entries by the texts of their keys -/

namespace Entries

/-- A dictionary whose keys are texts, each of them once. -/
structure IsDictionary (m : Entries α) : Prop where
  texts : ∀ entry ∈ m, entry.1.text?.isSome = true
  nodup : (m.map fun entry => entry.1.text?).Nodup

/-- The entries whose keys are texts, by these. -/
def byText (m : Entries α) : List (Text × Value α) :=
  m.filterMap fun entry => entry.1.text?.map (·, entry.2)

/-- The entries that are not empty. -/
def kept (m : Entries α) : Entries α := m.filter fun entry => !entry.2.isEmpty

/-- What a dictionary gives: its entries that are not empty, by the texts of their keys. -/
def given (m : Entries α) : List (Text × Value α) := m.kept.byText

/-- The keys that are not among the known ones. -/
def unknown (known : Text → Bool) (m : Entries α) : List Text :=
  (m.byText.map Prod.fst).filter fun key => !known key

variable {m m' : Entries α} {key : Text} {value : Value α}

theorem IsDictionary.filter (h : m.IsDictionary) (keep : Value α × Value α → Bool) :
    IsDictionary (m.filter keep) where
  texts entry hentry := h.texts entry (List.mem_of_mem_filter hentry)
  nodup := h.nodup.sublist (List.filter_sublist.map _)

theorem IsDictionary.kept (h : m.IsDictionary) : m.kept.IsDictionary := h.filter _

theorem mem_byText : (key, value) ∈ m.byText ↔ ∃ entry ∈ m, entry.1.text? = some key ∧ entry.2 = value := by
  simp only [byText, List.mem_filterMap, Option.map_eq_some_iff, Prod.mk.injEq]
  constructor
  · rintro ⟨entry, hentry, text, htext, rfl, hvalue⟩
    exact ⟨entry, hentry, htext, hvalue⟩
  · rintro ⟨entry, hentry, htext, hvalue⟩
    exact ⟨entry, hentry, key, htext, rfl, hvalue⟩

/-- What is found under a text is the entry that has it for its key. -/
theorem IsDictionary.lookup?_eq_some_iff (h : m.IsDictionary) :
    Value.lookup? key m = some value ↔ (key, value) ∈ m.byText := by
  obtain ⟨-, hnodup⟩ := h
  rw [mem_byText]
  induction m with
  | nil => simp [Value.lookup?]
  | cons entry rest ih =>
    rw [List.map_cons, List.nodup_cons] at hnodup
    rw [Value.lookup?_cons]
    by_cases hkey : entry.1.text? = some key
    · -- no other entry has this key
      have hrest : ∀ other ∈ rest, other.1.text? ≠ some key := by
        intro other hother heq
        exact hnodup.1 (List.mem_map.2 ⟨other, hother, heq.trans hkey.symm⟩)
      rw [if_pos hkey, Option.some.injEq]
      constructor
      · intro hvalue
        exact ⟨entry, List.mem_cons_self, hkey, hvalue⟩
      · rintro ⟨other, hother, htext, hvalue⟩
        rcases List.mem_cons.1 hother with rfl | hother
        · exact hvalue
        · exact absurd htext (hrest other hother)
    · rw [if_neg hkey, ih hnodup.2]
      simp [hkey]

/-- Dictionaries with the same entries for a text have the same value under it. -/
theorem IsDictionary.lookup?_eq (h : m.IsDictionary) (h' : m'.IsDictionary)
    (hmem : ∀ value, (key, value) ∈ m.byText ↔ (key, value) ∈ m'.byText) :
    Value.lookup? key m = Value.lookup? key m' := by
  apply Option.ext
  intro value
  rw [h.lookup?_eq_some_iff, h'.lookup?_eq_some_iff, hmem]

/-- Each key that is a text stands for one of the entries by text. -/
theorem IsDictionary.map_some_byText (h : m.IsDictionary) :
    m.byText.map (fun entry => some entry.1) = m.map fun entry => entry.1.text? := by
  obtain ⟨htexts, -⟩ := h
  induction m with
  | nil => rfl
  | cons entry rest ih =>
    obtain ⟨s, hs⟩ := Option.isSome_iff_exists.1 (htexts entry List.mem_cons_self)
    have ih := ih fun entry hentry => htexts entry (List.mem_cons_of_mem _ hentry)
    rw [byText, List.filterMap_cons_some (b := (s, entry.2)) (by rw [hs]; rfl), List.map_cons,
      List.map_cons, hs]
    exact congrArg _ ih

theorem IsDictionary.nodup_byText (h : m.IsDictionary) : m.byText.Nodup :=
  .of_map _ (h.map_some_byText ▸ h.nodup)

/-- Under a text, an entry that is empty counts as missing. -/
theorem IsDictionary.lookup?_kept (h : m.IsDictionary) (key : Text) :
    Value.lookup? key m.kept = (Value.lookup? key m).filter fun value => !value.isEmpty := by
  apply Option.ext
  intro value
  rw [h.kept.lookup?_eq_some_iff, Option.filter_eq_some_iff, h.lookup?_eq_some_iff, mem_byText,
    mem_byText]
  constructor
  · rintro ⟨entry, hentry, htext, rfl⟩
    obtain ⟨hentry, hgiven⟩ := List.mem_filter.1 hentry
    exact ⟨⟨entry, hentry, htext, rfl⟩, hgiven⟩
  · rintro ⟨⟨entry, hentry, htext, rfl⟩, hgiven⟩
    exact ⟨entry, List.mem_filter.2 ⟨hentry, hgiven⟩, htext, rfl⟩

/-! ## Dictionaries that give the same -/

/-- Two dictionaries that give the same entries, in any order. -/
structure GivesSame (m m' : Entries α) : Prop where
  left : m.IsDictionary
  right : m'.IsDictionary
  perm : m.given.Perm m'.given

theorem GivesSame.lookup?_eq (h : m.GivesSame m') (key : Text) :
    Value.lookup? key m.kept = Value.lookup? key m'.kept :=
  h.left.kept.lookup?_eq h.right.kept fun _ => h.perm.mem_iff

/-- Dictionaries under whose texts the same is found give the same. -/
theorem IsDictionary.givesSame (h : m.IsDictionary) (h' : m'.IsDictionary)
    (hlookup : ∀ key, Value.lookup? key m.kept = Value.lookup? key m'.kept) : m.GivesSame m' := by
  refine ⟨h, h', ?_⟩
  rw [given, given, List.perm_ext_iff_of_nodup h.kept.nodup_byText h'.kept.nodup_byText]
  rintro ⟨key, value⟩
  rw [← h.kept.lookup?_eq_some_iff, ← h'.kept.lookup?_eq_some_iff, hlookup]

/-- Unknown keys are the same but for their order. -/
theorem GivesSame.unknown_perm (h : m.GivesSame m') (known : Text → Bool) :
    (m.kept.unknown known).Perm (m'.kept.unknown known) :=
  (h.perm.map _).filter _

/-! ## Writing an entry -/

variable [Scalar α]

theorem lookup?_setEntry (m : Entries α) (key other : Text) (value : Value α) :
    Value.lookup? other (Value.setEntry (.text key) value m)
      = if other = key then some value else Value.lookup? other m := by
  induction m with
  | nil =>
    rw [Value.setEntry, Value.lookup?_cons]
    simp [Value.text?, eq_comm]
  | cons entry rest ih =>
    rw [Value.setEntry, Value.sameKey_text]
    by_cases hkey : entry.1.text? = some key
    · rw [if_pos (by simp [hkey]), Value.lookup?_cons, Value.lookup?_cons]
      by_cases hother : other = key
      · simp [hkey, hother]
      · simp [hkey, hother, Ne.symm hother]
    · rw [if_neg (by simp [hkey]), Value.lookup?_cons, ih, Value.lookup?_cons]
      by_cases hother : entry.1.text? = some other
      · have hne : other ≠ key := by rintro rfl; exact hkey hother
        simp [hother, hne]
      · simp [hother]

/-- The keys after an entry was written: a key that was there keeps its place. -/
theorem map_text_setEntry (m : Entries α) (key : Text) (value : Value α) :
    (Value.setEntry (.text key) value m).map (fun entry => entry.1.text?)
      = if some key ∈ m.map (fun entry => entry.1.text?) then m.map fun entry => entry.1.text?
        else (m.map fun entry => entry.1.text?) ++ [some key] := by
  induction m with
  | nil => rfl
  | cons entry rest ih =>
    rw [Value.setEntry, Value.sameKey_text]
    by_cases hkey : entry.1.text? = some key
    · simp [hkey]
    · rw [if_neg (by simp [hkey]), List.map_cons, ih]
      simp only [List.map_cons, List.mem_cons, eq_comm (a := some key) (b := entry.1.text?), hkey, false_or]
      split <;> rfl

theorem IsDictionary.setEntry (h : m.IsDictionary) (key : Text) (value : Value α) :
    IsDictionary (Value.setEntry (.text key) value m) := by
  have hmap := map_text_setEntry m key value
  constructor
  · intro entry hentry
    have hmem : entry.1.text? ∈ (Value.setEntry (.text key) value m).map fun entry => entry.1.text? :=
      List.mem_map_of_mem hentry
    have hold (text? : Option Text) (ht : text? ∈ m.map fun entry => entry.1.text?) :
        text?.isSome = true := by
      obtain ⟨entry, hentry, rfl⟩ := List.mem_map.1 ht
      exact h.texts entry hentry
    rw [hmap] at hmem
    split at hmem
    · exact hold _ hmem
    · rcases List.mem_append.1 hmem with hmem | hmem
      · exact hold _ hmem
      · rw [List.mem_singleton.1 hmem]
        rfl
  · rw [hmap]
    split
    · exact h.nodup
    · next hnew =>
      refine h.nodup.append (List.nodup_singleton _) ?_
      simpa using hnew

/-- Dictionaries that give the same do so after an entry was written. -/
theorem GivesSame.setEntry (h : m.GivesSame m') (key : Text) (value : Value α) :
    GivesSame (Value.setEntry (.text key) value m) (Value.setEntry (.text key) value m') := by
  have hleft := h.left.setEntry key value
  have hright := h.right.setEntry key value
  refine hleft.givesSame hright fun other => ?_
  have hother := h.lookup?_eq other
  rw [h.left.lookup?_kept, h.right.lookup?_kept] at hother
  rw [hleft.lookup?_kept, hright.lookup?_kept, lookup?_setEntry, lookup?_setEntry]
  split
  · rfl
  · exact hother

end Entries

/-! ## Keys in order -/

/-- The same keys are reported in the same order. -/
theorem sorted_eq_of_perm {keys keys' : List Text} (h : keys.Perm keys') :
    (keys.mergeSort fun a b => decide (a ≤ b)) = keys'.mergeSort fun a b => decide (a ≤ b) :=
  Json.mergeSort_eq_of_perm id h fun _ _ _ _ heq => heq

section

variable [Interchange α]

omit [Interchange α] in
/-- The texts of the keys that are not known, in terms of any test for them. -/
theorem Entries.IsDictionary.map_some_unknown {m : Entries α} (h : m.IsDictionary) (known : Text → Bool)
    {p : Value α → Bool} (hp : ∀ key t, key.text? = some t → p key = !known t) :
    ((m.map (·.1)).filter p).map Value.text? = (m.unknown known).map some := by
  obtain ⟨htexts, -⟩ := h
  unfold unknown byText
  induction m with
  | nil => rfl
  | cons entry rest ih =>
    obtain ⟨t, ht⟩ := Option.isSome_iff_exists.1 (htexts entry List.mem_cons_self)
    have ih := ih fun entry hentry => htexts entry (List.mem_cons_of_mem _ hentry)
    rw [List.filterMap_cons_some (b := (t, entry.2)) (by rw [ht]; rfl)]
    simp only [List.map_cons, List.filter_cons, hp entry.1 t ht]
    cases known t with
    | true => simpa using ih
    | false => simpa [ht] using ih

omit [Interchange α] in
/-- Is there a key that is not known? -/
theorem Entries.IsDictionary.isEmpty_unknown {m : Entries α} (h : m.IsDictionary)
    (known : Text → Bool) {p : Value α → Bool} (hp : ∀ key t, key.text? = some t → p key = !known t) :
    ((m.map (·.1)).filter p).isEmpty = (m.unknown known).isEmpty := by
  have hempty := congrArg List.isEmpty (h.map_some_unknown known hp)
  rwa [List.isEmpty_map, List.isEmpty_map] at hempty

omit [Interchange α] in
/-- Keys that are texts, taken to these one by one. -/
theorem Value.mapM_texts {f : Value α → Except Fault Text} (hf : ∀ key t, key.text? = some t → f key = .ok t)
    {keys : List (Value α)} {texts : List Text} (h : keys.map Value.text? = texts.map some) :
    keys.mapM f = .ok texts := by
  induction keys generalizing texts with
  | nil =>
    obtain rfl := List.map_eq_nil_iff.1 h.symm
    rfl
  | cons key keys ih =>
    obtain ⟨t, rest, rfl, ht, hrest⟩ := List.map_eq_cons_iff.1 h.symm
    rw [List.mapM_cons, hf key t ht.symm, ih hrest.symm]
    rfl

/-- Keys that are texts can be ordered. -/
theorem Resolution.keyTexts_eq {keys : List (Value α)} {texts : List Text}
    (h : keys.map Value.text? = texts.map some) :
    keyTexts keys = .ok (texts.mergeSort fun a b => decide (a ≤ b)) := by
  unfold keyTexts
  split
  · next key =>
    obtain ⟨t, rest, rfl, ht, hrest⟩ := List.map_eq_cons_iff.1 h.symm
    obtain rfl := List.map_eq_nil_iff.1 hrest
    rw [Value.toText_of_text? ht.symm, List.mergeSort_singleton]
    rfl
  · rw [Value.mapM_texts (fun key t ht => by rw [ht]) h]
    rfl

end

/-! ## Options -/

namespace Resolution

variable [Scalar α] [Interchange α]

omit [Scalar α] in
/-- The unknown options of a dictionary are reported in order. -/
theorem checkUnknown_eq {c : Context α} (h : c.entries.IsDictionary) (s? : Option Solver) :
    checkUnknown c s? =
      let unknown := c.entries.unknown (OptionName.isKeyOf s?)
      if !unknown.isEmpty then
        Prep.report c.invoker.name (.unknownOptions (unknown.mergeSort fun a b => decide (a ≤ b)))
      else pure () := by
  have hknown (key : Value α) (t : Text) (ht : key.text? = some t) :
      (!isKnown s? key) = !OptionName.isKeyOf s? t := by
    rw [isKnown, ht]
    rfl
  simp only [checkUnknown, keyTexts_eq (h.map_some_unknown _ hknown), h.isEmpty_unknown _ hknown]
  rfl

end Resolution

variable [Scalar α]

/-- The entries of options that are a dictionary; absent options have none. -/
def Value.dictionary? : Value α → Option (Entries α)
  | .absent => some []
  | .mapping entries => some entries
  | _ => none

/-- Equal options, or dictionaries that give the same. -/
inductive Value.SameOptions : Value α → Value α → Prop where
  | same (v : Value α) : SameOptions v v
  | dictionaries {v w : Value α} {m m' : Entries α} (hv : v.dictionary? = some m)
    (hw : w.dictionary? = some m') (h : m.GivesSame m') : SameOptions v w

omit [Scalar α] in
theorem readEntries_of_dictionary {v : Value α} {m : Entries α} (h : v.dictionary? = some m)
    (source : String) : readEntries source v = .ok m.kept := by
  cases v with
  | absent =>
    obtain rfl := Option.some.inj h
    rfl
  | mapping entries =>
    obtain rfl := Option.some.inj h
    rfl
  | _ => cases h

/-- A solver that is written among a dictionary of options is written as an entry. -/
theorem withSolver_of_dictionary {v : Value α} {m : Entries α} (h : v.dictionary? = some m)
    (solver : Value α) : withSolver solver v = .mapping (Value.setEntry (.text "solver") solver m) := by
  cases v with
  | absent =>
    obtain rfl := Option.some.inj h
    rfl
  | mapping entries =>
    obtain rfl := Option.some.inj h
    rfl
  | _ => cases h

/-- Options stay the same when a solver is written among them. -/
theorem Value.SameOptions.withSolver {v w : Value α} (h : v.SameOptions w) (solver : Value α) :
    Value.SameOptions (Presolve.withSolver solver v) (Presolve.withSolver solver w) := by
  cases h with
  | same => exact .same _
  | dictionaries hv hw h =>
    rw [withSolver_of_dictionary hv, withSolver_of_dictionary hw]
    exact .dictionaries rfl rfl (h.setEntry "solver" solver)

variable [Interchange α]

/-- The same options are resolved alike. -/
theorem resolveOptions_eq {v w : Value α} (h : v.SameOptions w) (invoker : Invoker) (n : Nat)
    (bounds : Bounds α) : resolveOptions invoker w n bounds = resolveOptions invoker v n bounds := by
  cases h with
  | same => rfl
  | dictionaries hv hw h =>
    unfold resolveOptions
    rw [readEntries_of_dictionary hv, readEntries_of_dictionary hw]
    refine Resolution.settings_congr (c := ⟨invoker, n, bounds, _⟩) ?_ ?_
    · intro name
      exact (h.lookup?_eq name.key).symm
    · intro s?
      have hperm := h.unknown_perm (OptionName.isKeyOf s?)
      rw [Resolution.checkUnknown_eq h.right.kept, Resolution.checkUnknown_eq h.left.kept]
      dsimp only
      rw [hperm.isEmpty_eq, sorted_eq_of_perm hperm]

/-! ## Parts of a problem -/

/-- Dictionaries that give the same parts of a problem, in any order, and the same options. -/
structure Entries.SameParts (m m' : Entries α) : Prop where
  left : m.IsDictionary
  right : m'.IsDictionary
  others : (m.given.filter fun entry => entry.1 != ("options" : Text)).Perm
    (m'.given.filter fun entry => entry.1 != ("options" : Text))
  options : Value.SameOptions (m.kept.part "options") (m'.kept.part "options")

namespace Entries.SameParts

variable {m m' : Entries α} (h : m.SameParts m')

include h

omit [Scalar α] [Interchange α] in
theorem lookup?_eq {key : Text} (hkey : key ≠ "options") :
    Value.lookup? key m'.kept = Value.lookup? key m.kept := by
  refine h.right.kept.lookup?_eq h.left.kept fun value => ?_
  have hmem := h.others.mem_iff (a := (key, value))
  simpa [hkey, given] using hmem.symm

omit [Scalar α] [Interchange α] in
theorem part_eq {key : Text} (hkey : key ≠ "options") : m'.kept.part key = m.kept.part key := by
  rw [part, part, h.lookup?_eq hkey]

omit [Scalar α] [Interchange α] in
theorem unknown_perm : (m.kept.unknown (Text.isAmong fieldKeys)).Perm (m'.kept.unknown (Text.isAmong fieldKeys)) := by
  -- the options are known, so they do not count
  have hfilter (entries : Entries α) : entries.unknown (Text.isAmong fieldKeys)
      = ((entries.byText.filter fun entry => entry.1 != ("options" : Text)).map Prod.fst).filter
        fun key => !Text.isAmong fieldKeys key := by
    rw [unknown, List.filter_map, List.filter_map, List.filter_filter]
    refine congrArg _ (List.filter_congr fun entry _ => ?_)
    by_cases hkey : entry.1 = ("options" : Text)
    · simp [hkey, fieldKeys]
    · simp [hkey]
  rw [hfilter, hfilter]
  exact (h.others.map _).filter _

omit [Interchange α] in
theorem partOptions : Value.SameOptions m.kept.partOptions m'.kept.partOptions := by
  rw [Entries.partOptions_eq, Entries.partOptions_eq, h.lookup?_eq (by decide)]
  cases Value.lookup? "solver" m.kept with
  | none => exact h.options
  | some solver => exact h.options.withSolver solver

end Entries.SameParts

/-- What is read of a dictionary: what is found under the keys of the parts, among the entries that are
not empty. -/
theorem readFields_eq {m : Entries α} (h : m.IsDictionary) (source : String) :
    readFields source (.mapping m) = (do
      if (Value.lookup? "x0" m.kept).isNone then throw (.invalid .noStart source)
      let objective ← if (m.kept.part "objective").isAbsent then do
          Prep.report source .noObjective
          pure zeroObjective
        else pure (m.kept.part "objective")
      if !(m.kept.unknown (Text.isAmong fieldKeys)).isEmpty then
        Prep.report source (.unknownFields
          ((m.kept.unknown (Text.isAmong fieldKeys)).mergeSort fun a b => decide (a ≤ b)))
      return { Input.ofParts m.kept with objective }) := by
  have hkept := h.kept
  unfold readFields
  simp only [Input.ofParts, Entries.partOptions_eq]
  unfold Entries.kept at hkept ⊢
  have hunknown (key : Value α) (t : Text) (ht : key.text? = some t) :
      (!key.text?.any (Text.isAmong fieldKeys)) = !Text.isAmong fieldKeys t := by
    rw [ht]
    rfl
  rw [hkept.isEmpty_unknown _ hunknown, Value.mapM_texts (fun _ _ => Value.toText_of_text?)
    (hkept.map_some_unknown _ hunknown)]
  rfl

/-- The input that is read of any dictionary consists of its parts, except for an objective that is
missing. -/
theorem readFields_yields {m : Entries α} {source : String} {i : Input α}
    (h : (readFields source (.mapping m)).Yields i) : ∃ objective,
      (objective = zeroObjective ∨ objective = m.kept.part "objective") ∧
        i = { Input.ofParts m.kept with objective } := by
  have hrest {unknown : List (Value α)} {j : Input α} (h : Prep.Yields (do
      if !unknown.isEmpty then
        let texts ← (unknown.mapM Value.toText : Except Fault (List Text))
        Prep.report source (.unknownFields (texts.mergeSort fun a b => decide (a ≤ b)))
      return j : Prep α (Input α)) i) : i = j := by
    rcases h.of_ite with h | h
    · obtain ⟨_, -, h⟩ := h.of_bind
      obtain ⟨_, -, h⟩ := h.of_bind
      exact (Prep.yields_pure.1 h).symm
    · exact (Prep.yields_pure.1 h).symm
  unfold readFields at h
  simp only [Input.ofParts, Entries.partOptions_eq]
  rcases h.of_step.of_ite with h | h
  · obtain ⟨_, -, h⟩ := h.of_bind
    obtain ⟨objective, hobjective, h⟩ := h.of_bind
    exact ⟨objective, .inl (Prep.yields_pure.1 hobjective).symm, hrest h⟩
  · obtain ⟨objective, hobjective, h⟩ := h.of_bind
    exact ⟨objective, .inr (Prep.yields_pure.1 hobjective).symm, hrest h⟩

omit [Interchange α] in
/-- The input of dictionaries that give the same parts is the same apart from the options. -/
theorem Entries.SameParts.ofParts_eq {m m' : Entries α} (h : m.SameParts m') (objective : Value α) :
    { Input.ofParts m'.kept with objective }
      = { Input.ofParts m.kept with objective, options := m'.kept.partOptions } := by
  simp only [Input.ofParts, Input.mk.injEq, true_and, and_true]
  refine ⟨?_, ?_, ?_, ?_, ?_, ?_, ?_, ?_⟩ <;> exact h.part_eq (by decide)

/-- Dictionaries that give the same parts are read alike, and what is done with the input is the same if
it is so for the options of both. -/
theorem readFields_bind_eq {β : Type} {m m' : Entries α} (h : m.SameParts m') (source : String)
    {f : Input α → Prep α β}
    (hf : ∀ i : Input α,
      f { i with options := m'.kept.partOptions } = f { i with options := m.kept.partOptions }) :
    readFields source (.mapping m') >>= f = readFields source (.mapping m) >>= f := by
  rw [readFields_eq h.left, readFields_eq h.right]
  have hparts (objective : Value α) : f { Input.ofParts m'.kept with objective }
      = f { Input.ofParts m.kept with objective } := by
    rw [h.ofParts_eq]
    exact hf { Input.ofParts m.kept with objective }
  have hunknown := h.unknown_perm
  have hstart : Value.lookup? "x0" m'.kept = Value.lookup? "x0" m.kept := h.lookup?_eq (by decide)
  have hobjective : m'.kept.part "objective" = m.kept.part "objective" := h.part_eq (by decide)
  rw [hstart, hobjective, ← hunknown.isEmpty_eq, ← sorted_eq_of_perm hunknown]
  clear hstart hobjective
  dsimp only
  by_cases hstart : (Value.lookup? "x0" m.kept).isNone = true
  · -- both are refused before anything is read
    rw [if_pos hstart, if_pos hstart]
    rfl
  · rw [if_neg hstart, if_neg hstart]
    by_cases hobjective : (m.kept.part "objective").isAbsent = true
    · by_cases hnone : (m.kept.unknown (Text.isAmong fieldKeys)).isEmpty = true <;>
        simp [hobjective, hnone, hparts]
    · by_cases hnone : (m.kept.unknown (Text.isAmong fieldKeys)).isEmpty = true <;>
        simp [hobjective, hnone, hparts]

/-! ## Preparing -/

/-- The same options are prepared alike, apart from the input that the record keeps. -/
theorem withoutInput_prepare_options (search : NearestSearch α) (invoker : Invoker) (i : Input α)
    {v w : Value α} (h : v.SameOptions w) :
    Record.withoutInput <$> prepare search invoker { i with options := w }
      = Record.withoutInput <$> prepare search invoker { i with options := v } := by
  have hcheck : check invoker.name { i with options := w } = check invoker.name { i with options := v } :=
    rfl
  simp only [prepare, hcheck, resolveOptions_eq h, map_bind, map_pure, Record.withoutInput]

theorem withoutInput_prepareFields_sameParts (search : NearestSearch α) (invoker : Invoker)
    {m m' : Entries α} (h : m.SameParts m') :
    Record.withoutInput <$> prepareFields search invoker (.mapping m')
      = Record.withoutInput <$> prepareFields search invoker (.mapping m) := by
  simp only [prepareFields, map_bind]
  exact readFields_bind_eq h invoker.name fun i =>
    withoutInput_prepare_options search invoker i h.partOptions

/-- Two runs that end in the same fault, or in the same record apart from the input that it keeps and with
the same fingerprint outside debug mode, and that leave the same journal. -/
structure SameRun (x y : Except Fault (Record α) × Journal α) : Prop where
  result_eq : y.1.map Record.withoutInput = x.1.map Record.withoutInput
  journal_eq : y.2 = x.2
  fingerprint_eq : ∀ r r', x.1 = .ok r → y.1 = .ok r' → r.settings.debug = false →
    r'.toJson.map fingerprint = r.toJson.map fingerprint

/-- Two dictionaries that are prepared alike, whatever is escalated. -/
def Entries.PreparedAlike (search : NearestSearch α) (invoker : Invoker) (m m' : Entries α) : Prop :=
  ∀ e, SameRun (Prep.run e (prepareFields search invoker (.mapping m)))
    (Prep.run e (prepareFields search invoker (.mapping m')))

/-- Outside debug mode a record keeps no input. -/
theorem prepareFields_input {search : NearestSearch α} {invoker : Invoker} {v : Value α}
    {e : Option Category} {j k : Journal α} {r : Record α}
    (h : (prepareFields search invoker v).outcome e j = (.ok r, k)) (hdebug : r.settings.debug = false) :
    r.input = none := by
  obtain ⟨i, l, -, hprepare⟩ := Prep.outcome_bind_eq_ok.1 h
  rw [(prepare_keeps hprepare).2, hdebug]
  rfl

theorem Entries.SameParts.preparedAlike (search : NearestSearch α) (invoker : Invoker)
    {m m' : Entries α} (h : m.SameParts m') : m.PreparedAlike search invoker m' := by
  intro e
  have hrun := congrArg (Prep.run e) (withoutInput_prepareFields_sameParts search invoker h)
  rw [Prep.run_map, Prep.run_map, Prod.mk.injEq] at hrun
  refine ⟨hrun.1, hrun.2, fun r r' hr hr' hdebug => ?_⟩
  have hresult : r'.withoutInput = r.withoutInput := by
    have hmap := hrun.1
    rw [hr, hr'] at hmap
    exact Except.ok.inj hmap
  have hdebug' : r'.settings.debug = false := by
    rw [← hdebug]
    exact congrArg (fun r => r.settings.debug) hresult
  -- neither keeps its input, so the two records are equal
  have hinput : r.input = none := prepareFields_input (Prod.ext hr rfl) hdebug
  have hinput' : r'.input = none := prepareFields_input (Prod.ext hr' rfl) hdebug'
  have heq : r' = r := by
    obtain ⟨_, _, _, _, _, _, _, _, _, _, _, _, _⟩ := r
    obtain ⟨_, _, _, _, _, _, _, _, _, _, _, _, _⟩ := r'
    cases hinput
    cases hinput'
    exact hresult
  rw [heq]

/-! ## Empty entries -/

/-- A value that says nothing: none at all, an empty text, or an empty list. -/
def Value.SaysNothing (v : Value α) : Prop := v = .absent ∨ v = .text "" ∨ v = .list []

namespace Entries

variable {before after : Entries α} {key value : Value α}

omit [Scalar α] [Interchange α] in
theorem kept_insert (h : value.SaysNothing) :
    kept (before ++ (key, value) :: after) = kept (before ++ after) := by
  have hempty : value.isEmpty = true := by
    rcases h with rfl | rfl | rfl <;> rfl
  simp [kept, hempty]

omit [Scalar α] [Interchange α] in
theorem IsDictionary.remove (h : IsDictionary (before ++ (key, value) :: after)) :
    IsDictionary (before ++ after) := by
  have hsub : (before ++ after).Sublist (before ++ (key, value) :: after) :=
    (List.sublist_cons_self _ _).append_left before
  exact ⟨fun entry hentry => h.texts entry (hsub.subset hentry), h.nodup.sublist (hsub.map _)⟩

omit [Scalar α] [Interchange α] in
/-- A dictionary is one with another value under one of its keys. -/
theorem IsDictionary.replace {other : Value α} (h : IsDictionary (before ++ (key, value) :: after)) :
    IsDictionary (before ++ (key, other) :: after) := by
  obtain ⟨htexts, hnodup⟩ := h
  constructor
  · intro entry hentry
    rcases List.mem_append.1 hentry with hentry | hentry
    · exact htexts entry (List.mem_append_left _ hentry)
    · rcases List.mem_cons.1 hentry with rfl | hentry
      · exact htexts (key, value) (by simp)
      · exact htexts entry (by simp [hentry])
  · simpa using hnodup

omit [Scalar α] [Interchange α] in
/-- An entry that says nothing counts as missing. -/
theorem IsDictionary.sameParts_remove (h : IsDictionary (before ++ (key, value) :: after))
    (hvalue : value.SaysNothing) :
    SameParts (before ++ (key, value) :: after) (before ++ after) := by
  refine ⟨h, h.remove, ?_, ?_⟩
  · rw [given, given, kept_insert hvalue]
  · rw [kept_insert hvalue]
    exact .same _

omit [Scalar α] [Interchange α] in
theorem IsDictionary.givesSame_remove (h : IsDictionary (before ++ (key, value) :: after))
    (hvalue : value.SaysNothing) :
    GivesSame (before ++ (key, value) :: after) (before ++ after) := by
  refine ⟨h, h.remove, ?_⟩
  rw [given, given, kept_insert hvalue]

omit [Scalar α] [Interchange α] in
/-- Dictionaries whose options give the same give the same parts. -/
theorem IsDictionary.sameParts_options {o o' : Entries α}
    (h : IsDictionary (before ++ (key, .mapping o) :: after)) (hkey : key.text? = some ("options" : Text))
    (ho : o.GivesSame o') :
    SameParts (before ++ (key, .mapping o) :: after) (before ++ (key, .mapping o') :: after) := by
  have hpart (entries : Entries α) (hm : IsDictionary (before ++ (key, .mapping entries) :: after)) :
      (Entries.kept (before ++ (key, .mapping entries) :: after)).part "options" = .mapping entries := by
    have hmem : (("options" : Text), Value.mapping entries) ∈ given (before ++ (key, .mapping entries) :: after) :=
      mem_byText.2 ⟨(key, .mapping entries), List.mem_filter.2 ⟨by simp, rfl⟩, hkey, rfl⟩
    rw [part, hm.kept.lookup?_eq_some_iff.2 hmem, Option.getD_some]
  refine ⟨h, h.replace, ?_, ?_⟩
  · have hnone (entries : Entries α) : (given (before ++ (key, .mapping entries) :: after)).filter
        (fun entry => entry.1 != ("options" : Text))
          = (given (before ++ after)).filter fun entry => entry.1 != ("options" : Text) := by
      have hgiven : (!(Value.mapping entries : Value α).isEmpty) = true := rfl
      simp [given, Entries.kept, byText, hgiven, hkey]
    rw [hnone, hnone]
  · rw [hpart o h, hpart o' h.replace]
    exact .dictionaries rfl rfl ho

end Entries

/-- A problem given as a dictionary is prepared by the entries that are not empty: dictionaries that give
the same parts and the same options are prepared alike, and at both levels an entry that says nothing
counts as missing. -/
theorem prepareFields_by_given (search : NearestSearch α) (invoker : Invoker) :
    (∀ m m' : Entries α, m.SameParts m' → m.PreparedAlike search invoker m') ∧
      (∀ (before : Entries α) key value after, value.SaysNothing →
        Entries.IsDictionary (before ++ (key, value) :: after) →
        Entries.PreparedAlike search invoker (before ++ (key, value) :: after) (before ++ after)) ∧
      ∀ (before : Entries α) key (o : Entries α) name value o' after, value.SaysNothing →
        key.text? = some ("options" : Text) → Entries.IsDictionary (o ++ (name, value) :: o') →
        Entries.IsDictionary (before ++ (key, .mapping (o ++ (name, value) :: o')) :: after) →
        Entries.PreparedAlike search invoker
          (before ++ (key, .mapping (o ++ (name, value) :: o')) :: after)
          (before ++ (key, .mapping (o ++ o')) :: after) := by
  refine ⟨?_, ?_, ?_⟩
  · intro m m' h
    exact h.preparedAlike search invoker
  · intro before key value after hvalue h
    exact (h.sameParts_remove hvalue).preparedAlike search invoker
  · intro before key o name value o' after hvalue hkey ho h
    exact (h.sameParts_options hkey (ho.givesSame_remove hvalue)).preparedAlike search invoker

/-- A dictionary with unknown keys in it and among its options, of which some entries say nothing. -/
def scatteredProblem : Entries (Extended ℚ) :=
  [(.text "zeta", .int 1), (.text "lb", .list []), (.text "x0", .list [.int 1]),
    (.text "options", .mapping [(.text "Rho", .int 2), (.text "solver", .absent),
      (.text "Maxfun", .int 3)]),
    (.text "alpha", .int 2), (.text "Beq", .text "")]

/-- The same dictionary in another order, without what says nothing. -/
def tidyProblem : Entries (Extended ℚ) :=
  [(.text "alpha", .int 2), (.text "x0", .list [.int 1]), (.text "zeta", .int 1),
    (.text "options", .mapping [(.text "Maxfun", .int 3), (.text "Rho", .int 2)])]

theorem scatteredProblem_sameParts_tidyProblem : scatteredProblem.SameParts tidyProblem where
  left := ⟨by decide, by decide⟩
  right := ⟨by decide, by decide⟩
  others := (List.reverse_perm
    ([("zeta", .int 1), ("x0", .list [.int 1]), ("alpha", .int 2)] : List (Text × Value (Extended ℚ)))).symm
  options := by
    refine .dictionaries rfl rfl ⟨⟨by decide, by decide⟩, ⟨by decide, by decide⟩, ?_⟩
    exact (List.reverse_perm
      ([("Rho", .int 2), ("Maxfun", .int 3)] : List (Text × Value (Extended ℚ)))).symm

/-- Both are prepared alike: unknown keys are reported together, and once for each level. -/
theorem prepareFields_by_given_scatteredProblem : ∃ r r',
    (Prep.run none (prepareFields NearestSearch.stay .frontEnd (.mapping scatteredProblem))).1 = .ok r ∧
      (Prep.run none (prepareFields NearestSearch.stay .frontEnd (.mapping tidyProblem))).1 = .ok r' ∧
      r'.withoutInput = r.withoutInput ∧
      r.diagnostics.map Diagnostic.id
        = ["pdfo:NoObjective", "pdfo:UnknownProbField", "pdfo:UnknownOption"] := by
  have hrun : (Prep.run none
      (prepareFields NearestSearch.stay .frontEnd (.mapping scatteredProblem))).1.toOption.map
      (fun r => r.diagnostics.map Diagnostic.id)
        = some ["pdfo:NoObjective", "pdfo:UnknownProbField", "pdfo:UnknownOption"] := by decide +kernel
  obtain ⟨r, hr, hids⟩ := exists_of_toOption_map hrun
  have hsame := (prepareFields_by_given NearestSearch.stay .frontEnd).1 scatteredProblem tidyProblem
    scatteredProblem_sameParts_tidyProblem none
  have hresult := hsame.result_eq
  rw [hr] at hresult
  obtain ⟨r', hr', heq⟩ := map_eq_ok.1 hresult
  exact ⟨r, r', hr, hr', heq, hids⟩

end Presolve
