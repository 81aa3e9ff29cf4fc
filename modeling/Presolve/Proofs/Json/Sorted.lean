import Mathlib.Data.List.Nodup
import Mathlib.Data.List.Perm.Basic
import Presolve.Proofs.Json.Strings

/-!
# JSON data whose fields are in order

Data are *the same* if they are equal but for the order in which the fields of an object stand. Sorting the
fields makes that an equality: data in which no object has two fields for one key are the same if and only
if they are equal once they are sorted.

An integer and a real are different data, also where they stand for one number.
-/

namespace Presolve.Json

variable {ν : Type} {R : ν → Prop}

/-! ## Data without regard to the order of fields -/

mutual

/-- The same data but for the order of fields: two objects have equally many, and each field of the one has
one with the same key in the other. -/
def Same : Json ν → Json ν → Prop
  | null, null => True
  | bool a, bool b => a = b
  | int i, int k => i = k
  | real x, real y => x = y
  | text s, text t => s = t
  | array items, array items' => SameItems items items'
  | object fields, object fields' => fields.length = fields'.length ∧ SameFields fields fields'
  | _, _ => False

def SameItems : List (Json ν) → List (Json ν) → Prop
  | [], [] => True
  | item :: rest, item' :: rest' => item.Same item' ∧ SameItems rest rest'
  | _, _ => False

def SameFields : List (Text × Json ν) → List (Text × Json ν) → Prop
  | [], _ => True
  | (key, value) :: rest, fields' =>
    (∃ value', (key, value') ∈ fields' ∧ value.Same value') ∧ SameFields rest fields'

end

theorem sameFields_iff {fields fields' : List (Text × Json ν)} :
    SameFields fields fields' ↔
      ∀ field ∈ fields, ∃ value', (field.1, value') ∈ fields' ∧ field.2.Same value' := by
  induction fields with
  | nil => simp [SameFields]
  | cons field rest ih => simp [SameFields, ih]

/-! ## Well-formed data -/

/-- Data that can be written and read: one field for each key, integers that are not too long, no pairs of
halves in texts and keys, and reals that satisfy `R`. -/
inductive IsReadable (R : ν → Prop) : Json ν → Prop where
  | null : IsReadable R null
  | bool (b : Bool) : IsReadable R (bool b)
  | int {i : Int} (h : Decimal.isWritable i = true) : IsReadable R (int i)
  | real {x : ν} (h : R x) : IsReadable R (real x)
  | text {t : Text} (h : t.IsJoined) : IsReadable R (text t)
  | array {items : List (Json ν)} (h : ∀ item ∈ items, IsReadable R item) : IsReadable R (array items)
  | object {fields : List (Text × Json ν)} (hkeys : (fields.map Prod.fst).Nodup)
    (hjoined : ∀ field ∈ fields, field.1.IsJoined) (h : ∀ field ∈ fields, IsReadable R field.2) :
    IsReadable R (object fields)

theorem IsReadable.mono {R' : ν → Prop} {j : Json ν} (h : j.IsReadable R) (hR : ∀ x, R x → R' x) :
    j.IsReadable R' := by
  induction h with
  | null => exact .null
  | bool b => exact .bool b
  | int h => exact .int h
  | real h => exact .real (hR _ h)
  | text h => exact .text h
  | array _ ih => exact .array ih
  | object hkeys hjoined _ ih => exact .object hkeys hjoined ih

/-! ## Writing fields in turn -/

theorem setField_of_not_mem {key : Text} {value : Json ν} {fields : List (Text × Json ν)}
    (h : key ∉ fields.map Prod.fst) : setField key value fields = fields ++ [(key, value)] := by
  induction fields with
  | nil => rfl
  | cons field rest ih =>
    obtain ⟨hne, hrest⟩ : key ≠ field.1 ∧ key ∉ rest.map Prod.fst := by simpa using h
    rw [setField, if_neg (Ne.symm hne), ih hrest]
    rfl

/-- Fields with different keys all stay, in the order in which they are written. -/
theorem ofFields_of_nodup {fields : List (Text × Json ν)} (h : (fields.map Prod.fst).Nodup) :
    ofFields fields = object fields := by
  have hfold : ∀ acc : List (Text × Json ν), ((acc ++ fields).map Prod.fst).Nodup →
      fields.foldl (fun acc field => setField field.1 field.2 acc) acc = acc ++ fields := by
    clear h
    induction fields with
    | nil => simp
    | cons field rest ih =>
      intro acc hacc
      have hfresh : field.1 ∉ acc.map Prod.fst := by
        rw [List.map_append, List.map_cons, List.nodup_append] at hacc
        exact fun hmem => hacc.2.2 _ hmem _ List.mem_cons_self rfl
      rw [List.foldl_cons, setField_of_not_mem hfresh, ih _ (by simpa using hacc)]
      simp
  exact congrArg object (hfold [] (by simpa using h))

/-! ## Sorting -/

theorem sortedItems_eq (items : List (Json ν)) : sortedItems items = items.map sorted := by
  induction items with
  | nil => rfl
  | cons item rest ih => rw [sortedItems, ih, List.map_cons]

/-- A field with its value sorted. -/
def sortedField (field : Text × Json ν) : Text × Json ν := (field.1, field.2.sorted)

theorem sortedFields_eq (fields : List (Text × Json ν)) :
    sortedFields fields = fields.map sortedField := by
  induction fields with
  | nil => rfl
  | cons field rest ih => rw [sortedFields, ih, List.map_cons, sortedField]

theorem map_fst_sortedField (fields : List (Text × Json ν)) :
    (fields.map sortedField).map Prod.fst = fields.map Prod.fst := by
  rw [List.map_map]
  rfl

theorem sorted_array (items : List (Json ν)) : (array items).sorted = array (items.map sorted) := by
  rw [sorted, sortedItems_eq]

theorem sorted_object (fields : List (Text × Json ν)) :
    (object fields).sorted
      = object ((fields.map sortedField).mergeSort fun a b => decide (a.1 ≤ b.1)) := by
  rw [sorted, sortedFields_eq]

theorem sortedFields_perm (fields : List (Text × Json ν)) :
    ((fields.map sortedField).mergeSort fun a b => decide (a.1 ≤ b.1)).Perm (fields.map sortedField) :=
  List.mergeSort_perm _ _

/-- Lists that are equal but for their order are equal once they are sorted by texts that tell their items
apart. -/
theorem mergeSort_eq_of_perm {β : Type} (f : β → Text) {xs ys : List β} (hperm : xs.Perm ys)
    (hinj : ∀ a ∈ xs, ∀ b ∈ xs, f a = f b → a = b) :
    xs.mergeSort (fun a b => decide (f a ≤ f b)) = ys.mergeSort fun a b => decide (f a ≤ f b) := by
  have htrans : ∀ a b c : β, decide (f a ≤ f b) = true → decide (f b ≤ f c) = true →
      decide (f a ≤ f c) = true := by
    intro a b c hab hbc
    exact decide_eq_true (Text.le_trans (of_decide_eq_true hab) (of_decide_eq_true hbc))
  have htotal : ∀ a b : β, (decide (f a ≤ f b) || decide (f b ≤ f a)) = true := by
    intro a b
    rcases Text.le_total (f a) (f b) with h | h <;> simp [h]
  have hsorts := (List.mergeSort_perm xs fun a b => decide (f a ≤ f b)).trans
    (hperm.trans (List.mergeSort_perm ys fun a b => decide (f a ≤ f b)).symm)
  apply hsorts.eq_of_pairwise
  · intro a b ha hb hab hba
    have ha : a ∈ xs := (List.mergeSort_perm _ _).mem_iff.1 ha
    have hb : b ∈ xs := hperm.mem_iff.2 ((List.mergeSort_perm _ _).mem_iff.1 hb)
    exact hinj a ha b hb (Text.le_antisymm (of_decide_eq_true hab) (of_decide_eq_true hba))
  · exact List.pairwise_mergeSort htrans htotal xs
  · exact List.pairwise_mergeSort htrans htotal ys

/-- Fields with different keys that are equal but for their order are equal once they are sorted. -/
theorem mergeSort_of_perm {fields fields' : List (Text × Json ν)} (hperm : fields.Perm fields')
    (hkeys : (fields.map Prod.fst).Nodup) :
    fields.mergeSort (fun a b => decide (a.1 ≤ b.1))
      = fields'.mergeSort fun a b => decide (a.1 ≤ b.1) := by
  apply mergeSort_eq_of_perm Prod.fst hperm
  -- two fields with one key are one field
  intro a ha b hb hkey
  exact List.inj_on_of_nodup_map hkeys ha hb hkey

/-- Data that are sorted can be written and read if they could before. -/
theorem IsReadable.sorted {j : Json ν} (h : j.IsReadable R) : j.sorted.IsReadable R := by
  induction h with
  | null => exact .null
  | bool b => exact .bool b
  | int h => exact .int h
  | real h => exact .real h
  | text h => exact .text h
  | array _ ih =>
    rw [sorted_array]
    refine .array fun item hitem => ?_
    obtain ⟨item', hmem, rfl⟩ := List.mem_map.1 hitem
    exact ih item' hmem
  | @object fields hkeys hjoined _ ih =>
    have hperm := sortedFields_perm fields
    rw [sorted_object]
    refine .object ?_ (fun field hfield => ?_) fun field hfield => ?_
    · rwa [(hperm.map Prod.fst).nodup_iff, map_fst_sortedField]
    · obtain ⟨field', hfield', rfl⟩ := List.mem_map.1 (hperm.mem_iff.1 hfield)
      exact hjoined field' hfield'
    · obtain ⟨field', hfield', rfl⟩ := List.mem_map.1 (hperm.mem_iff.1 hfield)
      exact ih field' hfield'

/-! ## The same data -/

theorem sameItems_of_map_eq {items items' : List (Json ν)}
    (ih : ∀ item ∈ items, ∀ item', item.sorted = item'.sorted → item.Same item')
    (h : items.map sorted = items'.map sorted) : SameItems items items' := by
  induction items generalizing items' with
  | nil =>
    cases items' with
    | nil => trivial
    | cons item' rest' => simp at h
  | cons item rest ihs =>
    cases items' with
    | nil => simp at h
    | cons item' rest' =>
      obtain ⟨hitem, hrest⟩ : item.sorted = item'.sorted ∧ rest.map sorted = rest'.map sorted := by
        simpa using h
      exact ⟨ih item List.mem_cons_self item' hitem,
        ihs (fun item hitem => ih item (List.mem_cons_of_mem _ hitem)) hrest⟩

/-- Data that are equal once they are sorted are the same. -/
theorem IsReadable.same_of_sorted_eq {j k : Json ν} (hj : j.IsReadable R) (h : j.sorted = k.sorted) :
    j.Same k := by
  induction hj generalizing k with
  | @array items _ ih =>
    cases k with
    | array items' =>
      rw [sorted_array, sorted_array, Json.array.injEq] at h
      exact sameItems_of_map_eq ih h
    | object fields' => simp [sorted_array, sorted_object] at h
    | _ => simp [Json.sorted] at h
  | @object fields _ _ _ ih =>
    cases k with
    | object fields' =>
      rw [sorted_object, sorted_object, Json.object.injEq] at h
      have hperm : (fields.map sortedField).Perm (fields'.map sortedField) :=
        (sortedFields_perm fields).symm.trans (h ▸ sortedFields_perm fields')
      refine ⟨by simpa using hperm.length_eq, sameFields_iff.2 fun field hfield => ?_⟩
      have hmem := hperm.mem_iff.1 (List.mem_map_of_mem hfield)
      obtain ⟨field', hfield', heq⟩ := List.mem_map.1 hmem
      obtain ⟨hkey, hvalue⟩ := Prod.mk.inj heq
      exact ⟨field'.2, hkey ▸ hfield', ih field hfield hvalue.symm⟩
    | array items' => simp [sorted_array, sorted_object] at h
    | _ => simp [Json.sorted] at h
  | _ =>
    cases k with
    | _ => simp_all [Json.sorted, Same]

theorem map_sorted_of_sameItems {items items' : List (Json ν)}
    (ih : ∀ item ∈ items, ∀ item' ∈ items', item.Same item' → item.sorted = item'.sorted)
    (h : SameItems items items') : items.map sorted = items'.map sorted := by
  induction items generalizing items' with
  | nil =>
    cases items' with
    | nil => rfl
    | cons item' rest' => exact h.elim
  | cons item rest ihs =>
    cases items' with
    | nil => exact h.elim
    | cons item' rest' =>
      have hitem := ih item List.mem_cons_self item' List.mem_cons_self h.1
      have hrest := ihs (fun item hitem item' hitem' =>
        ih item (List.mem_cons_of_mem _ hitem) item' (List.mem_cons_of_mem _ hitem')) h.2
      rw [List.map_cons, hitem, hrest, List.map_cons]

/-- The same data are equal once they are sorted. -/
theorem IsReadable.sorted_eq_of_same {j k : Json ν} (hj : j.IsReadable R) (hk : k.IsReadable R)
    (h : j.Same k) : j.sorted = k.sorted := by
  induction hj generalizing k with
  | @array items _ ih =>
    cases hk with
    | array hitems' =>
      rw [sorted_array, sorted_array]
      exact congrArg Json.array (map_sorted_of_sameItems
        (fun item hitem item' hitem' => ih item hitem (hitems' item' hitem')) h)
    | _ => exact h.elim
  | @object fields hkeys _ _ ih =>
    cases hk with
    | @object fields' hkeys' _ hfields' =>
      obtain ⟨hlen, hsame⟩ := h
      rw [sameFields_iff] at hsame
      -- each field has its counterpart, and there are no others
      have hsub : fields.map sortedField ⊆ fields'.map sortedField := by
        intro field hfield
        obtain ⟨field, hmem, rfl⟩ := List.mem_map.1 hfield
        obtain ⟨value', hmem', hvalue⟩ := hsame field hmem
        have heq := ih field hmem (hfields' _ hmem') hvalue
        exact List.mem_map.2 ⟨_, hmem', by rw [sortedField, sortedField, heq]⟩
      have hnodup : (fields.map sortedField).Nodup :=
        List.Nodup.of_map Prod.fst (by rwa [map_fst_sortedField])
      have hperm : (fields.map sortedField).Perm (fields'.map sortedField) :=
        (List.subperm_of_subset hnodup hsub).perm_of_length_le (by simp [hlen])
      rw [sorted_object, sorted_object, mergeSort_of_perm hperm (by rwa [map_fst_sortedField])]
    | _ => exact h.elim
  | _ =>
    cases hk with
    | array _ | object _ _ => exact h.elim
    | _ => simp_all [Json.sorted, Same]

/-- Sorting is what makes the same data equal. -/
theorem IsReadable.same_iff {j k : Json ν} (hj : j.IsReadable R) (hk : k.IsReadable R) :
    j.Same k ↔ j.sorted = k.sorted := ⟨hj.sorted_eq_of_same hk, hj.same_of_sorted_eq⟩

/-- Sorting data twice is sorting them once. -/
theorem IsReadable.sorted_sorted {j : Json ν} (hj : j.IsReadable R) : j.sorted.sorted = j.sorted := by
  induction hj with
  | @array items _ ih =>
    rw [sorted_array, sorted_array, List.map_map]
    exact congrArg Json.array (List.map_congr_left ih)
  | @object fields hkeys _ _ ih =>
    have hfields : (fields.map sortedField).map sortedField = fields.map sortedField := by
      rw [List.map_map]
      apply List.map_congr_left
      intro field hfield
      rw [Function.comp_apply, sortedField, sortedField, ih field hfield]
    have hperm := (sortedFields_perm fields).map sortedField
    rw [hfields] at hperm
    rw [sorted_object, sorted_object, mergeSort_of_perm hperm]
    rwa [(hperm.map Prod.fst).nodup_iff, map_fst_sortedField]
  | _ => rfl

/-- Sorted data are the same data. -/
theorem IsReadable.sorted_same {j : Json ν} (hj : j.IsReadable R) : j.sorted.Same j :=
  hj.sorted.same_of_sorted_eq hj.sorted_sorted

end Presolve.Json
