import Presolve.Proofs.Json.RoundTrip
import Presolve.Proofs.Value.Data
import Presolve.Record

/-!
# The canonical text of a value

The canonical text of a value loses nothing: the data of the value can be read from it. It depends on the
data only, so two values share a text if and only if their data are the same, and the order of the entries
of a dictionary does not matter, at whatever depth it stands (`canonicalText_faithful`).

This holds of values of all kinds that JSON has a form for (`Value.IsData`), up to one assumption on the
texts of their reals: that these read back as the same doubles (`Json.ReadsBack`).
-/

namespace Presolve

variable {α : Type} [Scalar α] [Interchange α] {R : α → Prop}

/-! ## Values that JSON has a form for -/

/-- A flag, an integer that is not too long, a text without a pair of halves, or a real that is infinite,
undefined or satisfies `R`. -/
def Cell.IsData (R : α → Prop) : Cell α → Prop
  | .bool _ => True
  | .text t => t.IsJoined
  | .int i => Decimal.isWritable i = true
  | .real x => Scalar.isFinite x = true → R x
  | _ => False

/-- A key that has a text without a pair of halves. -/
def Value.HasText (key : Value α) : Prop := key.isWritable = true ∧ key.shown.IsJoined

/-- Nothing, flags, integers that are not too long, reals that satisfy `R` if they are finite, texts without
pairs of halves, names of closed sets, arrays of those with one dimension or more, and lists and dictionaries
of such values. The keys of a dictionary are different as texts. -/
inductive Value.IsData (R : α → Prop) : Value α → Prop where
  | absent : IsData R absent
  | bool (b : Bool) : IsData R (bool b)
  | int {i : Int} (h : Decimal.isWritable i = true) : IsData R (int i)
  | real {x : α} (h : Scalar.isFinite x = true → R x) : IsData R (real x)
  | text {t : Text} (h : t.IsJoined) : IsData R (text t)
  | kind (k : ProblemKind) : IsData R (kind k)
  | solver (s : Solver) : IsData R (solver s)
  | invoker (i : Invoker) : IsData R (invoker i)
  | entry (type : CellType) {cell : Cell α} (h : cell.IsData R) : IsData R (entry type cell)
  | array {grid : Grid α} (hshape : grid.cells.shape ≠ [])
    (h : ∀ cell ∈ grid.cells.entries, cell.IsData R) : IsData R (array grid)
  | list {items : List (Value α)} (h : ∀ item ∈ items, IsData R item) : IsData R (list items)
  | tuple {items : List (Value α)} (h : ∀ item ∈ items, IsData R item) : IsData R (tuple items)
  | mapping {entries : List (Value α × Value α)}
    (hkeys : (entries.map fun entry => entry.1.shown).Nodup)
    (htexts : ∀ entry ∈ entries, entry.1.HasText) (h : ∀ entry ∈ entries, IsData R entry.2) :
    IsData R (mapping entries)

/-- The same value but for the order of the entries of dictionaries, at any depth. -/
inductive Value.Reorders : Value α → Value α → Prop where
  | here {entries entries' : List (Value α × Value α)} (h : entries.Perm entries') :
    Reorders (mapping entries) (mapping entries')
  | list (before after : List (Value α)) {v w : Value α} (h : Reorders v w) :
    Reorders (list (before ++ v :: after)) (list (before ++ w :: after))
  | tuple (before after : List (Value α)) {v w : Value α} (h : Reorders v w) :
    Reorders (tuple (before ++ v :: after)) (tuple (before ++ w :: after))
  | mapping (before after : List (Value α × Value α)) (key : Value α) {v w : Value α}
    (h : Reorders v w) :
    Reorders (mapping (before ++ (key, v) :: after)) (mapping (before ++ (key, w) :: after))
  | trans {u v w : Value α} (huv : Reorders u v) (hvw : Reorders v w) : Reorders u w

/-! ## Their data -/

namespace Json

omit [Interchange α] in
theorem isReadable_ofNumber {x : α} (h : Scalar.isFinite x = true → R x) : (ofNumber x).IsReadable R :=
  ofNumber_cases (fun s => .text (Text.isJoined_ofString s)) fun hfinite => .real (h hfinite)

omit [Scalar α] [Interchange α] in
theorem isReadable_nest (shape : List Nat) {items : List (Json α)}
    (h : ∀ item ∈ items, item.IsReadable R) : (nest shape items).IsReadable R :=
  nest_cases .null (fun _ => .array) shape h

end Json

theorem Cell.IsData.isReadable {cell : Cell α} (h : cell.IsData R) : cell.toJson.IsReadable R := by
  cases cell with
  | bool b => exact .bool b
  | int i => exact .int h
  | real x => exact Json.isReadable_ofNumber h
  | text t => exact .text h
  | complex _ _ | bytes _ | absent | opaqueItem => exact h.elim

namespace Value

/-- The data of a value that has some. -/
def data (v : Value α) : Json α :=
  match v.toJson with
  | .ok j => j
  | .error _ => .null

theorem data_of_toJson {v : Value α} {j : Json α} (h : v.toJson = .ok j) : v.data = j := by
  rw [data, h]

theorem itemsJson_eq {items : List (Value α)} (h : ∀ item ∈ items, item.toJson = .ok item.data) :
    itemsJson items = .ok (items.map data) := by
  induction items with
  | nil => rfl
  | cons item rest ih =>
    rw [itemsJson, h item List.mem_cons_self, ih fun item hitem => h item (List.mem_cons_of_mem _ hitem)]
    rfl

/-- An entry of a dictionary in data. -/
def entryData (entry : Value α × Value α) : Text × Json α := (entry.1.shown, entry.2.data)

omit [Scalar α] in
theorem toText_eq {key : Value α} (h : key.isWritable = true) : key.toText = .ok key.shown := if_pos h

theorem entriesJson_eq {entries : List (Value α × Value α)}
    (htexts : ∀ entry ∈ entries, entry.1.isWritable = true)
    (h : ∀ entry ∈ entries, entry.2.toJson = .ok entry.2.data) :
    entriesJson entries = .ok (entries.map entryData) := by
  induction entries with
  | nil => rfl
  | cons entry rest ih =>
    rw [List.forall_mem_cons] at htexts h
    rw [entriesJson, toText_eq htexts.1, h.1, ih htexts.2 h.2]
    rfl

theorem map_fst_entryData (entries : List (Value α × Value α)) :
    (entries.map entryData).map Prod.fst = entries.map fun entry => entry.1.shown := by
  rw [List.map_map]
  rfl

theorem toJson_list {items : List (Value α)} (h : ∀ item ∈ items, item.toJson = .ok item.data) :
    (list items).toJson = .ok (.array (items.map data)) := by
  rw [toJson, itemsJson_eq h]
  rfl

/-- In data a tuple is a list. -/
theorem toJson_tuple (items : List (Value α)) : (tuple items).toJson = (list items).toJson := by
  rw [toJson, toJson]

theorem toJson_mapping {entries : List (Value α × Value α)}
    (htexts : ∀ entry ∈ entries, entry.1.isWritable = true)
    (h : ∀ entry ∈ entries, entry.2.toJson = .ok entry.2.data)
    (hkeys : (entries.map fun entry => entry.1.shown).Nodup) :
    (mapping entries).toJson = .ok (.object (entries.map entryData)) := by
  rw [toJson, entriesJson_eq htexts h]
  show Except.ok (Json.ofFields (entries.map entryData)) = _
  rw [Json.ofFields_of_nodup (by rwa [map_fst_entryData])]

theorem toJson_array {grid : Grid α} (h : grid.cells.shape ≠ []) :
    (array grid).toJson = .ok (.nest grid.cells.shape (grid.cells.entries.map Cell.toJson)) := by
  rw [toJson, gridJson]
  split
  · exact absurd ‹grid.cells.shape = []› h
  · exact absurd ‹grid.cells.shape = []› h
  · exact absurd ‹grid.cells.shape = []› h
  · rfl

/-- A value with data that can be written and read is one whose `data` are its data. -/
theorem toJson_of_exists {v : Value α} (h : ∃ j, v.toJson = .ok j ∧ j.IsReadable R) :
    v.toJson = .ok v.data ∧ v.data.IsReadable R := by
  obtain ⟨j, hj, hread⟩ := h
  rw [data_of_toJson hj]
  exact ⟨hj, hread⟩

theorem exists_toJson_list {items : List (Value α)}
    (h : ∀ item ∈ items, ∃ j, item.toJson = .ok j ∧ j.IsReadable R) :
    ∃ j, (list items).toJson = .ok j ∧ j.IsReadable R := by
  have hitems := fun item hitem => toJson_of_exists (h item hitem)
  refine ⟨_, toJson_list fun item hitem => (hitems item hitem).1, .array fun j hj => ?_⟩
  obtain ⟨item, hitem, rfl⟩ := List.mem_map.1 hj
  exact (hitems item hitem).2

theorem exists_toJson_mapping {entries : List (Value α × Value α)}
    (hkeys : (entries.map fun entry => entry.1.shown).Nodup) (htexts : ∀ entry ∈ entries, entry.1.HasText)
    (h : ∀ entry ∈ entries, ∃ j, entry.2.toJson = .ok j ∧ j.IsReadable R) :
    ∃ j, (mapping entries).toJson = .ok j ∧ j.IsReadable R := by
  have hentries := fun entry hentry => toJson_of_exists (h entry hentry)
  refine ⟨_, toJson_mapping (fun entry hentry => (htexts entry hentry).1)
    (fun entry hentry => (hentries entry hentry).1) hkeys,
    .object (by rwa [map_fst_entryData]) ?_ ?_⟩
  · exact List.forall_mem_map.2 fun entry hentry => (htexts entry hentry).2
  · exact List.forall_mem_map.2 fun entry hentry => (hentries entry hentry).2

/-- A value that JSON has a form for has data, and these can be written and read. -/
theorem IsData.toJson_eq {v : Value α} (h : v.IsData R) :
    v.toJson = .ok v.data ∧ v.data.IsReadable R := by
  apply toJson_of_exists
  induction h with
  | absent => exact ⟨_, rfl, .null⟩
  | bool b => exact ⟨_, rfl, .bool b⟩
  | int h => exact ⟨_, rfl, .int h⟩
  | real h => exact ⟨_, rfl, Json.isReadable_ofNumber h⟩
  | text h => exact ⟨_, rfl, .text h⟩
  | kind k => exact ⟨_, rfl, .text (Text.isJoined_ofString _)⟩
  | solver s => exact ⟨_, rfl, .text (Text.isJoined_ofString _)⟩
  | invoker i => exact ⟨_, rfl, .text (Text.isJoined_ofString _)⟩
  | entry type h => exact ⟨_, rfl, h.isReadable⟩
  | array hshape h =>
    refine ⟨_, toJson_array hshape, Json.isReadable_nest _ fun item hitem => ?_⟩
    obtain ⟨cell, hcell, rfl⟩ := List.mem_map.1 hitem
    exact (h cell hcell).isReadable
  | list _ ih => exact exists_toJson_list ih
  | tuple _ ih => rw [toJson_tuple]; exact exists_toJson_list ih
  | mapping hkeys htexts _ ih => exact exists_toJson_mapping hkeys htexts ih

/-! ## Reordering -/

theorem IsData.data_list {items : List (Value α)} (h : ∀ item ∈ items, item.IsData R) :
    (Value.list items).data = .array (items.map data) :=
  data_of_toJson (toJson_list fun item hitem => (h item hitem).toJson_eq.1)

theorem data_tuple (items : List (Value α)) : (tuple items).data = (list items).data := by
  rw [data, data, toJson_tuple]

theorem IsData.data_mapping {entries : List (Value α × Value α)}
    (hkeys : (entries.map fun entry => entry.1.shown).Nodup) (htexts : ∀ entry ∈ entries, entry.1.HasText)
    (h : ∀ entry ∈ entries, entry.2.IsData R) :
    (Value.mapping entries).data = .object (entries.map entryData) :=
  data_of_toJson (toJson_mapping (fun entry hentry => (htexts entry hentry).1)
    (fun entry hentry => (h entry hentry).toJson_eq.1) hkeys)

/-- All items stay values of the kind if one of them is replaced by such a value. -/
theorem forall_mem_replace {ε : Type} {P : ε → Prop} {before after : List ε} {x y : ε}
    (h : ∀ z ∈ before ++ x :: after, P z) (hy : P y) : ∀ z ∈ before ++ y :: after, P z := by
  rw [List.forall_mem_append, List.forall_mem_cons] at h ⊢
  exact ⟨h.1, hy, h.2.2⟩

/-- The data of a list are the same with a value in it that has the same data. -/
theorem sorted_data_list {before after : List (Value α)} {v w : Value α}
    (h : ∀ item ∈ before ++ v :: after, item.IsData R) (hw : w.IsData R)
    (hsorted : v.data.sorted = w.data.sorted) :
    (list (before ++ v :: after)).data.sorted = (list (before ++ w :: after)).data.sorted := by
  rw [IsData.data_list h, IsData.data_list (forall_mem_replace h hw), Json.sorted_array, Json.sorted_array]
  simp only [List.map_append, List.map_cons, hsorted]

/-- What is reordered has the same data in the same order of keys. -/
theorem Reorders.sorted_eq {v w : Value α} (h : v.Reorders w) (hv : v.IsData R) :
    w.IsData R ∧ v.data.sorted = w.data.sorted := by
  induction h with
  | @here entries entries' hperm =>
    cases hv with
    | mapping hkeys htexts h =>
      have hkeys' : (entries'.map fun entry => entry.1.shown).Nodup :=
        (hperm.map _).nodup_iff.1 hkeys
      have htexts' : ∀ entry ∈ entries', entry.1.HasText :=
        fun entry hentry => htexts entry (hperm.mem_iff.2 hentry)
      have h' : ∀ entry ∈ entries', entry.2.IsData R := fun entry hentry => h entry (hperm.mem_iff.2 hentry)
      refine ⟨.mapping hkeys' htexts' h', ?_⟩
      rw [IsData.data_mapping hkeys htexts h, IsData.data_mapping hkeys' htexts' h', Json.sorted_object,
        Json.sorted_object,
        Json.mergeSort_of_perm ((hperm.map entryData).map Json.sortedField)]
      rwa [Json.map_fst_sortedField, map_fst_entryData]
  | @list before after v w _ ih =>
    cases hv with
    | list h =>
      obtain ⟨hw, hsorted⟩ := ih (h v (by simp))
      exact ⟨.list (forall_mem_replace h hw), sorted_data_list h hw hsorted⟩
  | @tuple before after v w _ ih =>
    cases hv with
    | tuple h =>
      obtain ⟨hw, hsorted⟩ := ih (h v (by simp))
      rw [data_tuple, data_tuple]
      exact ⟨.tuple (forall_mem_replace h hw), sorted_data_list h hw hsorted⟩
  | @mapping before after key v w _ ih =>
    cases hv with
    | mapping hkeys htexts h =>
      obtain ⟨hw, hsorted⟩ := ih (h (key, v) (by simp))
      have hkeys' : ((before ++ (key, w) :: after).map fun entry => entry.1.shown).Nodup := by
        simpa using hkeys
      have htexts' := forall_mem_replace (y := (key, w)) htexts (htexts (key, v) (by simp))
      have h' := forall_mem_replace (y := (key, w)) h hw
      refine ⟨.mapping hkeys' htexts' h', ?_⟩
      rw [IsData.data_mapping hkeys htexts h, IsData.data_mapping hkeys' htexts' h', Json.sorted_object,
        Json.sorted_object]
      simp only [List.map_append, List.map_cons, entryData, Json.sortedField, hsorted]
  | trans _ _ ihuv ihvw =>
    obtain ⟨hv, huv⟩ := ihuv hv
    obtain ⟨hw, hvw⟩ := ihvw hv
    exact ⟨hw, huv.trans hvw⟩

end Value

/-! ## Texts -/

/-- Data that can be read back have a canonical text. -/
theorem canonicalText_eq_ok {R : Float → Prop} {j : Json Float} (h : j.IsReadable R) (layout : Json.Layout) :
    canonicalText layout j = .ok (j.render shortestText layout) :=
  if_pos ((Json.isWritable_iff j).2 (h.allNumbers.mono (fun _ h => h) fun _ _ => trivial))

/-- The canonical text of a value tells its data but for the order of fields, and nothing else: there is one,
the data can be read from it, another value has the same text if and only if its data are the same, and a value
whose dictionaries are reordered has the same text. -/
theorem canonicalText_faithful {R : Float → Prop} (hR : ∀ x, R x → Json.ReadsBack shortestText x)
    (layout : Json.Layout) {v : Value Float} (hv : v.IsData R) :
    ∃ j text, v.toJson = .ok j ∧ canonicalText layout j = .ok text
      ∧ (∃ k, Json.parse text = .ok k ∧ k.Same j)
      ∧ (∀ w : Value Float, w.IsData R → ∃ k, w.toJson = .ok k
          ∧ (canonicalText layout k = .ok text ↔ k.Same j))
      ∧ ∀ w : Value Float, v.Reorders w → ∃ k, w.toJson = .ok k
          ∧ canonicalText layout k = .ok text := by
  obtain ⟨hdata, hread⟩ := hv.toJson_eq
  have hj := hread.mono hR
  refine ⟨v.data, _, hdata, canonicalText_eq_ok hj layout, hj.parse_render_same layout, fun w hw => ?_,
    fun w hreorders => ?_⟩
  · obtain ⟨hdata', hread'⟩ := hw.toJson_eq
    have hk := hread'.mono hR
    refine ⟨w.data, hdata', ?_⟩
    rw [canonicalText_eq_ok hk, Except.ok.injEq]
    exact hk.render_eq_iff hj layout
  · obtain ⟨hw, hsorted⟩ := hreorders.sorted_eq hv
    obtain ⟨hdata', hread'⟩ := hw.toJson_eq
    refine ⟨w.data, hdata', ?_⟩
    rw [canonicalText_eq_ok hread', Json.render, Json.render, hsorted]

/-- A dictionary with a list and another dictionary in it. -/
def nestedEntries : List (Value Float × Value Float) :=
  [(.text "scale", .list [.real 0.1, .bool true, .absent]),
    (.text "names", .mapping [(.int 1, .text "\"\u00e9\""), (.text "n", .int (-3))])]

theorem canonicalText_faithful_nestedEntries :
    (∀ x : Float, x = 0.1 → Json.ReadsBack shortestText x)
      ∧ (Value.mapping nestedEntries).IsData (· = (0.1 : Float))
      ∧ (Value.mapping nestedEntries).Reorders (.mapping nestedEntries.reverse)
      ∧ ∃ j k text, (Value.mapping nestedEntries).toJson = .ok j
        ∧ (Value.mapping nestedEntries.reverse).toJson = .ok k
        ∧ canonicalText (.lines 2) j = .ok text ∧ canonicalText (.lines 2) k = .ok text := by
  have hR : ∀ x : Float, x = 0.1 → Json.ReadsBack shortestText x := by
    rintro x rfl
    rfl
  have htext (s : String) : (Value.text s : Value Float).HasText := ⟨rfl, Text.isJoined_ofString s⟩
  have hone : (Value.int 1 : Value Float).HasText :=
    ⟨Decimal.isWritable_of_lt 1 (by decide) (by decide), Text.isJoined_ofString _⟩
  have hdata : (Value.mapping nestedEntries).IsData (· = (0.1 : Float)) := by
    have hlist : (Value.list [.real 0.1, .bool true, .absent]).IsData (· = (0.1 : Float)) := by
      refine .list fun item hitem => ?_
      simp only [List.mem_cons, List.not_mem_nil, or_false] at hitem
      rcases hitem with rfl | rfl | rfl
      · exact .real fun _ => rfl
      · exact .bool true
      · exact .absent
    have hmapping : (Value.mapping [(.int 1, .text "\"\u00e9\""), (.text "n", .int (-3))]).IsData
        (· = (0.1 : Float)) := by
      refine .mapping (by decide) (by simp [htext, hone]) fun entry hentry => ?_
      simp only [List.mem_cons, List.not_mem_nil, or_false] at hentry
      rcases hentry with rfl | rfl
      · exact .text (Text.isJoined_ofString _)
      · exact .int (Decimal.isWritable_of_lt 1 (by decide) (by decide))
    refine .mapping (by decide) (by simp [nestedEntries, htext]) fun entry hentry => ?_
    simp only [nestedEntries, List.mem_cons, List.not_mem_nil, or_false] at hentry
    rcases hentry with rfl | rfl
    · exact hlist
    · exact hmapping
  have hreorders : (Value.mapping nestedEntries).Reorders (.mapping nestedEntries.reverse) :=
    .here (List.reverse_perm _).symm
  obtain ⟨j, text, hj, htext, -, -, hsame⟩ := canonicalText_faithful hR (.lines 2) hdata
  obtain ⟨k, hk, htext'⟩ := hsame _ hreorders
  exact ⟨hR, hdata, hreorders, j, k, text, hj, hk, htext, htext'⟩

end Presolve
