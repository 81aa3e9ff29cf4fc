import Presolve.Proofs.Json.Grammar
import Presolve.Proofs.Value.Length
import Presolve.Value.Data

/-!
# Values that have data

JSON has a form for every number, text, list, dictionary and array but one: an array without dimensions is
written as the items of its only entry, and an entry that is no sequence has none. Besides there are values
whose text is written, and a text with an integer of too many digits does not exist. A value has data exactly
if nothing of the two kinds is written in it (`toJson_settles`).

What is written never holds a real that is infinite or undefined.
-/

namespace Presolve

variable {α : Type} {P : Json α → Prop}

/-! ## Numbers and nested lists -/

namespace Json

theorem ofNumber_cases [Scalar α] {x : α} (htext : ∀ s : String, P (text s))
    (hreal : Scalar.isFinite x = true → P (real x)) : P (ofNumber x) := by
  unfold ofNumber
  split
  · exact htext _
  · split
    · next hfinite => exact hreal hfinite
    · split <;> exact htext _

/-- What holds of the items, of nothing and of all arrays of what it holds of holds of nested lists. -/
theorem nest_cases (hnull : P null) (harray : ∀ items, (∀ item ∈ items, P item) → P (array items))
    (shape : List Nat) {items : List (Json α)} (h : ∀ item ∈ items, P item) : P (nest shape items) := by
  induction shape generalizing items with
  | nil =>
    match items with
    | [] => exact hnull
    | item :: rest => exact h item List.mem_cons_self
  | cons extent shape ih =>
    refine harray _ fun item hitem => ?_
    obtain ⟨piece, hpiece, rfl⟩ := List.mem_map.1 hitem
    exact ih fun item hitem => h item (Tensor.mem_of_mem_split hpiece hitem)

end Json

/-! ## Computations that fail in one case -/

/-- A computation fails if `bad`, with a fault of types or for an integer of too many digits, and returns
something that satisfies `Q` if not. -/
structure Settles {γ : Type} (bad : Prop) (Q : γ → Prop) (x : Except Fault γ) : Prop where
  fails : bad → x = .error .wrongType ∨ x = .error .tooManyDigits
  returns : ¬bad → ∃ y, x = .ok y ∧ Q y

theorem exists_mem_map_iff {β γ : Type} {f : β → γ} {xs : List β} {p : γ → Prop} :
    (∃ y ∈ xs.map f, p y) ↔ ∃ x ∈ xs, p (f x) := by
  constructor
  · rintro ⟨_, hy, h⟩
    obtain ⟨x, hx, rfl⟩ := List.mem_map.1 hy
    exact ⟨x, hx, h⟩
  · rintro ⟨x, hx, h⟩
    exact ⟨f x, List.mem_map_of_mem hx, h⟩

namespace Settles

variable {β γ δ : Type} {bad bad' : Prop} {Q : γ → Prop} {Q' : δ → Prop} {x : Except Fault γ}

theorem ok {y : γ} (hbad : ¬bad) (hy : Q y) : Settles bad Q (.ok y) where
  fails h := absurd h hbad
  returns _ := ⟨y, rfl, hy⟩

theorem error (hbad : bad) : Settles bad Q (.error .wrongType) where
  fails _ := .inl rfl
  returns h := absurd hbad h

theorem tooLong (hbad : bad) : Settles bad Q (.error .tooManyDigits) where
  fails _ := .inr rfl
  returns h := absurd hbad h

theorem of_iff (h : Settles bad Q x) (hiff : bad' ↔ bad) : Settles bad' Q x where
  fails hbad := h.fails (hiff.1 hbad)
  returns hbad := h.returns (mt hiff.2 hbad)

theorem mono {Q' : γ → Prop} (h : Settles bad Q x) (hQ : ∀ y, Q y → Q' y) : Settles bad Q' x where
  fails := h.fails
  returns hbad := by
    obtain ⟨y, rfl, hy⟩ := h.returns hbad
    exact ⟨y, rfl, hQ y hy⟩

theorem of_eq_ok (h : Settles bad Q x) {y : γ} (hx : x = .ok y) : Q y := by
  by_cases hbad : bad
  · rcases h.fails hbad with hf | hf <;> exact nomatch hx.symm.trans hf
  · obtain ⟨z, hz, hQ⟩ := h.returns hbad
    obtain rfl := Except.ok.inj (hx.symm.trans hz)
    exact hQ

theorem map {f : γ → δ} (h : Settles bad Q x) (hf : ∀ y, Q y → Q' (f y)) : Settles bad Q' (x.map f) where
  fails hbad := by rcases h.fails hbad with rfl | rfl <;> simp [Except.map]
  returns hbad := by
    obtain ⟨y, rfl, hy⟩ := h.returns hbad
    exact ⟨f y, rfl, hf y hy⟩

/-- A computation after another one fails if either does. -/
theorem bind {f : γ → Except Fault δ} (h : Settles bad Q x)
    (hf : ∀ y, x = .ok y → Q y → Settles bad' Q' (f y)) :
    Settles (bad ∨ bad') Q' (x >>= f) := by
  by_cases hbad : bad
  · constructor
    · intro _
      rcases h.fails hbad with rfl | rfl
      · exact .inl rfl
      · exact .inr rfl
    · exact fun hno => absurd (.inl hbad) hno
  · obtain ⟨y, rfl, hy⟩ := h.returns hbad
    exact (hf y rfl hy).of_iff (or_iff_right hbad)

/-- Two computations one after the other fail if either does. -/
theorem pair {y : Except Fault δ} (hx : Settles bad Q x) (hy : Settles bad' Q' y) :
    Settles (bad ∨ bad') (fun p => Q p.1 ∧ Q' p.2) (do return (← x, ← y)) :=
  hx.bind fun _ _ ha => (hy.bind fun _ _ hb => .ok id ⟨ha, hb⟩).of_iff (or_false _).symm.to_iff

/-- A list of computations fails if one of them does. -/
theorem mapM {xs : List β} {bad : β → Prop} {f : β → Except Fault γ}
    (h : ∀ b ∈ xs, Settles (bad b) Q (f b)) :
    Settles (∃ b ∈ xs, bad b) (fun ys => ∀ y ∈ ys, Q y) (xs.mapM f) := by
  induction xs with
  | nil => exact .ok (by simp) (List.forall_mem_nil _)
  | cons b rest ih =>
    obtain ⟨hb, hrest⟩ := List.forall_mem_cons.1 h
    rw [List.mapM_cons]
    refine (hb.bind fun y _ hy =>
      ((ih hrest).bind fun ys _ hys => ?_).of_iff (or_false _).symm.to_iff).of_iff ?_
    · exact .ok id (List.forall_mem_cons.2 ⟨hy, hys⟩)
    · simp

end Settles

namespace Value

/-! ## Induction -/

/-- The values that a value is built from. -/
def children : Value α → List (Value α)
  | list items | tuple items | objects _ items => items
  | mapping entries => entries.map (·.1) ++ entries.map (·.2)
  | options fields => OptionName.all.map fields
  | function _ (some parts) _ => parts.map (·.2)
  | _ => []

variable {Q : Value α → Prop}

mutual

/-- What holds of a value if it holds of all values that this is built from holds of every value. -/
theorem of_children (h : ∀ v : Value α, (∀ w ∈ v.children, Q w) → Q v) : ∀ v, Q v
  | list items | tuple items | objects _ items => h _ (of_children_items h items)
  | mapping entries =>
    h _ (List.forall_mem_append.2 ⟨of_children_keys h entries, of_children_values h entries⟩)
  | options fields => h _ (List.forall_mem_map.2 fun name _ => of_children h (fields name))
  | function _ (some parts) _ => h _ (of_children_parts h parts)
  | absent | bool _ | int _ | real _ | complex _ _ | text _ | bytes _ | entry _ _ | array _ | kind _
  | solver _ | invoker _ | function _ none _ => h _ (List.forall_mem_nil _)

theorem of_children_items (h : ∀ v : Value α, (∀ w ∈ v.children, Q w) → Q v) :
    ∀ items : List (Value α), ∀ w ∈ items, Q w
  | [] => List.forall_mem_nil _
  | item :: rest => List.forall_mem_cons.2 ⟨of_children h item, of_children_items h rest⟩

theorem of_children_keys (h : ∀ v : Value α, (∀ w ∈ v.children, Q w) → Q v) :
    ∀ entries : List (Value α × Value α), ∀ w ∈ entries.map (·.1), Q w
  | [] => List.forall_mem_nil _
  | (key, _) :: rest => List.forall_mem_cons.2 ⟨of_children h key, of_children_keys h rest⟩

theorem of_children_values (h : ∀ v : Value α, (∀ w ∈ v.children, Q w) → Q v) :
    ∀ entries : List (Value α × Value α), ∀ w ∈ entries.map (·.2), Q w
  | [] => List.forall_mem_nil _
  | (_, value) :: rest => List.forall_mem_cons.2 ⟨of_children h value, of_children_values h rest⟩

theorem of_children_parts (h : ∀ v : Value α, (∀ w ∈ v.children, Q w) → Q v) :
    ∀ parts : List (String × Value α), ∀ w ∈ parts.map (·.2), Q w
  | [] => List.forall_mem_nil _
  | (_, value) :: rest => List.forall_mem_cons.2 ⟨of_children h value, of_children_parts h rest⟩

end

/-! ## Values without a form -/

/-- What is found by walking through a value and may have no data; nothing if the value cannot be walked
through. Characters, bytes and the rows of an array of entries always have data. -/
def walked? : Value α → Option (List (Value α))
  | list items | tuple items | objects (_ :: _) items => some items
  | mapping entries => some (entries.map (·.1))
  | text _ | bytes _ | entry _ (.text _) | entry _ (.bytes _) | array ⟨_, ⟨_ :: _, _, _⟩⟩ => some []
  | _ => none

/-- A value that has no form in data: an array without dimensions whose only entry cannot be walked
through, or what is written by a text that there is none of. -/
def isFormless : Value α → Bool
  | array ⟨_, ⟨[], [.text _], _⟩⟩ | array ⟨_, ⟨[], [.bytes _], _⟩⟩ => false
  | array ⟨_, ⟨[], _, _⟩⟩ => true
  | objects [] [item] => item.walked?.isNone
  | mapping entries => entries.any fun entry => !entry.1.isWritable
  | options fields => !(options fields).isWritable
  | function view parts? call => !(function view parts? call).isWritable
  | _ => false

/-- The values whose data stand in the data of a value. -/
def written : Value α → List (Value α)
  | list items | tuple items => items
  | mapping entries => entries.map (·.2)
  | objects [] [item] => item.walked?.getD []
  | objects _ items => items
  | _ => []

/-- A value without a form is written in the value, at whatever depth. -/
inductive HoldsFormless : Value α → Prop where
  | here {v : Value α} (h : v.isFormless = true) : HoldsFormless v
  | deeper {v w : Value α} (hw : w ∈ v.written) (h : w.HoldsFormless) : HoldsFormless v

theorem holdsFormless_iff {v : Value α} :
    v.HoldsFormless ↔ v.isFormless = true ∨ ∃ w ∈ v.written, w.HoldsFormless := by
  constructor
  · intro h
    cases h with
    | here h => exact .inl h
    | deeper hw h => exact .inr ⟨_, hw, h⟩
  · rintro (h | ⟨w, hw, h⟩)
    · exact .here h
    · exact .deeper hw h

/-- In a value with a form one without is written if it is written in a part. -/
theorem holdsFormless_iff_of_written {v : Value α} {parts : List (Value α)} (hform : v.isFormless = false)
    (hparts : v.written = parts) : v.HoldsFormless ↔ ∃ w ∈ parts, w.HoldsFormless := by
  rw [holdsFormless_iff, hform, hparts]
  simp

/-- No data are found by walking through a value. -/
def BlocksWalk (v : Value α) : Prop :=
  v.walked? = none ∨ ∃ w ∈ v.walked?.getD [], w.HoldsFormless

theorem blocksWalk_iff {v : Value α} {items : List (Value α)} (hwalked : v.walked? = some items) :
    v.BlocksWalk ↔ ∃ w ∈ items, w.HoldsFormless := by
  simp [BlocksWalk, hwalked]

end Value

/-! ## Data -/

variable [Scalar α]

/-- Data whose integers satisfy `I` and whose reals are finite. -/
abbrev Json.HasNumbers (I : Int → Prop) (j : Json α) : Prop :=
  j.AllNumbers I fun x => Scalar.isFinite x = true

/-- Data whose reals are finite. -/
abbrev Json.HasFiniteReals (j : Json α) : Prop := j.HasNumbers fun _ => True

variable [Interchange α]

theorem Cell.hasFiniteReals_toJson (cell : Cell α) : cell.toJson.HasFiniteReals := by
  cases cell with
  | bool b => exact .bool b
  | int _ => exact .int trivial
  | real x => exact Json.ofNumber_cases (fun _ => .text _) fun h => .real h
  | complex re im => exact .text _
  | text s => exact .text s
  | bytes bs => exact .text _
  | absent | opaqueItem => exact .null

namespace Value

theorem itemsJson_eq_mapM (items : List (Value α)) : itemsJson items = items.mapM toJson := by
  induction items with
  | nil => rfl
  | cons item rest ih => rw [itemsJson, List.mapM_cons, ih]

theorem keysJson_eq (entries : List (Value α × Value α)) :
    keysJson entries = itemsJson (entries.map (·.1)) := by
  induction entries with
  | nil => rfl
  | cons entry rest ih => rw [keysJson, List.map_cons, itemsJson, ih]

theorem entriesJson_eq_mapM (entries : List (Value α × Value α)) :
    entriesJson entries = entries.mapM fun e => do return (← e.1.toText, ← e.2.toJson) := by
  induction entries with
  | nil => rfl
  | cons entry rest ih =>
    rw [entriesJson, List.mapM_cons, ih]
    simp only [bind_assoc, pure_bind]

/-- A value has data, unless something without a form is written in it. -/
def IsWritten (v : Value α) : Prop :=
  Settles v.HoldsFormless Json.HasFiniteReals v.toJson

/-- There are data to be found by walking through a value, unless something blocks the walk. -/
def IsWalked (v : Value α) : Prop :=
  Settles v.BlocksWalk Json.HasFiniteReals v.walkJson

theorem itemsJson_settles {items : List (Value α)} (h : ∀ item ∈ items, item.IsWritten) :
    Settles (∃ item ∈ items, item.HoldsFormless)
      (fun js => ∀ j ∈ js, j.HasFiniteReals) (itemsJson items) := by
  rw [itemsJson_eq_mapM]
  exact .mapM h

omit [Interchange α] in
theorem hasFiniteReals_nest (shape : List Nat) {items : List (Json α)}
    (h : ∀ item ∈ items, item.HasFiniteReals) :
    (Json.nest shape items).HasFiniteReals :=
  Json.nest_cases .null (fun _ => .array) shape h

/-- A value without parts. -/
theorem isWritten_leaf {v : Value α} {j : Json α} (hform : v.isFormless = false) (hparts : v.written = [])
    (hj : j.HasFiniteReals) (heq : v.toJson = .ok j) : v.IsWritten := by
  rw [IsWritten, heq]
  exact .ok (by simp [holdsFormless_iff_of_written hform hparts]) hj

/-- A value that cannot be walked through. -/
theorem isWalked_of_none {v : Value α} (hwalked : v.walked? = none)
    (heq : v.walkJson = .error .wrongType) : v.IsWalked := by
  rw [IsWalked, heq]
  exact .error (.inl hwalked)

/-- A value through which nothing is found that may have no data. -/
theorem isWalked_of_nil {v : Value α} {j : Json α} (hwalked : v.walked? = some [])
    (hj : j.HasFiniteReals) (heq : v.walkJson = .ok j) : v.IsWalked := by
  rw [IsWalked, heq]
  exact .ok (by simp [BlocksWalk, hwalked]) hj

omit [Interchange α] in
theorem hasFiniteReals_singles (s : Text) :
    Json.HasFiniteReals (Json.array (s.singles.map .text) : Json α) :=
  .array (List.forall_mem_map.2 fun _ _ => .text _)

omit [Interchange α] in
theorem hasFiniteReals_bytes (bs : List UInt8) :
    Json.HasFiniteReals (Json.array (bs.map fun b => .int b.toNat) : Json α) :=
  .array (List.forall_mem_map.2 fun _ _ => .int trivial)

omit [Scalar α] in
theorem toText_settles (v : Value α) : Settles (v.isWritable = false) (fun _ => True) v.toText := by
  unfold toText
  cases v.isWritable with
  | true => exact .ok (by simp) trivial
  | false => exact .tooLong rfl

omit [Scalar α] in
theorem toLiteral_settles (v : Value α) : Settles (v.isWritable = false) (fun _ => True) v.toLiteral := by
  unfold toLiteral
  cases v.isWritable with
  | true => exact .ok (by simp) trivial
  | false => exact .tooLong rfl

/-- A value that is written as its text. -/
theorem literal_settles {v : Value α} (hform : v.isFormless = !v.isWritable) (hparts : v.written = [])
    (heq : v.toJson = v.toLiteral.map fun (s : String) => .text s) : v.IsWritten := by
  rw [IsWritten, heq]
  refine (v.toLiteral_settles.map fun s _ => .text s).of_iff ?_
  rw [holdsFormless_iff, hform, hparts]
  simp

theorem entry_settles (type : CellType) (cell : Cell α) :
    (entry type cell).IsWritten ∧ (entry type cell).IsWalked := by
  refine ⟨isWritten_leaf rfl rfl cell.hasFiniteReals_toJson rfl, ?_⟩
  cases cell with
  | text s => exact isWalked_of_nil rfl (hasFiniteReals_singles s) rfl
  | bytes bs => exact isWalked_of_nil rfl (hasFiniteReals_bytes bs) rfl
  | _ => exact isWalked_of_none rfl rfl

theorem array_settles (grid : Grid α) : (array grid).IsWritten ∧ (array grid).IsWalked := by
  obtain ⟨type, ⟨shape, entries, hlength⟩⟩ := grid
  match shape with
  | [] =>
    refine ⟨?_, isWalked_of_none rfl rfl⟩
    obtain ⟨cell, rfl⟩ := List.length_eq_one_iff.1 hlength
    cases cell with
    | text s => exact isWritten_leaf rfl rfl (hasFiniteReals_singles s) rfl
    | bytes bs => exact isWritten_leaf rfl rfl (hasFiniteReals_bytes bs) rfl
    | _ => exact .error (.here rfl)
  | extent :: shape =>
    have hcells := hasFiniteReals_nest (extent :: shape)
      (List.forall_mem_map.2 fun (cell : Cell α) (_ : cell ∈ entries) => cell.hasFiniteReals_toJson)
    exact ⟨isWritten_leaf rfl rfl hcells rfl, isWalked_of_nil rfl hcells rfl⟩

theorem objects_settles (shape : List Nat) {items : List (Value α)}
    (h : ∀ item ∈ items, item.IsWritten ∧ item.IsWalked) :
    (objects shape items).IsWritten ∧ (objects shape items).IsWalked := by
  have hitems := (itemsJson_settles fun item hitem => (h item hitem).1).map (f := Json.nest shape)
    fun _ => hasFiniteReals_nest shape
  match shape, items with
  | [], [item] =>
    have hiff : (objects [] [item]).HoldsFormless ↔ item.BlocksWalk := by
      rw [holdsFormless_iff]
      simp [isFormless, written, BlocksWalk]
    exact ⟨(h item List.mem_cons_self).2.of_iff hiff, isWalked_of_none rfl rfl⟩
  | [], [] | [], _ :: _ :: _ =>
    exact ⟨hitems.of_iff (holdsFormless_iff_of_written rfl rfl), isWalked_of_none rfl rfl⟩
  | _ :: _, _ =>
    exact ⟨hitems.of_iff (holdsFormless_iff_of_written rfl rfl), hitems.of_iff (blocksWalk_iff rfl)⟩

theorem mapping_settles {entries : List (Value α × Value α)}
    (h : ∀ w ∈ (mapping entries).children, w.IsWritten) :
    (mapping entries).IsWritten ∧ (mapping entries).IsWalked := by
  obtain ⟨hkeys, hvalues⟩ := List.forall_mem_append.1 h
  rw [List.forall_mem_map] at hvalues
  have hfields : Settles (∃ e ∈ entries, e.1.isWritable = false ∨ e.2.HoldsFormless)
      (fun fields => ∀ field ∈ fields, field.2.HasFiniteReals) (entriesJson entries) := by
    rw [entriesJson_eq_mapM]
    exact .mapM fun e he => (e.1.toText_settles.pair (hvalues e he)).mono fun _ h => h.2
  have hitems := itemsJson_settles hkeys
  rw [← keysJson_eq] at hitems
  constructor
  · have hiff : (mapping entries).HoldsFormless ↔
        ∃ e ∈ entries, e.1.isWritable = false ∨ e.2.HoldsFormless := by
      rw [holdsFormless_iff]
      simp only [isFormless, written, exists_mem_map_iff, List.any_eq_true, Bool.not_eq_true', and_or_left,
        exists_or]
    exact (hfields.map fun _ => .ofFields).of_iff hiff
  · exact (hitems.map fun _ => .array).of_iff (blocksWalk_iff rfl)

/-- A value has data exactly if nothing without a form is written in it, and so does what is found by walking
through it. -/
theorem toJson_settles (v : Value α) : v.IsWritten ∧ v.IsWalked := by
  refine of_children (Q := fun v => v.IsWritten ∧ v.IsWalked) (fun v ih => ?_) v
  have hleaf {v : Value α} {j : Json α} (hform : v.isFormless = false) (hparts : v.written = [])
      (hj : j.HasFiniteReals) (heq : v.toJson = .ok j) (hwalked : v.walked? = none)
      (hwalk : v.walkJson = .error .wrongType) : v.IsWritten ∧ v.IsWalked :=
    ⟨isWritten_leaf hform hparts hj heq, isWalked_of_none hwalked hwalk⟩
  cases v with
  | absent => exact hleaf rfl rfl .null rfl rfl rfl
  | bool b => exact hleaf rfl rfl (.bool b) rfl rfl rfl
  | int i => exact hleaf rfl rfl (.int trivial) rfl rfl rfl
  | real x => exact hleaf rfl rfl (Json.ofNumber_cases (fun _ => .text _) fun h => .real h) rfl rfl rfl
  | complex re im => exact hleaf rfl rfl (.text _) rfl rfl rfl
  | text s =>
    exact ⟨isWritten_leaf rfl rfl (.text s) rfl, isWalked_of_nil rfl (hasFiniteReals_singles s) rfl⟩
  | bytes bs =>
    exact ⟨isWritten_leaf rfl rfl (.text _) rfl, isWalked_of_nil rfl (hasFiniteReals_bytes bs) rfl⟩
  | list items | tuple items =>
    have hitems : Settles (∃ item ∈ items, item.HoldsFormless) Json.HasFiniteReals
        ((itemsJson items).map .array) :=
      (itemsJson_settles fun item hitem => (ih item hitem).1).map fun _ => .array
    exact ⟨hitems.of_iff (holdsFormless_iff_of_written rfl rfl), hitems.of_iff (blocksWalk_iff rfl)⟩
  | mapping entries => exact mapping_settles fun w hw => (ih w hw).1
  | entry type cell => exact entry_settles type cell
  | array grid => exact array_settles grid
  | objects shape items => exact objects_settles shape ih
  | kind k => exact hleaf rfl rfl (.text _) rfl rfl rfl
  | solver s => exact hleaf rfl rfl (.text _) rfl rfl rfl
  | invoker i => exact hleaf rfl rfl (.text _) rfl rfl rfl
  | options fields | function view parts? call =>
    exact ⟨literal_settles rfl rfl (by rw [toJson]), isWalked_of_none rfl rfl⟩

end Value
end Presolve
