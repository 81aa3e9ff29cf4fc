import Presolve.Proofs.Json.Grammar
import Presolve.Proofs.Outcome

/-!
# Data that were read

Whatever the text is, the reader returns data of one kind only: integers that are not too long to be written
again, and objects in which every key stands once (`IsParsed`). Each function of the reader is shown to keep
this, given that the ones it calls do (`ReturnsParsed`), and the induction is on the fuel.
-/

namespace Presolve.Json

/-- Data without integers of too many digits, and without an object that has a key twice. -/
inductive IsParsed : Json Float → Prop where
  | null : IsParsed null
  | bool (b : Bool) : IsParsed (bool b)
  | int {i : Int} (h : Decimal.isWritable i = true) : IsParsed (int i)
  | real (x : Float) : IsParsed (real x)
  | text (t : Text) : IsParsed (text t)
  | array {items : List (Json Float)} (h : ∀ item ∈ items, IsParsed item) : IsParsed (array items)
  | object {fields : List (Text × Json Float)} (hkeys : (fields.map Prod.fst).Nodup)
    (h : ∀ field ∈ fields, IsParsed field.2) : IsParsed (object fields)

/-! ## Objects -/

section

variable {ν : Type}

/-- A key that is there keeps its place, and a new one comes last. -/
theorem map_fst_setField (key : Text) (value : Json ν) (fields : List (Text × Json ν)) :
    (setField key value fields).map Prod.fst
      = if key ∈ fields.map Prod.fst then fields.map Prod.fst else fields.map Prod.fst ++ [key] := by
  induction fields with
  | nil => rfl
  | cons field rest ih =>
    obtain ⟨k, v⟩ := field
    rw [setField]
    by_cases hk : k = key
    · simp [hk]
    · rw [if_neg hk, List.map_cons, ih]
      simp only [List.map_cons, List.mem_cons, Ne.symm hk, false_or]
      split <;> rfl

theorem nodup_setField {key : Text} {value : Json ν} {fields : List (Text × Json ν)}
    (h : (fields.map Prod.fst).Nodup) : ((setField key value fields).map Prod.fst).Nodup := by
  rw [map_fst_setField]
  split
  · exact h
  · next hnew => exact h.append (List.nodup_singleton _) (by simpa using hnew)

end

/-- Fields that are written in turn make an object in which every key stands once. -/
theorem IsParsed.ofFields {fields : List (Text × Json Float)} (h : ∀ field ∈ fields, IsParsed field.2) :
    IsParsed (ofFields fields) := by
  have hwritten (acc : List (Text × Json Float)) (hkeys : (acc.map Prod.fst).Nodup)
      (hacc : ∀ field ∈ acc, IsParsed field.2) :
      IsParsed (Json.object (fields.foldl (fun acc field => setField field.1 field.2 acc) acc)) := by
    induction fields generalizing acc with
    | nil => exact .object hkeys hacc
    | cons field rest ih =>
      rw [List.forall_mem_cons] at h
      exact ih h.2 _ (nodup_setField hkeys) (forall_mem_setField h.1 hacc)
  exact hwritten [] List.nodup_nil (List.forall_mem_nil _)

/-! ## Numbers -/

namespace Reader

theorem digitsValue_lt {digits : List Char} (h : ∀ c ∈ digits, c.isDigit = true) :
    digitsValue digits < Nat.pow 10 digits.length := by
  have hfold (n : Nat) : digits.foldl (fun n c => 10 * n + (c.toNat - '0'.toNat)) n
      < (n + 1) * 10 ^ digits.length := by
    induction digits generalizing n with
    | nil => simp
    | cons c rest ih =>
      rw [List.forall_mem_cons] at h
      have hc : c.toNat - '0'.toNat ≤ 9 := by
        have hdigit := h.1
        simp only [Char.isDigit, Bool.and_eq_true, decide_eq_true_eq] at hdigit
        have hle : c.toNat ≤ '9'.toNat := hdigit.2
        have hnine : '9'.toNat = 57 := rfl
        have hzero : '0'.toNat = 48 := rfl
        omega
      have hrest := ih h.2 (10 * n + (c.toNat - '0'.toNat))
      rw [List.foldl_cons, List.length_cons]
      refine Nat.lt_of_lt_of_le hrest ?_
      rw [Nat.pow_succ, Nat.mul_comm _ 10, ← Nat.mul_assoc]
      exact Nat.mul_le_mul_right _ (by omega)
  simpa [digitsValue] using hfold 0

/-- What stands in front of the point are digits. -/
theorem isDigit_of_whole? {body whole rest : List Char} (h : whole? body = some (whole, rest)) :
    ∀ c ∈ whole, c.isDigit = true := by
  unfold whole? at h
  split at h
  · cases h
    simp
  · simp only at h
    split at h
    · cases h
    · cases h
      exact List.all_eq_true.1 List.all_takeWhile

theorem isParsed_unsigned {negative : Bool} {start body rest : List Char} {j : Json Float}
    (h : unsigned negative start body = .ok (j, rest)) : j.IsParsed := by
  unfold unsigned at h
  split at h
  · cases h
  · next whole rest' hwhole =>
    simp only at h
    split at h
    · cases h
      exact .real _
    · split at h
      · cases h
      · next hshort =>
        cases h
        refine .int (Decimal.isWritable_of_lt _ (Nat.le_of_not_lt hshort) ?_)
        cases negative <;> simpa using digitsValue_lt (isDigit_of_whole? hwhole)

theorem isParsed_number {s rest : List Char} {j : Json Float} (h : number s = .ok (j, rest)) :
    j.IsParsed := by
  unfold number at h
  split at h <;> exact isParsed_unsigned h

theorem isParsed_atom {lenient : Bool} {s rest : List Char} {j : Json Float}
    (h : atom lenient s = .ok (j, rest)) : j.IsParsed := by
  have hwords : ∀ word ∈ words lenient, word.2.IsParsed := by
    cases lenient <;>
      simp only [words, List.cons_append, List.nil_append, List.append_nil, List.forall_mem_cons,
        Bool.false_eq_true, if_true, if_false]
    · exact ⟨.null, .bool true, .bool false, List.forall_mem_nil _⟩
    · exact ⟨.null, .bool true, .bool false, .real _, .real _, .real _, List.forall_mem_nil _⟩
  unfold atom at h
  split at h
  · next word value hfound =>
    cases h
    exact hwords _ (List.mem_of_find?_eq_some hfound)
  · exact isParsed_number h

/-! ## Values -/

/-- The three functions that call each other return data of this kind, with this much fuel. -/
structure ReturnsParsed (lenient : Bool) (fuel : Nat) : Prop where
  value {s rest : List Char} {j : Json Float} : value lenient fuel s = .ok (j, rest) → j.IsParsed
  items {s rest : List Char} {xs : List (Json Float)} :
    items lenient fuel s = .ok (xs, rest) → ∀ x ∈ xs, x.IsParsed
  fields {s rest : List Char} {fs : List (Text × Json Float)} :
    fields lenient fuel s = .ok (fs, rest) → ∀ field ∈ fs, field.2.IsParsed

section

variable {lenient : Bool} {fuel : Nat} {s rest : List Char}

theorem ReturnsParsed.value_succ (ih : ReturnsParsed lenient fuel) {j : Json Float}
    (h : Reader.value lenient (fuel + 1) s = .ok (j, rest)) : j.IsParsed := by
  unfold Reader.value at h
  split at h
  · obtain ⟨⟨t, r⟩, -, heq⟩ := map_eq_ok.1 h
    cases heq
    exact .text t
  · split at h
    · cases h
      exact .array (List.forall_mem_nil _)
    · obtain ⟨⟨xs, r⟩, hxs, heq⟩ := map_eq_ok.1 h
      cases heq
      exact .array (ih.items hxs)
  · split at h
    · cases h
      exact .object List.nodup_nil (List.forall_mem_nil _)
    · obtain ⟨⟨fs, r⟩, hfs, heq⟩ := map_eq_ok.1 h
      cases heq
      exact .ofFields (ih.fields hfs)
  · exact isParsed_atom h

theorem ReturnsParsed.items_succ (ih : ReturnsParsed lenient fuel) {xs : List (Json Float)}
    (h : Reader.items lenient (fuel + 1) s = .ok (xs, rest)) : ∀ x ∈ xs, x.IsParsed := by
  unfold Reader.items at h
  obtain ⟨⟨item, r⟩, hitem, h⟩ := bind_eq_ok.1 h
  have hitem := ih.value hitem
  simp only at h
  split at h
  · cases h
    exact List.forall_mem_singleton.2 hitem
  · obtain ⟨⟨others, r⟩, hothers, h⟩ := bind_eq_ok.1 h
    cases h
    exact List.forall_mem_cons.2 ⟨hitem, ih.items hothers⟩
  · cases h

theorem ReturnsParsed.fields_succ (ih : ReturnsParsed lenient fuel) {fs : List (Text × Json Float)}
    (h : Reader.fields lenient (fuel + 1) s = .ok (fs, rest)) : ∀ field ∈ fs, field.2.IsParsed := by
  unfold Reader.fields at h
  split at h
  · obtain ⟨⟨key, r⟩, -, h⟩ := bind_eq_ok.1 h
    simp only at h
    split at h
    · obtain ⟨⟨item, r⟩, hitem, h⟩ := bind_eq_ok.1 h
      have hitem := ih.value hitem
      simp only at h
      split at h
      · cases h
        exact List.forall_mem_singleton.2 hitem
      · obtain ⟨⟨others, r⟩, hothers, h⟩ := bind_eq_ok.1 h
        cases h
        exact List.forall_mem_cons.2 ⟨hitem, ih.fields hothers⟩
      · cases h
    · cases h
  · cases h

/-- With any fuel, since each step only calls what has less. -/
theorem returnsParsed (lenient : Bool) (fuel : Nat) : ReturnsParsed lenient fuel := by
  induction fuel with
  | zero => exact ⟨nofun, nofun, nofun⟩
  | succ fuel ih => exact ⟨ih.value_succ, ih.items_succ, ih.fields_succ⟩

end

theorem isParsed_document {lenient : Bool} {s : List Char} {j : Json Float}
    (h : document lenient s = .ok j) : j.IsParsed := by
  unfold document at h
  split at h
  · cases h
  · obtain ⟨⟨value, rest⟩, hvalue, h⟩ := bind_eq_ok.1 h
    simp only at h
    split at h
    · cases h
      exact (returnsParsed lenient _).value hvalue
    · cases h

end Reader

/-- Whatever is read in the lenient dialect is data of this kind. -/
theorem isParsed_of_parseLenient {text : String} {j : Json Float} (h : parseLenient text = .ok j) :
    j.IsParsed := by
  unfold parseLenient at h
  cases hread : Reader.document true text.toList with
  | error stop =>
    rw [hread] at h
    cases h
  | ok value =>
    rw [hread] at h
    cases h
    exact Reader.isParsed_document hread

end Presolve.Json
