import Presolve.Proofs.Json.Numbers
import Presolve.Proofs.Json.Sorted
import Presolve.Proofs.Json.Strings

/-!
# The grammar of JSON

What a JSON text is, said without the writer and without the reader. There are no words for infinite and
undefined numbers, a number neither starts with a needless zero nor ends with a point, and no comma stands in
front of the end of an array or an object.

The writer keeps to the grammar (`AllNumbers.isText_render`): the canonical text of data is a JSON text
in every layout if the texts of its reals are numbers of the grammar.
-/

namespace Presolve.Json

/-! ## Numbers -/

/-- Digits, at least one. -/
def IsDigits (s : List Char) : Prop := s ≠ [] ∧ ∀ c ∈ s, c.isDigit = true

/-- The digits in front of the point. A zero stands alone. -/
inductive IsWhole : List Char → Prop where
  | zero : IsWhole ['0']
  | digits {s : List Char} (h : IsDigits s) (hzero : ∀ t, s ≠ '0' :: t) : IsWhole s

inductive IsFraction : List Char → Prop where
  | absent : IsFraction []
  | digits {s : List Char} (h : IsDigits s) : IsFraction ('.' :: s)

inductive IsExponent : List Char → Prop where
  | absent : IsExponent []
  | digits {letter : Char} {sign s : List Char} (hletter : letter = 'e' ∨ letter = 'E')
    (hsign : sign = [] ∨ sign = ['+'] ∨ sign = ['-']) (h : IsDigits s) : IsExponent (letter :: sign ++ s)

/-- A number without a sign. -/
inductive IsMagnitude : List Char → Prop where
  | parts {whole fraction exponent : List Char} (hwhole : IsWhole whole) (hfraction : IsFraction fraction)
    (hexponent : IsExponent exponent) : IsMagnitude (whole ++ fraction ++ exponent)

inductive IsNumber : List Char → Prop where
  | unsigned {s : List Char} (h : IsMagnitude s) : IsNumber s
  | negative {s : List Char} (h : IsMagnitude s) : IsNumber ('-' :: s)

/-! ## Strings -/

/-- A character of a string as it is written: itself, a letter behind a backslash, or four hexadecimal
digits. -/
inductive IsEscape : List Char → Prop where
  | plain {c : Char} (hquote : c ≠ '"') (hbackslash : c ≠ '\\') (hcontrol : 0x20 ≤ c.toNat) : IsEscape [c]
  | letter {c : Char} (h : c ∈ ['"', '\\', '/', 'b', 'f', 'n', 'r', 't']) : IsEscape ['\\', c]
  | unit {a b c d : Char} (h : ∀ x ∈ [a, b, c, d], x ∈ "0123456789abcdefABCDEF".toList) :
    IsEscape ['\\', 'u', a, b, c, d]

/-- The characters of a string between its quotes. -/
inductive IsEscapes : List Char → Prop where
  | nil : IsEscapes []
  | cons {s t : List Char} (h : IsEscape s) (ht : IsEscapes t) : IsEscapes (s ++ t)

inductive IsString : List Char → Prop where
  | quoted {s : List Char} (h : IsEscapes s) : IsString ('"' :: s ++ ['"'])

/-! ## Values -/

/-- Spaces, tabs and line ends. -/
def IsBlank (s : List Char) : Prop := ∀ c ∈ s, c = ' ' ∨ c = '\t' ∨ c = '\n' ∨ c = '\r'

mutual

inductive IsValue : List Char → Prop where
  | null : IsValue "null".toList
  | bool (b : Bool) : IsValue (if b then "true".toList else "false".toList)
  | number {s : List Char} (h : IsNumber s) : IsValue s
  | string {s : List Char} (h : IsString s) : IsValue s
  | emptyArray {s : List Char} (h : IsBlank s) : IsValue ('[' :: s ++ [']'])
  | array {s : List Char} (h : IsElements s) : IsValue ('[' :: s ++ [']'])
  | emptyObject {s : List Char} (h : IsBlank s) : IsValue ('\x7b' :: s ++ ['\x7d'])
  | object {s : List Char} (h : IsMembers s) : IsValue ('\x7b' :: s ++ ['\x7d'])

/-- A value with blanks around it. -/
inductive IsElement : List Char → Prop where
  | blanks {before s after : List Char} (hbefore : IsBlank before) (h : IsValue s) (hafter : IsBlank after) :
    IsElement (before ++ s ++ after)

/-- One or more values with commas between them. -/
inductive IsElements : List Char → Prop where
  | last {s : List Char} (h : IsElement s) : IsElements s
  | more {s t : List Char} (h : IsElement s) (ht : IsElements t) : IsElements (s ++ ',' :: t)

/-- A key and its value. -/
inductive IsMember : List Char → Prop where
  | field {before key after s : List Char} (hbefore : IsBlank before) (hkey : IsString key)
    (hafter : IsBlank after) (h : IsElement s) : IsMember (before ++ key ++ after ++ ':' :: s)

/-- One or more fields with commas between them. -/
inductive IsMembers : List Char → Prop where
  | last {s : List Char} (h : IsMember s) : IsMembers s
  | more {s t : List Char} (h : IsMember s) (ht : IsMembers t) : IsMembers (s ++ ',' :: t)

end

/-- A whole text. -/
def IsText (s : String) : Prop := IsElement s.toList

/-! ## The numbers in data -/

/-- Data all of whose integers satisfy `I` and all of whose reals satisfy `R`. -/
inductive AllNumbers {ν : Type} (I : Int → Prop) (R : ν → Prop) : Json ν → Prop where
  | null : AllNumbers I R null
  | bool (b : Bool) : AllNumbers I R (bool b)
  | int {i : Int} (h : I i) : AllNumbers I R (int i)
  | real {x : ν} (h : R x) : AllNumbers I R (real x)
  | text (t : Text) : AllNumbers I R (text t)
  | array {items : List (Json ν)} (h : ∀ item ∈ items, AllNumbers I R item) :
    AllNumbers I R (array items)
  | object {fields : List (Text × Json ν)} (h : ∀ field ∈ fields, AllNumbers I R field.2) :
    AllNumbers I R (object fields)

variable {ν : Type} {I : Int → Prop} {R : ν → Prop} {number : ν → String} {j : Json ν}

attribute [simp] AllNumbers.null AllNumbers.bool AllNumbers.text

@[simp] theorem allNumbers_int {i : Int} : (int i : Json ν).AllNumbers I R ↔ I i := by
  constructor
  · rintro (_ | _ | h | _)
    exact h
  · exact .int

@[simp] theorem allNumbers_real {x : ν} : (real x).AllNumbers I R ↔ R x := by
  constructor
  · rintro (_ | _ | _ | h)
    exact h
  · exact .real

@[simp] theorem allNumbers_array {items : List (Json ν)} :
    (array items).AllNumbers I R ↔ ∀ item ∈ items, item.AllNumbers I R := by
  constructor
  · rintro (_ | _ | _ | _ | _ | h | _)
    exact h
  · exact .array

@[simp] theorem allNumbers_object {fields : List (Text × Json ν)} :
    (object fields).AllNumbers I R ↔ ∀ field ∈ fields, field.2.AllNumbers I R := by
  constructor
  · rintro (_ | _ | _ | _ | _ | _ | h)
    exact h
  · exact .object

theorem AllNumbers.mono {I' : Int → Prop} {R' : ν → Prop} (h : j.AllNumbers I R) (hI : ∀ i, I i → I' i)
    (hR : ∀ x, R x → R' x) : j.AllNumbers I' R' := by
  induction h with
  | null => exact .null
  | bool b => exact .bool b
  | int h => exact .int (hI _ h)
  | real h => exact .real (hR _ h)
  | text t => exact .text t
  | array _ ih => exact .array ih
  | object _ ih => exact .object ih

theorem AllNumbers.and {I' : Int → Prop} {R' : ν → Prop} (h : j.AllNumbers I R) (h' : j.AllNumbers I' R') :
    j.AllNumbers (fun i => I i ∧ I' i) fun x => R x ∧ R' x := by
  induction h with
  | null => exact .null
  | bool b => exact .bool b
  | int h => exact .int ⟨h, allNumbers_int.1 h'⟩
  | real h => exact .real ⟨h, allNumbers_real.1 h'⟩
  | text t => exact .text t
  | array _ ih => exact .array fun item hitem => ih item hitem (allNumbers_array.1 h' item hitem)
  | object _ ih => exact .object fun field hfield => ih field hfield (allNumbers_object.1 h' field hfield)

/-- What can be read back has short integers, and reals that can be read back. -/
theorem IsReadable.allNumbers (h : j.IsReadable R) : j.AllNumbers (Decimal.isWritable · = true) R := by
  induction h with
  | null => exact .null
  | bool b => exact .bool b
  | int h => exact .int h
  | real h => exact .real h
  | text _ => exact .text _
  | array _ ih => exact .array ih
  | object _ _ _ ih => exact .object ih

theorem AllNumbers.sorted (h : j.AllNumbers I R) : j.sorted.AllNumbers I R := by
  induction h with
  | null => exact .null
  | bool b => exact .bool b
  | int h => exact .int h
  | real h => exact .real h
  | text t => exact .text t
  | array _ ih =>
    rw [sorted_array]
    refine .array fun item hitem => ?_
    obtain ⟨item', hmem, rfl⟩ := List.mem_map.1 hitem
    exact ih item' hmem
  | @object fields _ ih =>
    rw [sorted_object]
    refine .object fun field hfield => ?_
    obtain ⟨field', hmem, rfl⟩ := List.mem_map.1 ((sortedFields_perm fields).mem_iff.1 hfield)
    exact ih field' hmem

theorem forall_mem_setField {P : Json ν → Prop} {key : Text} {value : Json ν} (hvalue : P value)
    {fields : List (Text × Json ν)} (h : ∀ field ∈ fields, P field.2) :
    ∀ field ∈ setField key value fields, P field.2 := by
  induction fields with
  | nil => exact List.forall_mem_singleton.2 hvalue
  | cons field rest ih =>
    rw [List.forall_mem_cons] at h
    rw [setField]
    split
    · exact List.forall_mem_cons.2 ⟨hvalue, h.2⟩
    · exact List.forall_mem_cons.2 ⟨h.1, ih h.2⟩

/-- Fields that are written in turn hold nothing but the values that were written. -/
theorem AllNumbers.ofFields {fields : List (Text × Json ν)}
    (h : ∀ field ∈ fields, field.2.AllNumbers I R) : (Json.ofFields fields).AllNumbers I R :=
  .object (List.foldlRecOn fields _
    (motive := fun acc : List (Text × Json ν) => ∀ field ∈ acc, field.2.AllNumbers I R)
    (List.forall_mem_nil _) fun _ hacc field hfield => forall_mem_setField (h field hfield) hacc)

mutual

/-- Data can be written if none of their integers is too long. -/
theorem isWritable_iff : ∀ j : Json ν,
    j.isWritable = true ↔ j.AllNumbers (Decimal.isWritable · = true) fun _ => True
  | null | bool _ | int _ | real _ | text _ => by simp [isWritable]
  | array items => by rw [isWritable, areWritable_iff items, allNumbers_array]
  | object fields => by rw [isWritable, areWritableFields_iff fields, allNumbers_object]

theorem areWritable_iff : ∀ items : List (Json ν), areWritable items = true ↔
    ∀ item ∈ items, item.AllNumbers (Decimal.isWritable · = true) fun _ => True
  | [] => by simp [areWritable]
  | item :: rest => by
    rw [areWritable, Bool.and_eq_true, isWritable_iff item, areWritable_iff rest, List.forall_mem_cons]

theorem areWritableFields_iff : ∀ fields : List (Text × Json ν), areWritableFields fields = true ↔
    ∀ field ∈ fields, field.2.AllNumbers (Decimal.isWritable · = true) fun _ => True
  | [] => by simp [areWritableFields]
  | (key, value) :: rest => by
    rw [areWritableFields, Bool.and_eq_true, isWritable_iff value, areWritableFields_iff rest,
      List.forall_mem_cons]

end

/-! ## Integers -/

theorem isDigits_toDigits (n : Nat) : IsDigits (Nat.toDigits 10 n) :=
  ⟨Nat.toDigits_ne_nil, fun _ hc => Nat.isDigit_of_mem_toDigits (by decide) (by decide) hc⟩

theorem isWhole_toDigits (n : Nat) : IsWhole (Nat.toDigits 10 n) := by
  by_cases hzero : n = 0
  · rw [hzero]
    exact .zero
  · exact .digits (isDigits_toDigits n) (toDigits_ne_zero_cons (by omega))

theorem IsWhole.isMagnitude {s : List Char} (h : IsWhole s) : IsMagnitude s := by
  have hs := IsMagnitude.parts h .absent .absent
  rwa [List.append_nil, List.append_nil] at hs

theorem isNumber_toString (i : Int) : IsNumber (toString i).toList := by
  match i with
  | .ofNat n =>
    rw [toList_toString_ofNat]
    exact .unsigned (isWhole_toDigits n).isMagnitude
  | .negSucc n =>
    rw [toList_toString_negSucc]
    exact .negative (isWhole_toDigits (n + 1)).isMagnitude

/-! ## Strings -/

theorem IsEscapes.append {s t : List Char} (hs : IsEscapes s) (ht : IsEscapes t) : IsEscapes (s ++ t) := by
  induction hs with
  | nil => exact ht
  | cons h _ ih =>
    rw [List.append_assoc]
    exact .cons h ih

theorem IsEscape.isEscapes {s : List Char} (h : IsEscape s) : IsEscapes s := by
  have hs := IsEscapes.cons h .nil
  rwa [List.append_nil] at hs

theorem isEscape_unitEscape {n : Nat} (h : n < 0x10000) : IsEscape (unitEscape n) := by
  have hdigit : ∀ d < 16, Nat.digitChar d ∈ "0123456789abcdefABCDEF".toList := by decide
  rw [unitEscape_eq h]
  refine .unit fun x hx => ?_
  simp only [List.mem_cons, List.not_mem_nil, or_false] at hx
  rcases hx with rfl | rfl | rfl | rfl <;> exact hdigit _ (by omega)

/-- A character within a string. -/
theorem isEscapes_escape (c : Char) : IsEscapes (escape c) := by
  unfold escape
  split
  -- seven characters have a letter of their own
  iterate 7 exact (IsEscape.letter (by decide)).isEscapes
  next hquote hbackslash _ _ _ _ _ =>
  by_cases hprintable : ' ' ≤ c ∧ c ≤ '~'
  · rw [if_pos hprintable]
    exact (IsEscape.plain hquote hbackslash hprintable.1).isEscapes
  · rw [if_neg hprintable, utf16]
    by_cases hsmall : c.toNat < 0x10000
    · simp only [if_pos hsmall, List.flatMap_cons, List.flatMap_nil, List.append_nil]
      exact (isEscape_unitEscape hsmall).isEscapes
    · have hmax := CodePoint.toNat_valid c
      simp only [if_neg hsmall, List.flatMap_cons, List.flatMap_nil, List.append_nil]
      exact .cons (isEscape_unitEscape (by omega)) (isEscape_unitEscape (by omega)).isEscapes

/-- A code point within a string. -/
theorem isEscapes_escapeCode (c : CodePoint) : IsEscapes (escapeCode c) := by
  cases c with
  | char c => exact isEscapes_escape c
  | half h => exact (isEscape_unitEscape (by rw [CodePoint.number]; omega)).isEscapes

theorem isString_quoted (t : Text) : IsString (quoted t) := by
  refine .quoted ?_
  induction t.codes with
  | nil => exact .nil
  | cons c cs ih =>
    rw [List.flatMap_cons]
    exact (isEscapes_escapeCode c).append ih

/-! ## Values -/

theorem isBlank_nil : IsBlank [] := List.forall_mem_nil _

variable (layout : Layout)

theorem isBlank_separator (level : Nat) : IsBlank (layout.separator level) := by
  cases layout with
  | compact => exact isBlank_nil
  | lines indent =>
    refine List.forall_mem_cons.2 ⟨.inr (.inr (.inl rfl)), fun c hc => ?_⟩
    exact .inl (List.eq_of_mem_replicate hc)

theorem isBlank_afterColon : IsBlank layout.afterColon := by
  cases layout with
  | compact => exact isBlank_nil
  | lines indent => exact List.forall_mem_singleton.2 (.inl rfl)

/-- The items of an array with the blanks around them. -/
theorem isElements_write {item : Json ν} {others : List (Json ν)} (level : Nat)
    (h : ∀ k ∈ item :: others, ∀ level, IsValue (k.write number layout level)) :
    IsElements (layout.separator level ++ item.write number layout (level + 1)
      ++ writeItems number layout level others ++ layout.separator (level - 1)) := by
  have hblank := isBlank_separator layout
  induction others generalizing item with
  | nil =>
    rw [writeItems, List.append_nil]
    exact .last (.blanks (hblank level) (h item List.mem_cons_self _) (hblank _))
  | cons next others ih =>
    have hitem := IsElement.blanks (hblank level) (h item List.mem_cons_self (level + 1)) isBlank_nil
    have hmore := IsElements.more hitem (ih fun k hk => h k (List.mem_cons_of_mem _ hk))
    rw [writeItems]
    simpa only [List.append_assoc, List.cons_append, List.append_nil, List.nil_append] using hmore

theorem isMember_write (key : Text) {value : Json ν} (level : Nat) {after : List Char}
    (h : IsValue (value.write number layout (level + 1))) (hafter : IsBlank after) :
    IsMember (layout.separator level ++ quoted key ++ ':' :: layout.afterColon
      ++ value.write number layout (level + 1) ++ after) := by
  have hfield := IsMember.field (isBlank_separator layout level) (isString_quoted key)
    isBlank_nil (.blanks (isBlank_afterColon layout) h hafter)
  simpa only [List.append_assoc, List.cons_append, List.append_nil, List.nil_append] using hfield

/-- The fields of an object with the blanks around them. -/
theorem isMembers_write {key : Text} {value : Json ν} {others : List (Text × Json ν)} (level : Nat)
    (h : ∀ field ∈ (key, value) :: others, ∀ level, IsValue (field.2.write number layout level)) :
    IsMembers (layout.separator level ++ quoted key ++ ':' :: layout.afterColon
      ++ value.write number layout (level + 1) ++ writeFields number layout level others
      ++ layout.separator (level - 1)) := by
  induction others generalizing key value with
  | nil =>
    rw [writeFields, List.append_nil]
    exact .last (isMember_write layout key level (h _ List.mem_cons_self _) (isBlank_separator layout _))
  | cons next others ih =>
    obtain ⟨nextKey, next⟩ := next
    have hfield := isMember_write layout key level (h _ List.mem_cons_self (level + 1)) isBlank_nil
    have hmore := IsMembers.more hfield (ih fun field hfield => h field (List.mem_cons_of_mem _ hfield))
    rw [writeFields]
    simpa only [List.append_assoc, List.cons_append, List.append_nil, List.nil_append] using hmore

/-- What is written is a value of the grammar if the texts of the reals are numbers. -/
theorem AllNumbers.isValue (hR : ∀ x, R x → IsNumber (number x).toList) (h : j.AllNumbers I R) :
    ∀ level, IsValue (j.write number layout level) := by
  induction h with
  | null => exact fun _ => .null
  | bool b => exact fun _ => .bool b
  | int _ => exact fun _ => .number (isNumber_toString _)
  | real h => exact fun _ => .number (hR _ h)
  | text s => exact fun _ => .string (isString_quoted s)
  | @array items _ ih =>
    intro level
    match items with
    | [] => exact .emptyArray isBlank_nil
    | item :: others =>
      have hvalue := IsValue.array (isElements_write layout level ih)
      rw [write]
      simpa only [List.append_assoc, List.cons_append] using hvalue
  | @object fields _ ih =>
    intro level
    match fields with
    | [] => exact .emptyObject isBlank_nil
    | (key, value) :: others =>
      have hvalue := IsValue.object (isMembers_write layout level ih)
      rw [write]
      simpa only [List.append_assoc, List.cons_append] using hvalue

/-- The canonical text is a text of the grammar. -/
theorem AllNumbers.isText_render (hR : ∀ x, R x → IsNumber (number x).toList) (h : j.AllNumbers I R) :
    IsText (j.render number layout) := by
  have hvalue := IsElement.blanks isBlank_nil (h.sorted.isValue layout hR 1) isBlank_nil
  rw [List.nil_append, List.append_nil] at hvalue
  rwa [IsText, render, String.toList_ofList]

end Presolve.Json
