/-!
# Texts

A text is a sequence of code points. Nearly all of them are characters. The others are the 2048 halves
that UTF-16 makes two of for a character beyond the first 65536: a text can hold one like any other code
point, but no encoding of texts has a form for it, so a text with a half cannot be printed.
-/

namespace Presolve

/-! ## Code points -/

/-- A character, or the half of a pair. -/
inductive CodePoint where
  | char (c : Char)
  | half (h : Fin 0x800)
deriving DecidableEq, Repr

namespace CodePoint

/-- The number of a code point: halves come between the characters `\uD7FF` and `\uE000`. -/
def number : CodePoint → Nat
  | char c => c.toNat
  | half h => 0xD800 + h

/-- The code point of a number. -/
def ofNumber (n : Nat) : CodePoint :=
  if h : 0xD800 ≤ n ∧ n < 0xE000 then half ⟨n - 0xD800, by omega⟩ else char (Char.ofNat n)

def char? : CodePoint → Option Char
  | char c => some c
  | half _ => none

/-- Is a code point a character with a property? -/
def isChar (p : Char → Bool) : CodePoint → Bool
  | char c => p c
  | half _ => false

/-- The number of a character lies below or above those of halves. -/
theorem toNat_valid (c : Char) : c.toNat < 0xD800 ∨ 0xE000 ≤ c.toNat ∧ c.toNat < 0x110000 := c.valid

theorem ofNumber_number (c : CodePoint) : ofNumber c.number = c := by
  cases c with
  | char c =>
    have hc := toNat_valid c
    rw [number, ofNumber, dif_neg (by omega), Char.ofNat_toNat]
  | half h =>
    rw [number, ofNumber, dif_pos (by omega)]
    exact congrArg half (Fin.ext (Nat.add_sub_cancel_left _ _))

theorem number_injective {c d : CodePoint} (h : c.number = d.number) : c = d := by
  rw [← ofNumber_number c, h, ofNumber_number]

end CodePoint

/-! ## Texts -/

structure Text where
  codes : List CodePoint
deriving DecidableEq, Repr

namespace Text

/-- A text of characters. -/
def ofString (s : String) : Text := ⟨s.toList.map .char⟩

instance : Coe String Text := ⟨ofString⟩

instance : Inhabited Text := ⟨⟨[]⟩⟩

instance : Append Text := ⟨fun s t => ⟨s.codes ++ t.codes⟩⟩

/-- Texts one after the other, with a separator between them. -/
def join (separator : Text) (texts : List Text) : Text :=
  ⟨separator.codes.intercalate (texts.map codes)⟩

/-- The characters of a text; none if it holds a half. -/
def string? (t : Text) : Option String := (t.codes.mapM CodePoint.char?).map String.ofList

def length (t : Text) : Nat := t.codes.length

def isEmpty (t : Text) : Bool := t.codes.isEmpty

/-- Is a text one of some names? -/
def isAmong (names : List String) (t : Text) : Bool := names.any fun name => ofString name == t

/-- The texts of the single code points of a text. -/
def singles (t : Text) : List Text := t.codes.map fun c => ⟨[c]⟩

def startsWith (t start : Text) : Bool := start.codes.isPrefixOf t.codes

@[simp] theorem codes_ofString (s : String) : (ofString s).codes = s.toList.map .char := rfl

@[simp] theorem codes_append (s t : Text) : (s ++ t).codes = s.codes ++ t.codes := rfl

theorem ext_codes {s t : Text} (h : s.codes = t.codes) : s = t := by
  cases s
  cases t
  exact congrArg mk h

theorem append_assoc (s t u : Text) : s ++ t ++ u = s ++ (t ++ u) :=
  ext_codes (List.append_assoc s.codes t.codes u.codes)

theorem mapM_char?_eq_some {codes : List CodePoint} {cs : List Char} :
    codes.mapM CodePoint.char? = some cs ↔ codes = cs.map .char := by
  induction codes generalizing cs with
  | nil => cases cs <;> simp
  | cons code codes ih =>
    rw [List.mapM_cons]
    cases code with
    | half h => cases cs <;> simp [CodePoint.char?]
    | char c =>
      simp only [CodePoint.char?, Option.bind_eq_bind, Option.bind_some, Option.bind_eq_some_iff,
        Option.pure_def, Option.some.injEq]
      constructor
      · rintro ⟨ds, hds, rfl⟩
        rw [List.map_cons, ih.1 hds]
      · intro h
        cases cs with
        | nil => cases h
        | cons d ds =>
          obtain ⟨hc, hcodes⟩ := List.cons.inj h
          cases hc
          exact ⟨ds, ih.2 hcodes, rfl⟩

/-- A text has characters exactly if it is a text of characters. -/
theorem string?_eq_some {t : Text} {s : String} : t.string? = some s ↔ t = s := by
  rw [string?, Option.map_eq_some_iff]
  constructor
  · rintro ⟨cs, hcs, rfl⟩
    refine ext_codes ?_
    rw [codes_ofString, String.toList_ofList, mapM_char?_eq_some.1 hcs]
  · rintro rfl
    exact ⟨s.toList, mapM_char?_eq_some.2 rfl, String.ofList_toList⟩

@[simp] theorem string?_ofString (s : String) : (ofString s).string? = some s := string?_eq_some.2 rfl

theorem ofString_injective {s t : String} (h : ofString s = ofString t) : s = t := by
  have := congrArg string? h
  rwa [string?_ofString, string?_ofString, Option.some.injEq] at this

@[simp] theorem ofString_inj {s t : String} : ofString s = ofString t ↔ s = t :=
  ⟨ofString_injective, congrArg ofString⟩

@[simp] theorem isAmong_ofString (names : List String) (s : String) :
    isAmong names s = decide (s ∈ names) := by
  rw [Bool.eq_iff_iff, isAmong, List.any_eq_true, decide_eq_true_iff]
  simp only [beq_iff_eq, ofString_inj, exists_eq_right]

/-! ## Order -/

/-- Texts are ordered by the numbers of their code points, from the first on. -/
instance : LE Text :=
  ⟨fun s t => List.instLE.le (s.codes.map CodePoint.number) (t.codes.map CodePoint.number)⟩

instance (s t : Text) : Decidable (s ≤ t) :=
  inferInstanceAs (Decidable (List.instLE.le (s.codes.map CodePoint.number) (t.codes.map CodePoint.number)))

theorem le_total (s t : Text) : s ≤ t ∨ t ≤ s := List.le_total _ _

theorem le_trans {s t u : Text} (hst : s ≤ t) (htu : t ≤ u) : s ≤ u := List.le_trans hst htu

theorem le_antisymm {s t : Text} (hst : s ≤ t) (hts : t ≤ s) : s = t :=
  ext_codes ((List.map_inj_right fun _ _ h => CodePoint.number_injective h).1
    (List.le_antisymm hst hts))

end Text
end Presolve
