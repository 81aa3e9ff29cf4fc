import Mathlib.Data.List.Basic
import Presolve.Json.Reader
import Presolve.Json.Text

/-!
# Strings read back

A string is written in quotes, and what is not printable ASCII is written by its UTF-16 units. The reader
takes the units of the text one by one (`codePoints_flatMap_escapeCode`) and puts the halves of pairs together
again (`joinHalves_flatMap_units`), so it finds the same string, unless the two halves of a pair stood side
by side in it: what was two code points is then read as one character.
-/

namespace Presolve

/-! ## Halves of pairs -/

namespace CodePoint

/-- Is a code point the first half of a pair? -/
def isHigh : CodePoint → Bool
  | char _ => false
  | half h => h.val < 0x400

/-- Is a code point the second half of a pair? -/
def isLow : CodePoint → Bool
  | char _ => false
  | half h => 0x400 ≤ h.val

/-- The units that a code point is written by. -/
def units : CodePoint → List Nat
  | char c => Json.utf16 c
  | half h => [(half h).number]

end CodePoint

/-- A text in which no first half of a pair stands in front of a second one. -/
def Text.IsJoined (t : Text) : Prop := t.codes.IsChain fun c d => ¬(c.isHigh = true ∧ d.isLow = true)

instance (t : Text) : Decidable t.IsJoined := inferInstanceAs (Decidable (List.IsChain _ t.codes))

/-- There is no half among characters. -/
theorem Text.isJoined_ofString (s : String) : (ofString s).IsJoined := by
  rw [IsJoined, codes_ofString]
  induction s.toList with
  | nil => exact .nil
  | cons c cs ih =>
    cases cs with
    | nil => exact .singleton _
    | cons d cs => exact .cons_cons (by simp [CodePoint.isHigh]) ih

namespace Json

open Reader

/-! ## Units -/

theorem hexDigit?_digitChar {d : Nat} (h : d < 16) : hexDigit? (Nat.digitChar d) = some d := by
  have hall : ∀ d < 16, hexDigit? (Nat.digitChar d) = some d := by decide
  exact hall d h

/-- The four hexadecimal digits of a unit. -/
theorem unitEscape_eq {n : Nat} (h : n < 0x10000) :
    unitEscape n = ['\\', 'u', Nat.digitChar (n / 4096), Nat.digitChar (n / 256 % 16),
      Nat.digitChar (n / 16 % 16), Nat.digitChar (n % 16)] := by
  have hzero : Nat.digitChar 0 = '0' := rfl
  have hdigits : Decimal.padLeft 4 (Nat.toDigits 16 n) = [Nat.digitChar (n / 4096),
      Nat.digitChar (n / 256 % 16), Nat.digitChar (n / 16 % 16), Nat.digitChar (n % 16)] := by
    -- by the number of digits that are not padded
    by_cases h1 : n < 16
    · rw [Nat.toDigits_of_lt_base h1, show n / 4096 = 0 by omega, show n / 256 % 16 = 0 by omega,
        show n / 16 % 16 = 0 by omega, Nat.mod_eq_of_lt h1]
      rfl
    by_cases h2 : n < 256
    · rw [Nat.toDigits_of_base_le (by decide) (by omega), Nat.toDigits_of_lt_base (by omega),
        show n / 4096 = 0 by omega, show n / 256 % 16 = 0 by omega, show n / 16 % 16 = n / 16 by omega]
      rfl
    by_cases h3 : n < 4096
    · rw [Nat.toDigits_of_base_le (by decide) (by omega), Nat.toDigits_of_base_le (by decide) (by omega),
        Nat.toDigits_of_lt_base (by omega), show n / 4096 = 0 by omega,
        show n / 256 % 16 = n / 16 / 16 by omega]
      rfl
    · rw [Nat.toDigits_of_base_le (by decide) (by omega), Nat.toDigits_of_base_le (by decide) (by omega),
        Nat.toDigits_of_base_le (by decide) (by omega), Nat.toDigits_of_lt_base (by omega),
        show n / 4096 = n / 16 / 16 / 16 by omega, show n / 256 % 16 = n / 16 / 16 % 16 by omega]
      rfl
  rw [unitEscape, hdigits]

theorem codePoints_unitEscape {n start : Nat} {c : Char} {rest r : List Char} {units : List Nat}
    (hn : n < 0x10000) (h : codePoints start (c :: rest) = .ok (units, r)) :
    codePoints start (unitEscape n ++ c :: rest) = .ok (n :: units, r) := by
  have hunit : unit? (Nat.digitChar (n / 4096)) (Nat.digitChar (n / 256 % 16))
      (Nat.digitChar (n / 16 % 16)) (Nat.digitChar (n % 16)) = some n := by
    rw [unit?, hexDigit?_digitChar (by omega), hexDigit?_digitChar (by omega),
      hexDigit?_digitChar (by omega), hexDigit?_digitChar (by omega)]
    show some _ = some n
    congr 1
    omega
  rw [unitEscape_eq hn]
  show codePoints start ('\\' :: 'u' :: _ :: _ :: _ :: _ :: c :: rest) = _
  rw [codePoints.eq_3 _ _ _ _ _ _ _ _ hunit, h]
  rfl

/-! ## Characters -/

/-- A letter behind a backslash, other than the one of units. -/
theorem codePoints_backslash {start : Nat} {c d : Char} {rest r : List Char} {units : List Nat}
    (hc : escaped? c = some d) (h : codePoints start rest = .ok (units, r)) :
    codePoints start ('\\' :: c :: rest) = .ok (d.toNat :: units, r) := by
  have hne : c ≠ 'u' := by
    intro hu
    have hnone : escaped? 'u' = none := by decide
    rw [hu, hnone] at hc
    exact nomatch hc
  rw [codePoints.eq_7 _ _ _ (fun _ _ _ _ _ hu _ => hne hu) hne, hc, h]
  rfl

/-- A character that stands for itself. -/
theorem codePoints_plain {start : Nat} {c : Char} {rest r : List Char} {units : List Nat}
    (hquote : c ≠ '"') (hbackslash : c ≠ '\\') (hc : 0x20 ≤ c.toNat)
    (h : codePoints start rest = .ok (units, r)) :
    codePoints start (c :: rest) = .ok (c.toNat :: units, r) := by
  rw [codePoints.eq_8 _ _ _ hquote (fun _ _ _ _ _ hb _ => hbackslash hb) (fun _ hb _ => hbackslash hb)
    (fun hb _ => hbackslash hb) (fun _ _ hb _ => hbackslash hb), if_neg (by omega), h]
  rfl

/-- A character is read as its units, however it is written. -/
theorem codePoints_escape {start : Nat} {c d : Char} {rest r : List Char} {units : List Nat}
    (h : codePoints start (d :: rest) = .ok (units, r)) :
    codePoints start (escape c ++ d :: rest) = .ok (utf16 c ++ units, r) := by
  unfold escape
  split
  -- seven characters have a letter of their own
  iterate 7 exact codePoints_backslash rfl h
  next hquote hbackslash _ _ _ _ _ =>
  by_cases hprintable : ' ' ≤ c ∧ c ≤ '~'
  · have hlow : 0x20 ≤ c.toNat := hprintable.1
    have hhigh : c.toNat ≤ 0x7e := hprintable.2
    rw [if_pos hprintable, utf16, if_pos (show c.toNat < 0x10000 by omega)]
    exact codePoints_plain hquote hbackslash hlow h
  · rw [if_neg hprintable, utf16]
    by_cases hsmall : c.toNat < 0x10000
    · simp only [if_pos hsmall, List.flatMap_cons, List.flatMap_nil, List.append_nil]
      exact codePoints_unitEscape hsmall h
    · have hmax := CodePoint.toNat_valid c
      simp only [if_neg hsmall, List.flatMap_cons, List.flatMap_nil, List.append_nil, List.append_assoc]
      exact codePoints_unitEscape (by omega) (codePoints_unitEscape (by omega) h)

/-- A code point is read as its units. -/
theorem codePoints_escapeCode {start : Nat} {c : CodePoint} {d : Char} {rest r : List Char}
    {units : List Nat} (h : codePoints start (d :: rest) = .ok (units, r)) :
    codePoints start (escapeCode c ++ d :: rest) = .ok (c.units ++ units, r) := by
  cases c with
  | char c => exact codePoints_escape h
  | half k => exact codePoints_unitEscape (by rw [CodePoint.number]; omega) h

/-- The units of the code points of a string, up to the quote behind them. -/
theorem codePoints_flatMap_escapeCode (start : Nat) (cs : List CodePoint) (rest : List Char) :
    codePoints start (cs.flatMap escapeCode ++ '"' :: rest)
      = .ok (cs.flatMap CodePoint.units, rest) := by
  induction cs with
  | nil => exact codePoints.eq_2 start rest
  | cons c cs ih =>
    -- what stands behind a code point is never nothing
    obtain ⟨d, tail, htail⟩ : ∃ d tail, cs.flatMap escapeCode ++ '"' :: rest = d :: tail :=
      List.exists_cons_of_ne_nil (by simp)
    rw [htail] at ih
    rw [List.flatMap_cons, List.flatMap_cons, List.append_assoc, htail]
    exact codePoints_escapeCode ih

/-! ## Pairs -/

/-- A unit that makes no pair with the next one is a code point of its own. -/
theorem joinHalves_cons {u : Nat} {us : List Nat}
    (h : ∀ v ∈ us.head?, ¬(0xD800 ≤ u ∧ u < 0xDC00 ∧ 0xDC00 ≤ v ∧ v < 0xE000)) :
    joinHalves (u :: us) = .ofNumber u :: joinHalves us := by
  match us with
  | [] => rfl
  | v :: us => rw [joinHalves, if_neg (h v rfl)]

/-- The units of a character are the character again. -/
theorem joinHalves_utf16 (c : Char) (us : List Nat) :
    joinHalves (utf16 c ++ us) = .char c :: joinHalves us := by
  have hvalid := CodePoint.toNat_valid c
  rw [utf16]
  by_cases hsmall : c.toNat < 0x10000
  · rw [if_pos hsmall, List.singleton_append, joinHalves_cons (fun _ _ => by omega)]
    exact congrArg (· :: _) (CodePoint.ofNumber_number (.char c))
  · have hsum : 0x10000 + (0xD800 + (c.toNat - 0x10000) / 0x400 - 0xD800) * 0x400
        + (0xDC00 + (c.toNat - 0x10000) % 0x400 - 0xDC00) = c.toNat := by
      omega
    rw [if_neg hsmall, List.cons_append, List.singleton_append, joinHalves, if_pos (by omega), hsum,
      Char.ofNat_toNat]

/-- The first unit of a code point is that of a second half only if the code point is one. -/
theorem isLow_of_mem_head?_units {c : CodePoint} {v : Nat} (hv : v ∈ c.units.head?)
    (hlow : 0xDC00 ≤ v ∧ v < 0xE000) : c.isLow = true := by
  cases c with
  | char c =>
    have hvalid := CodePoint.toNat_valid c
    rw [CodePoint.units, utf16] at hv
    split at hv <;> simp only [List.head?_cons, Option.mem_some_iff] at hv <;> omega
  | half k =>
    simp only [CodePoint.units, List.head?_cons, Option.mem_some_iff, CodePoint.number] at hv
    simp only [CodePoint.isLow, decide_eq_true_eq]
    omega

theorem head?_flatMap_units (c : CodePoint) (cs : List CodePoint) :
    ((c :: cs).flatMap CodePoint.units).head? = c.units.head? := by
  cases c with
  | char c =>
    rw [List.flatMap_cons, CodePoint.units, utf16]
    split <;> rfl
  | half k => rfl

/-- The units of a text without a pair of halves are its code points again. -/
theorem joinHalves_flatMap_units {cs : List CodePoint} (h : (Text.mk cs).IsJoined) :
    joinHalves (cs.flatMap CodePoint.units) = cs := by
  induction cs with
  | nil => rfl
  | cons c cs ih =>
    have hrest : (Text.mk cs).IsJoined := List.IsChain.of_cons h
    rw [List.flatMap_cons]
    cases c with
    | char c => rw [CodePoint.units, joinHalves_utf16, ih hrest]
    | half k =>
      have hfirst : ∀ v ∈ (cs.flatMap CodePoint.units).head?,
          ¬(0xD800 ≤ (CodePoint.half k).number ∧ (CodePoint.half k).number < 0xDC00 ∧
            0xDC00 ≤ v ∧ v < 0xE000) := by
        rintro v hv ⟨-, hhigh, hlow⟩
        match cs with
        | [] => exact nomatch hv
        | d :: cs =>
          rw [head?_flatMap_units] at hv
          have hpair := (List.isChain_cons_cons.1 h).1
          refine hpair ⟨?_, isLow_of_mem_head?_units hv hlow⟩
          simp only [CodePoint.number] at hhigh
          simp only [CodePoint.isHigh, decide_eq_true_eq]
          omega
      rw [CodePoint.units, List.singleton_append, joinHalves_cons hfirst, ih hrest,
        CodePoint.ofNumber_number]

/-- A string that is written is read again. -/
theorem string_flatMap_escapeCode (start : Nat) {t : Text} (ht : t.IsJoined) (rest : List Char) :
    string start (t.codes.flatMap escapeCode ++ '"' :: rest) = .ok (t, rest) := by
  rw [string, codePoints_flatMap_escapeCode]
  show Except.ok (Text.mk (joinHalves (t.codes.flatMap CodePoint.units)), rest) = _
  rw [joinHalves_flatMap_units ht]

end Json
end Presolve
