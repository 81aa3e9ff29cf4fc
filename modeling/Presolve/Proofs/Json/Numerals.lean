import Presolve.Decimal.Text
import Presolve.Proofs.Json.Grammar
import Presolve.Proofs.Number.Doubles
import Presolve.Value.Layout

/-!
# Doubles as numbers of JSON

The text of a double in data is a number of the grammar of JSON if the double is finite
(`isNumber_shortestText`). The notation plays no part: positional or scientific, a number has digits on both
sides of a point, and the zeros in front are those that the exponent asks for.
-/

namespace Presolve

open Json

/-! ## Decimals -/

namespace Decimal

/-- Zeros in front of digits. -/
theorem isDigits_zeros_append (n : Nat) {s : List Char} (h : IsDigits s) :
    IsDigits (List.replicate n '0' ++ s) := by
  refine ⟨List.append_ne_nil_of_right_ne_nil _ h.1, List.forall_mem_append.2 ⟨fun c hc => ?_, h.2⟩⟩
  rw [List.eq_of_mem_replicate hc]
  rfl

theorem isExponent_exponentText (e : Int) : IsExponent (exponentText e) := by
  have hdigits : IsDigits (padLeft 2 (Nat.toDigits 10 e.natAbs)) :=
    isDigits_zeros_append _ (isDigits_toDigits _)
  unfold exponentText
  by_cases hneg : e < 0
  · rw [if_pos hneg]
    exact .digits (.inl rfl) (.inr (.inr rfl)) hdigits
  · rw [if_neg hneg]
    exact .digits (.inl rfl) (.inr (.inl rfl)) hdigits

theorem isWhole_cons {c : Char} {s : List Char} (hc : c ≠ '0') (h : ∀ d ∈ c :: s, d.isDigit = true) :
    IsWhole (c :: s) :=
  .digits ⟨List.cons_ne_nil _ _, h⟩ fun _ heq => hc (List.cons.inj heq).1

variable {digits : List Char}

/-- In scientific notation one digit stands in front of the point. -/
theorem isMagnitude_scientific (hdigits : IsDigits digits) (e : Int) :
    IsMagnitude (scientific digits e) := by
  have hfirst {d : Char} (hd : d.isDigit = true) : IsWhole [d] := by
    by_cases hzero : d = '0'
    · rw [hzero]
      exact .zero
    · exact isWhole_cons hzero (List.forall_mem_singleton.2 hd)
  match digits with
  | [] => exact absurd rfl hdigits.1
  | [d] =>
    exact .parts (hfirst (hdigits.2 d List.mem_cons_self)) .absent (isExponent_exponentText e)
  | d :: next :: rest =>
    have hrest : IsDigits (next :: rest) :=
      ⟨List.cons_ne_nil _ _, fun c hc => hdigits.2 c (List.mem_cons_of_mem _ hc)⟩
    exact .parts (hfirst (hdigits.2 d List.mem_cons_self)) (.digits hrest) (isExponent_exponentText e)

/-- In positional notation with a point there is a digit on both sides of it. -/
theorem isMagnitude_positional {c : Char} {s : List Char} (hc : c ≠ '0')
    (h : ∀ d ∈ c :: s, d.isDigit = true) (e : Int) : IsMagnitude (positional true (c :: s) e) := by
  have hparts {whole places : List Char} (hwhole : IsWhole whole) (hplaces : IsDigits places) :
      IsMagnitude (whole ++ '.' :: places) := by
    have hmagnitude := IsMagnitude.parts hwhole (.digits hplaces) .absent
    rwa [List.append_nil] at hmagnitude
  unfold positional
  by_cases hsmall : e < 0
  · rw [if_pos hsmall]
    exact hparts .zero (isDigits_zeros_append _ ⟨List.cons_ne_nil _ _, h⟩)
  rw [if_neg hsmall]
  dsimp only
  split
  · next hlt =>
    have htake : ∀ d ∈ (c :: s).take (e.toNat + 1), d.isDigit = true :=
      fun d hd => h d (List.mem_of_mem_take hd)
    refine hparts (isWhole_cons hc htake) ⟨?_, fun d hd => h d (List.mem_of_mem_drop hd)⟩
    rw [ne_eq, List.drop_eq_nil_iff]
    omega
  · have hpadded : ∀ d ∈ c :: s ++ List.replicate (e.toNat + 1 - (c :: s).length) '0',
        d.isDigit = true := by
      refine List.forall_mem_append.2 ⟨h, fun d hd => ?_⟩
      rw [List.eq_of_mem_replicate hd]
      rfl
    exact hparts (isWhole_cons hc hpadded) (isDigits_toDigits 0)

/-- A decimal in data is a number. -/
theorem isMagnitude_write (d : Decimal) : IsMagnitude (d.write Numeral.data) := by
  have hdigits := isDigits_toDigits d.digits
  unfold write
  dsimp only
  by_cases hzero : d.digits = 0
  · have hpositional : IsMagnitude (['0'] ++ ['.', '0'] ++ []) :=
      .parts .zero (.digits (isDigits_toDigits 0)) .absent
    rw [if_pos hzero, if_pos (by decide), hzero]
    exact hpositional
  · rw [if_neg hzero]
    split
    · have hfirst := toDigits_ne_zero_cons (Nat.pos_of_ne_zero hzero)
      match hs : Nat.toDigits 10 d.digits with
      | [] => exact absurd hs hdigits.1
      | c :: s =>
        rw [hs] at hdigits hfirst
        exact isMagnitude_positional (fun hc => hfirst s (hc ▸ rfl)) hdigits.2 _
    · exact isMagnitude_scientific hdigits _

end Decimal

/-! ## Doubles -/

namespace Binary64

open Float.Model Float.Model.UnpackedFloat

/-- The exponent among the bits of a double. -/
theorem toNat_unpackExponent (b : BitVec Format.binary64.numBits) :
    (unpackExponent b).toNat = b.toNat / Nat.pow 2 52 % Nat.pow 2 11 := by
  simp [unpackExponent, BitVec.extractLsb, Nat.shiftRight_eq_div_pow]

/-- A finite double has parts. -/
theorem parts?_ne_none {x : Float} (h : Scalar.isFinite x = true) : parts? x ≠ none := by
  intro hnone
  obtain ⟨s, e, m, hbits⟩ := exists_packComponents x.toBits.toBitVec
  have hexponent : x.toBits.toNat / Nat.pow 2 52 % Nat.pow 2 11 = 2047 := by
    by_contra hne
    unfold parts? at hnone
    dsimp only at hnone
    rw [if_neg hne] at hnone
    split at hnone <;> cases hnone
  have he : e = -1#11 := by
    have hunpack := toNat_unpackExponent x.toBits.toBitVec
    rw [hbits, unpackExponent_packComponents, ← hbits] at hunpack
    exact BitVec.eq_of_toNat_eq (hunpack.trans hexponent)
  -- such a double is infinite or undefined, so a comparison with an infinity fails
  have hunpacked : unpacked x = if m = 0#52 then .infinity s else .notANumber := by
    show UnpackedFloat.unpack .binary64 x.toBits.toBitVec = _
    rw [hbits, unpack_packComponents, if_pos he]
  obtain ⟨hhi, hlo⟩ : x < Scalar.infinity ∧ -Scalar.infinity < x := by simpa [Scalar.isFinite] using h
  rw [lt_iff, hunpacked] at hhi hlo
  split at hhi
  · rw [if_pos ‹_›] at hlo
    cases s with
    | positive => exact absurd hhi (by decide)
    | negative => exact absurd hlo (by decide)
  · exact Bool.false_ne_true hhi

end Binary64

/-- The text of a finite double is a number of the grammar. -/
theorem isNumber_shortestText {x : Float} (h : Scalar.isFinite x = true) :
    IsNumber (shortestText x).toList := by
  obtain ⟨p, hp⟩ := Option.ne_none_iff_exists'.1 (Binary64.parts?_ne_none h)
  have hmagnitude := Decimal.isMagnitude_write (Decimal.shortest p)
  show IsNumber (Numeral.shortest x).toList
  rw [Numeral.shortest, Numeral.signed, hp, String.toList_ofList]
  split
  · exact .negative hmagnitude
  · exact .unsigned hmagnitude

end Presolve
