import Mathlib
import Presolve.Proofs.Number.Lawful

/-!
# Laws of doubles

Doubles satisfy the laws of numbers. Their operations are defined on a sign, a mantissa and an exponent,
the `unpacked` form of a double, and the result is `stored` in 64 bits. Three facts about this form are
all that is needed.

* What is unpacked is canonical, and storing a canonical number changes nothing (`stored_of_isCanonical`).
* The sign plays no part in rounding and storing, so the two differences of two numbers have one magnitude
  (`abs_sub`), and the difference is not negative if the first number is not the lesser
  (`abs_sub_of_not_lt`).
* Half of a number that is not tiny has the same mantissa (`div_two`), so the half of one that is at least
  twice `epsilon` is at least `epsilon` (`not_half_lt`).
-/

namespace Presolve
namespace Binary64

open Scalar Float.Model Float.Model.UnpackedFloat

/-! ## The form of a double -/

/-- A double as its sign, its mantissa and its exponent. -/
def unpacked (x : Float) : UnpackedFloat := x.toModel.unpack

/-- What is left of a number that is stored in 64 bits. -/
def stored (u : UnpackedFloat) : UnpackedFloat := unpack .binary64 (pack .binary64 u)

theorem lt_iff {x y : Float} : x < y ↔ (unpacked x).lt (unpacked y) = true := by
  show decide (x.toModel < y.toModel) = true ↔ _
  rw [decide_eq_true_iff]
  rfl

theorem le_iff {x y : Float} : x ≤ y ↔ (unpacked x).le (unpacked y) = true := by
  show decide (x.toModel ≤ y.toModel) = true ↔ _
  rw [decide_eq_true_iff]
  rfl

theorem unpacked_add (x y : Float) :
    unpacked (x + y) = stored (add .binary64 (unpacked x) (unpacked y)) := rfl

theorem unpacked_sub (x y : Float) :
    unpacked (x - y) = stored (sub .binary64 (unpacked x) (unpacked y)) := rfl

theorem unpacked_div (x y : Float) :
    unpacked (x / y) = stored (div .binary64 (unpacked x) (unpacked y)) := rfl

theorem unpacked_abs (x : Float) : unpacked (Scalar.abs x) = stored (unpacked x).abs := rfl

theorem unpacked_two : unpacked (ofFraction 2 1) = .finite .positive (2 ^ 52) (-51) (by decide) := rfl

theorem unpacked_epsilon : unpacked epsilon = .finite .positive (2 ^ 52) (-104) (by decide) := rfl

/-- The least distance of two bounds that do not fix a variable. -/
theorem unpacked_two_mul_epsilon :
    unpacked (ofFraction 2 1 * epsilon) = .finite .positive (2 ^ 52) (-103) (by decide) := rfl

/-- The form of every number that was unpacked: a mantissa of 53 bits, or of fewer with the least
exponent. -/
def IsCanonical : UnpackedFloat → Prop
  | .finite _ m e _ => m < 2 ^ 53 ∧ -1074 ≤ e ∧ e ≤ 971 ∧ (2 ^ 52 ≤ m ∨ e = -1074)
  | _ => True

/-- The position of the leading bit among 53 bits. -/
theorem log2_mantissa {m : Nat} (hlo : 2 ^ 52 ≤ m) (hhi : m < 2 ^ 53) : m.log2 = 52 :=
  (Nat.log2_eq_iff (by omega)).2 ⟨hlo, hhi⟩

theorem toNat_implicit (v : BitVec 52) : (1#1 ++ v).toNat = 2 ^ 52 + v.toNat := by
  rw [BitVec.toNat_append, ← Nat.shiftLeft_add_eq_or_of_lt v.isLt]
  simp [Nat.shiftLeft_eq]

/-- What the parts of 64 bits stand for. -/
theorem unpack_packComponents (s : Sign) (e : BitVec 11) (m : BitVec 52) :
    unpack .binary64 (packComponents .binary64 s e m) =
      if e = -1#11 then if m = 0#52 then .infinity s else .notANumber
      else if e = 0#11 then
        if h : m = 0#52 then .zero s
        else .finite s m.toNat (-1074) (by simpa [BitVec.toNat_pos, BitVec.pos_iff_ne_zero] using h)
      else .finite s (2 ^ 52 + m.toNat) (e.toNat - 1075) (by omega) := by
  have hsign : Sign.ofBitVec (unpackSign (packComponents .binary64 s e m)) = s := by
    simp only [unpackSign, packComponents, BitVec.extractLsb]
    rw [BitVec.extractLsb'_append_eq_of_le (by omega), BitVec.extractLsb'_append_eq_of_le (by omega)]
    cases s <;> rfl
  have hbias : ((Format.binary64.exponentBias : Nat) : Int) = 1023 := rfl
  have hexponent (h : e = 0#11) : (e.toNat : Int) - (1023 + 52) + 1 = -1074 := by simp [h]
  simp only [UnpackedFloat.unpack, unpackMantissa_packComponents, unpackExponent_packComponents,
    hsign, hbias, toNat_implicit]
  split
  · rfl
  · split
    · next h =>
      simp [h]
    · congr 1

theorem abs_unpack_packComponents (s : Sign) (e : BitVec 11) (m : BitVec 52) :
    (UnpackedFloat.unpack .binary64 (packComponents .binary64 s e m)).abs
      = UnpackedFloat.unpack .binary64 (packComponents .binary64 .positive e m) := by
  rw [unpack_packComponents, unpack_packComponents]
  split_ifs <;> rfl

/-- The sign of a number plays no part in storing it. -/
theorem abs_stored (u : UnpackedFloat) : (stored u).abs = stored u.abs := by
  cases u with
  | notANumber => rfl
  | infinity s => exact abs_unpack_packComponents s _ _
  | zero s => exact abs_unpack_packComponents s _ _
  | finite s m e hm =>
    show (UnpackedFloat.unpack .binary64 (UnpackedFloat.pack .binary64 (.finite s m e hm))).abs
      = UnpackedFloat.unpack .binary64 (UnpackedFloat.pack .binary64 (.finite .positive m e hm))
    simp only [UnpackedFloat.pack, packedInfinity]
    split_ifs <;> exact abs_unpack_packComponents s _ _

/-- Every 64 bits consist of a sign, an exponent and a mantissa. -/
theorem exists_packComponents (b : BitVec Format.binary64.numBits) :
    ∃ s e m, b = packComponents .binary64 s e m := by
  refine ⟨Sign.ofBitVec (unpackSign b), unpackExponent b, unpackMantissa b, ?_⟩
  have hsign : ∀ v : BitVec 1, (Sign.ofBitVec v).toBitVec = v := by decide
  simp only [packComponents, hsign, unpackSign, unpackExponent, unpackMantissa, BitVec.extractLsb]
  ext i hi
  grind

theorem isCanonical_unpack (b : BitVec Format.binary64.numBits) :
    IsCanonical (UnpackedFloat.unpack .binary64 b) := by
  obtain ⟨s, e, m, rfl⟩ := exists_packComponents b
  rw [unpack_packComponents]
  have hm : m.toNat < 2 ^ 52 := m.isLt
  split_ifs with hmax hinf hmin hzero
  · trivial
  · trivial
  · trivial
  · exact ⟨by omega, by omega, by omega, .inr rfl⟩
  · have hlo : e.toNat ≠ 0 := fun h => hmin (BitVec.eq_of_toNat_eq h)
    have hhi : e.toNat ≠ 2047 := fun h => hmax (BitVec.eq_of_toNat_eq h)
    have he : e.toNat < 2048 := e.isLt
    exact ⟨by omega, by omega, by omega, .inl (by omega)⟩

/-- Storing changes no number of this form. -/
theorem stored_of_isCanonical {u : UnpackedFloat} (h : IsCanonical u) : stored u = u := by
  cases u with
  | notANumber => rfl
  | infinity s => cases s <;> rfl
  | zero s => cases s <;> rfl
  | finite s m e hm =>
    obtain ⟨hlt, hmin, hmax, hnormal⟩ := h
    have hbias : (Format.binary64.exponentBias : Int) = 1023 := rfl
    have hbits : Format.binary64.mantissaBits = 53 := rfl
    have hsmall : ¬2 ^ 11 ≤ (e + 1023 + (52 : Nat)).toNat + 1 := by omega
    have hmax' : BitVec.ofNat 11 (e + 1023 + (52 : Nat)).toNat ≠ -1#11 := by
      rw [ne_eq, ← BitVec.toNat_inj, BitVec.toNat_ofNat]
      show ¬_ = 2047
      omega
    have hmin' : BitVec.ofNat 11 (e + 1023 + (52 : Nat)).toNat ≠ 0#11 := by
      rw [ne_eq, ← BitVec.toNat_inj, BitVec.toNat_ofNat]
      show ¬_ = 0
      omega
    unfold stored
    simp only [UnpackedFloat.pack, hbias, hbits]
    rw [if_neg hsmall]
    by_cases hfull : 2 ^ 52 ≤ m
    · have hlog : m.log2 + 1 = 53 := by rw [log2_mantissa hfull hlt]
      rw [if_pos hlog, unpack_packComponents, if_neg hmax', if_neg hmin']
      simp only [BitVec.toNat_ofNat, UnpackedFloat.finite.injEq, true_and]
      omega
    · have hlog : ¬m.log2 + 1 = 53 := by
        have := (Nat.log2_lt hm.ne').2 (Nat.lt_of_not_le hfull)
        omega
      have hzero : BitVec.ofNat 52 m ≠ 0#52 := by
        rw [ne_eq, ← BitVec.toNat_inj, BitVec.toNat_ofNat]
        show ¬_ = 0
        omega
      rw [if_neg hlog, unpack_packComponents, if_neg (by decide), if_pos rfl, dif_neg hzero]
      simp only [BitVec.toNat_ofNat, UnpackedFloat.finite.injEq, true_and]
      exact ⟨Nat.mod_eq_of_lt (Nat.lt_of_not_le hfull), (hnormal.resolve_left hfull).symm⟩

theorem isCanonical_abs {u : UnpackedFloat} (h : IsCanonical u) : IsCanonical u.abs := by
  cases u <;> exact h

/-! ## Sums and differences -/

theorem then_compare_swap (e₁ e₂ : Int) (m₁ m₂ : Nat) : (compare e₂ e₁).then (compare m₂ m₁)
    = ((compare e₁ e₂).then (compare m₁ m₂)).swap := by
  rw [Ordering.swap_then, Int.compare_swap, Nat.compare_swap]

/-- Comparing two numbers the other way round. -/
theorem compare_swap (u v : UnpackedFloat) : v.compare u = (u.compare v).map Ordering.swap := by
  rcases u with (_ | _) | _ | (_ | _) | ⟨_ | _, m₁, e₁, h₁⟩ <;>
    rcases v with (_ | _) | _ | (_ | _) | ⟨_ | _, m₂, e₂, h₂⟩ <;>
    first
    | rfl
    | exact congrArg some (then_compare_swap _ _ _ _)
    | exact congrArg (fun o => some o.swap) (then_compare_swap _ _ _ _)

/-- Among positive numbers the exponent decides first. -/
theorem lt_positive_iff {m₁ m₂ : Nat} {e₁ e₂ : Int} {h₁ : 0 < m₁} {h₂ : 0 < m₂} :
    (UnpackedFloat.finite .positive m₁ e₁ h₁).lt (.finite .positive m₂ e₂ h₂) = true ↔
      e₁ < e₂ ∨ e₁ = e₂ ∧ m₁ < m₂ := by
  show (some ((compare e₁ e₂).then (compare m₁ m₂)) == some Ordering.lt) = true ↔ _
  rw [beq_iff_eq, Option.some.injEq, Ordering.then_eq_lt, Int.compare_eq_lt, Int.compare_eq_eq,
    Nat.compare_eq_lt]

theorem lt_negative_iff {m₁ m₂ : Nat} {e₁ e₂ : Int} {h₁ : 0 < m₁} {h₂ : 0 < m₂} :
    (UnpackedFloat.finite .negative m₁ e₁ h₁).lt (.finite .negative m₂ e₂ h₂) = true ↔
      e₂ < e₁ ∨ e₂ = e₁ ∧ m₂ < m₁ := by
  have hpositive : (UnpackedFloat.finite .positive m₂ e₂ h₂).lt (.finite .positive m₁ e₁ h₁) = true ↔
      e₂ < e₁ ∨ e₂ = e₁ ∧ m₂ < m₁ := lt_positive_iff
  rw [← hpositive]
  show (some ((compare e₁ e₂).then (compare m₁ m₂)).swap == some Ordering.lt) = true ↔ _
  rw [← then_compare_swap]
  rfl

/-- Numbers that do not compare have no sum. -/
theorem add_eq_notANumber {u v : UnpackedFloat} (huv : ¬u.le v = true) (hvu : ¬v.le u = true) :
    add .binary64 u v = .notANumber := by
  cases hcompare : u.compare v with
  | none =>
    -- only what is no number compares to nothing
    rcases u with (_ | _) | _ | (_ | _) | ⟨_ | _, m₁, e₁, h₁⟩ <;>
      rcases v with (_ | _) | _ | (_ | _) | ⟨_ | _, m₂, e₂, h₂⟩ <;>
      first | rfl | cases hcompare
  | some o =>
    rw [UnpackedFloat.le, hcompare] at huv
    rw [UnpackedFloat.le, compare_swap, hcompare] at hvu
    cases o <;> simp at huv hvu

theorem abs_round (s : Sign) (m : Nat) (e : Int) :
    (UnpackedFloat.round .binary64 s m e).abs = UnpackedFloat.round .binary64 .positive m e := by
  unfold UnpackedFloat.round roundWithAccuracy
  simp only
  split <;> rfl

theorem abs_normalize_neg (n e : Int) :
    (UnpackedFloat.normalize .binary64 (-n) e .positive).abs
      = (UnpackedFloat.normalize .binary64 n e .positive).abs := by
  unfold UnpackedFloat.normalize
  rcases Int.lt_trichotomy n 0 with h | rfl | h
  · rw [Int.compare_eq_lt.2 h, Int.compare_eq_gt.2 (by omega)]
    simp only [abs_round]
  · rfl
  · rw [Int.compare_eq_gt.2 h, Int.compare_eq_lt.2 (by omega)]
    simp only [abs_round, Int.neg_neg]

/-- The two differences of two numbers have one magnitude. -/
theorem abs_sub (u v : UnpackedFloat) : (sub .binary64 u v).abs = (sub .binary64 v u).abs := by
  rcases u with (_ | _) | _ | (_ | _) | ⟨s₁, m₁, e₁, h₁⟩ <;>
    rcases v with (_ | _) | _ | (_ | _) | ⟨s₂, m₂, e₂, h₂⟩ <;> try rfl
  simp only [UnpackedFloat.sub, decreaseExponent, Int.min_comm e₂ e₁]
  rw [← abs_normalize_neg, Int.neg_sub]

/-- Of two numbers with their exponents, the lesser is also the lesser after both are written with the
lesser exponent. -/
theorem shifted_le {s₁ s₂ : Sign} {m₁ m₂ : Nat} {e₁ e₂ : Int} {h₁ : 0 < m₁} {h₂ : 0 < m₂}
    (hu : IsCanonical (.finite s₁ m₁ e₁ h₁)) (hv : IsCanonical (.finite s₂ m₂ e₂ h₂))
    (h : ¬(e₁ < e₂ ∨ e₁ = e₂ ∧ m₁ < m₂)) :
    m₂ <<< (e₂ - min e₁ e₂).toNat ≤ m₁ <<< (e₁ - min e₁ e₂).toNat := by
  obtain ⟨-, -, -, hfull⟩ := hu
  obtain ⟨hlt, hmin, -, -⟩ := hv
  rcases Int.lt_trichotomy e₁ e₂ with he | rfl | he
  · omega
  · have hle : m₂ ≤ m₁ := by omega
    simpa using hle
  · -- the greater exponent is that of a mantissa of 53 bits, which exceeds the other after one shift
    have hpow : 2 ^ 1 ≤ 2 ^ (e₁ - e₂).toNat := Nat.pow_le_pow_right (by omega) (by omega)
    have hm : 2 ^ 52 * 2 ^ 1 ≤ m₁ * 2 ^ (e₁ - e₂).toNat := Nat.mul_le_mul (by omega) hpow
    have hle : m₂ ≤ m₁ * 2 ^ (e₁ - e₂).toNat := by omega
    rw [Int.min_eq_right (by omega), Int.sub_self, Nat.shiftLeft_eq, Nat.shiftLeft_eq]
    simpa using hle

theorem normalize_nonneg {n : Int} (e : Int) (h : 0 ≤ n) :
    (∃ s, UnpackedFloat.normalize .binary64 n e .positive = .zero s) ∨
      (UnpackedFloat.normalize .binary64 n e .positive).abs
        = UnpackedFloat.normalize .binary64 n e .positive := by
  unfold UnpackedFloat.normalize
  rcases Int.lt_or_eq_of_le h with h | rfl
  · right
    rw [Int.compare_eq_gt.2 h]
    exact abs_round _ _ _
  · exact .inl ⟨_, rfl⟩

/-- Two numbers that exclude no point between them and are not infinite the other way are finite. -/
theorem isFinite_of_not_lt {u v : UnpackedFloat}
    (hlo : (UnpackedFloat.infinity .negative).lt v = true)
    (hhi : u.lt (.infinity .positive) = true) (hopen : ¬u.lt v = true) :
    u.isFinite = true ∧ v.isFinite = true := by
  rcases u with (_ | _) | _ | s | ⟨_ | _, m₁, e₁, h₁⟩ <;>
    rcases v with (_ | _) | _ | t | ⟨_ | _, m₂, e₂, h₂⟩ <;>
    first
    | exact ⟨rfl, rfl⟩
    | exact absurd rfl hopen
    | exact absurd hlo Bool.false_ne_true
    | exact absurd hhi Bool.false_ne_true

/-- The difference of two finite numbers of which the first is not the lesser has no negative sign. -/
theorem abs_sub_of_not_lt {u v : UnpackedFloat} (hu : IsCanonical u) (hv : IsCanonical v)
    (hfu : u.isFinite = true) (hfv : v.isFinite = true) (hopen : ¬u.lt v = true) :
    (∃ s, sub .binary64 u v = .zero s) ∨ (sub .binary64 u v).abs = sub .binary64 u v := by
  rcases u with _ | _ | s₁ | ⟨s₁, m₁, e₁, h₁⟩
  · cases hfu
  · cases hfu
  · rcases v with _ | _ | s₂ | ⟨s₂, m₂, e₂, h₂⟩
    · cases hfv
    · cases hfv
    · cases s₁ <;> cases s₂ <;> exact .inl ⟨_, rfl⟩
    · cases s₂ with
      | negative => exact .inr rfl
      | positive => exact absurd rfl hopen
  · rcases v with _ | _ | s₂ | ⟨s₂, m₂, e₂, h₂⟩
    · cases hfv
    · cases hfv
    · cases s₁ with
      | negative => exact absurd rfl hopen
      | positive => exact .inr rfl
    · simp only [UnpackedFloat.sub, decreaseExponent]
      apply normalize_nonneg
      cases s₁ with
      | negative =>
        cases s₂ with
        | negative =>
          have hle := shifted_le hv hu fun h => hopen (lt_negative_iff.2 h)
          rw [Int.min_comm] at hle
          simp only [Sign.apply]
          omega
        | positive => exact absurd rfl hopen
      | positive =>
        cases s₂ with
        | negative =>
          simp only [Sign.apply, Int.sub_neg]
          exact Int.add_nonneg (Int.natCast_nonneg _) (Int.natCast_nonneg _)
        | positive =>
          have hle := shifted_le hu hv fun h => hopen (lt_positive_iff.2 h)
          simp only [Sign.apply]
          omega

/-! ## Halves -/

theorem targetExponent_eq (t : Int) : Format.binary64.targetExponent t = max (t - 53) (-1074) := rfl

/-- Half of a number of 53 bits has the same bits, unless it is too small. -/
theorem div_two {m : Nat} {e : Int} {hm : 0 < m} (hlo : 2 ^ 52 ≤ m) (hhi : m < 2 ^ 53)
    (he : -1072 ≤ e) :
    div .binary64 (.finite .positive m e hm) (.finite .positive (2 ^ 52) (-51) (by decide))
      = .finite .positive m (e - 1) hm := by
  have hlog : m.log2 = 52 := log2_mantissa hlo hhi
  have hlog' : (2 * m).log2 = 53 := by
    rw [Nat.log2_two_mul hm.ne', hlog]
  have hdivisor : (2 ^ 52).log2 = 52 := Nat.log2_two_pow
  -- the quotient is computed with one bit more, and exactly
  have hcore : divCore .binary64 m e (2 ^ 52) (-51) = (2 * m, e - 2, .exact) := by
    have htarget : min (e - -51) (max ((52 : Nat) + 1 + e - ((52 : Nat) + 1 + -51) - 53) (-1074))
        = e - 2 := by omega
    have hshift : (e - -51 - (e - 2)).toNat = 53 := by omega
    simp only [divCore, totalExponent, targetExponent_eq, hlog, hdivisor, htarget, hshift,
      Nat.shiftLeft_eq]
    have hquotient : m * 2 ^ 53 / 2 ^ 52 = 2 * m := by omega
    have hremainder : m * 2 ^ 53 % 2 ^ 52 = 0 := by omega
    rw [hquotient, hremainder]
    rfl
  have hround : roundWithAccuracy .binary64 .positive (2 * m) (e - 2) .exact
      = .finite .positive m (e - 1) hm := by
    have hfirst : (max ((53 : Nat) + 1 + (e - 2) - 53) (-1074) - (e - 2)).toNat = 1 := by omega
    have hsecond : (max ((52 : Nat) + 1 + (e - 2 + (1 : Nat)) - 53) (-1074)
        - (e - 2 + (1 : Nat))).toNat = 0 := by omega
    have hdropped :
        (ExtendedMantissa.ofMantissaAndAccuracy (2 * m) .exact >>> 1).roundedMantissa = m := by
      show (ExtendedMantissa.shiftRightOne ⟨2 * m, false, false⟩).roundedMantissa = m
      simp [ExtendedMantissa.shiftRightOne, ExtendedMantissa.roundedMantissa,
        ExtendedMantissa.accuracy, Accuracy.roundToNearestEven]
    have hkept : (ExtendedMantissa.ofMantissaAndAccuracy m .exact >>> 0).mantissa = m := rfl
    simp only [roundWithAccuracy, shiftToTargetExponent, shiftToExponent, totalExponent,
      targetExponent_eq, hlog', hfirst, hdropped, hlog, hsecond, hkept, dif_neg hm.ne',
      UnpackedFloat.finite.injEq, true_and]
    omega
  simp only [UnpackedFloat.div, hcore]
  exact hround

/-- Half of a number that is at least twice `epsilon` is at least `epsilon`. -/
theorem not_half_lt {u : UnpackedFloat} (hu : IsCanonical u) (hsign : u.abs = u)
    (hfar : ¬u.lt (unpacked (ofFraction 2 1 * epsilon)) = true) :
    ¬(stored (div .binary64 u (unpacked (ofFraction 2 1)))).lt (unpacked epsilon) = true := by
  rw [unpacked_two_mul_epsilon] at hfar
  rw [unpacked_two, unpacked_epsilon]
  cases u with
  | notANumber => exact Bool.false_ne_true
  | infinity s =>
    cases s with
    | positive => exact Bool.false_ne_true
    | negative => cases hsign
  | zero s => exact absurd rfl hfar
  | finite s m e hm =>
    cases s with
    | negative => cases hsign
    | positive =>
      rw [lt_positive_iff] at hfar
      obtain ⟨hlt, -, hmax, hnormal⟩ := hu
      have hhalf : IsCanonical (.finite .positive m (e - 1) hm) :=
        ⟨hlt, by omega, by omega, .inl (by omega)⟩
      rw [div_two (by omega) hlt (by omega), stored_of_isCanonical hhalf, lt_positive_iff]
      omega

/-- Half the width between two doubles that do not exclude each other and are not nearly equal. -/
theorem not_halfWidth_lt {lo hi : Float} (hlo : -Scalar.infinity < lo) (hhi : hi < Scalar.infinity)
    (hopen : ¬hi < lo) (hfree : Bounds.fixes lo hi = false) :
    ¬(hi - lo) / ofFraction 2 1 < epsilon := by
  rw [lt_iff] at hlo hhi hopen
  have hfar : ¬Scalar.abs (lo - hi) < ofFraction 2 1 * epsilon := of_decide_eq_false hfree
  obtain ⟨hfhi, hflo⟩ := isFinite_of_not_lt hlo hhi hopen
  have hcanonical (x : Float) : IsCanonical (unpacked x) := isCanonical_unpack _
  -- bounds are compared by the magnitude of the difference the other way round
  have hwidth : unpacked (Scalar.abs (lo - hi))
      = stored (sub .binary64 (unpacked hi) (unpacked lo)).abs := by
    rw [unpacked_abs, stored_of_isCanonical (isCanonical_abs (hcanonical _)), unpacked_sub, abs_stored,
      abs_sub]
  rw [lt_iff, hwidth] at hfar
  rw [lt_iff, unpacked_div]
  rcases abs_sub_of_not_lt (hcanonical hi) (hcanonical lo) hfhi hflo hopen with ⟨s, hzero⟩ | hsign
  · -- bounds without a distance would fix the variable
    have hstored : stored (UnpackedFloat.zero s).abs = .zero .positive := stored_of_isCanonical trivial
    rw [hzero, hstored, unpacked_two_mul_epsilon] at hfar
    exact absurd rfl hfar
  · rw [hsign] at hfar
    refine not_half_lt (hcanonical _) ?_ hfar
    rw [unpacked_sub, abs_stored, hsign]

/-! ## Numbers that are not finite -/

theorem unpacked_injective {x y : Float} (h : unpacked x = unpacked y) : x = y := by
  obtain ⟨⟨a, ha⟩⟩ := x
  obtain ⟨⟨b, hb⟩⟩ := y
  have hbits : a.toBitVec = b.toBitVec := (unpack_inj_of_valid ha hb).1 h
  obtain rfl : a = b := UInt64.toBitVec_inj.1 hbits
  rfl

theorem le_self {u : UnpackedFloat} (h : u ≠ .notANumber) : u.le u = true := by
  cases u with
  | notANumber => exact absurd rfl h
  | infinity s => cases s <;> rfl
  | zero s => rfl
  | finite s m e hm => 
    cases s <;> simp [UnpackedFloat.le, UnpackedFloat.compare]

/-- There is one undefined number. -/
theorem eq_undefined {x : Float} (h : isUndefined x = true) : x = 0 / 0 := by
  apply unpacked_injective
  by_contra hne
  have hle : x ≤ x := le_iff.2 (le_self hne)
  simp [isUndefined, hle] at h

/-- A defined number that is not finite is one of the two infinite ones, which differ in sign. -/
theorem eq_infinity {x : Float} (hdefined : isUndefined x = false) (hinfinite : Scalar.isFinite x = false) :
    (x = 1 / 0 ∧ 0 < x) ∨ (x = -1 / 0 ∧ ¬0 < x) := by
  have hbetween (hlo : (UnpackedFloat.infinity .negative).lt (unpacked x) = true)
      (hhi : (unpacked x).lt (.infinity .positive) = true) : Scalar.isFinite x = true := by
    rw [Scalar.isFinite, Bool.and_eq_true, decide_eq_true_iff, decide_eq_true_iff]
    exact ⟨lt_iff.2 hhi, lt_iff.2 hlo⟩
  have hne : Scalar.isFinite x ≠ true := ne_true_of_eq_false hinfinite
  cases hx : unpacked x with
  | notANumber =>
    have hle : ¬x ≤ x := fun h => by
      rw [le_iff, hx] at h
      cases h
    simp [isUndefined, hle] at hdefined
  | infinity s =>
    cases s with
    | positive => exact .inl ⟨unpacked_injective hx, lt_iff.2 (by rw [hx]; rfl)⟩
    | negative =>
      refine .inr ⟨unpacked_injective hx, fun h => ?_⟩
      rw [lt_iff, hx] at h
      cases h
  | zero s => exact absurd (hbetween (by rw [hx]; rfl) (by rw [hx]; rfl)) hne
  | finite s m e hm =>
    rw [hx] at hbetween
    cases s <;> exact absurd (hbetween rfl rfl) hne

end Binary64

instance : LawfulScalar Float where
  not_one_lt_epsilon := by decide
  not_add_lt hxy hyx c := by
    rw [Binary64.le_iff] at hxy hyx
    rw [Binary64.lt_iff, Binary64.unpacked_add, Binary64.add_eq_notANumber hxy hyx]
    exact Bool.false_ne_true
  not_halfWidth_lt := Binary64.not_halfWidth_lt

end Presolve
