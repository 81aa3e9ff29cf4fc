import Presolve.Proofs.Number.Doubles
import Presolve.Proofs.Number.Valued

/-!
# Values of doubles

A finite double has the value `± m * 2 ^ e` of its mantissa and its exponent. Mantissas have 53 bits except at
the least exponent, so the comparison of doubles, exponents first, is the one of their values
(`le_iff_number`). The double that stands for an integer is the nearest one (`nearest_ofInteger`): below the
power of two that the integer exceeds, doubles are so dense that none is nearer than the quotient by the gap
above it, rounded.
-/

namespace Presolve
namespace Binary64

open Scalar Extended Float.Model Float.Model.UnpackedFloat

/-! ## Values -/

/-- The value of a mantissa at an exponent. -/
noncomputable def magnitude (m : Nat) (e : Int) : ℝ := m * ((2 : Nat) : ℝ) ^ e

theorem magnitude_eq (m : Nat) (e : Int) : magnitude m e = m * 2 ^ e := by
  rw [magnitude, Nat.cast_ofNat]

/-- The value of a number of the form that doubles have. -/
noncomputable def number : UnpackedFloat → Extended ℝ
  | .notANumber => .undefined
  | .infinity .positive => .top
  | .infinity .negative => .bottom
  | .zero _ => .finite 0
  | .finite .positive m e _ => .finite (magnitude m e)
  | .finite .negative m e _ => .finite (-magnitude m e)

theorem magnitude_pos {m : Nat} (e : Int) (hm : 0 < m) : 0 < magnitude m e := by
  rw [magnitude_eq]
  positivity

/-- Of two canonical magnitudes the one with the lesser exponent is the lesser one. -/
theorem magnitude_lt_of_exponent_lt {s₁ s₂ : Sign} {m₁ m₂ : Nat} {e₁ e₂ : Int} {h₁ : 0 < m₁} {h₂ : 0 < m₂}
    (hu : IsCanonical (.finite s₁ m₁ e₁ h₁)) (hv : IsCanonical (.finite s₂ m₂ e₂ h₂)) (he : e₁ < e₂) :
    magnitude m₁ e₁ < magnitude m₂ e₂ := by
  obtain ⟨hlt, hmin, -, -⟩ := hu
  obtain ⟨-, -, -, hfull⟩ := hv
  have hm₁ : (m₁ : ℝ) < 2 ^ 53 := by exact_mod_cast hlt
  have hm₂ : (2 : ℝ) ^ 52 ≤ m₂ := by exact_mod_cast hfull.resolve_right (by omega)
  calc magnitude m₁ e₁ < 2 ^ 53 * 2 ^ e₁ := by
        rw [magnitude_eq]
        gcongr
    _ = 2 ^ 52 * 2 ^ (e₁ + 1) := by
        rw [zpow_add_one₀ two_ne_zero]
        ring
    _ ≤ m₂ * 2 ^ e₂ := by
        gcongr
        · norm_num
        · omega

/-- Canonical magnitudes compare by the exponent first and by the mantissa second. -/
theorem magnitude_lt_iff {s₁ s₂ : Sign} {m₁ m₂ : Nat} {e₁ e₂ : Int} {h₁ : 0 < m₁} {h₂ : 0 < m₂}
    (hu : IsCanonical (.finite s₁ m₁ e₁ h₁)) (hv : IsCanonical (.finite s₂ m₂ e₂ h₂)) :
    magnitude m₁ e₁ < magnitude m₂ e₂ ↔ e₁ < e₂ ∨ e₁ = e₂ ∧ m₁ < m₂ := by
  rcases Int.lt_trichotomy e₁ e₂ with he | rfl | he
  · exact iff_of_true (magnitude_lt_of_exponent_lt hu hv he) (.inl he)
  · have hpow : (0 : ℝ) < 2 ^ e₁ := by positivity
    simp [magnitude_eq, mul_lt_mul_iff_left₀ hpow]
  · exact iff_of_false (magnitude_lt_of_exponent_lt hv hu he).not_gt (by omega)

/-! ## Comparisons -/

/-- One number is less than another if it is at most the other and not the other way round. -/
theorem lt_iff_le_not_le (u v : UnpackedFloat) : u.lt v = true ↔ u.le v = true ∧ ¬v.le u = true := by
  unfold UnpackedFloat.lt UnpackedFloat.le
  rw [compare_swap u v]
  rcases u.compare v with _ | o
  · simp
  · cases o <;> decide

/-- Numbers that compare do so in one way or the other. -/
theorem le_iff_not_lt {u v : UnpackedFloat} (h : (u.compare v).isSome = true) :
    u.le v = true ↔ ¬v.lt u = true := by
  obtain ⟨o, ho⟩ := Option.isSome_iff_exists.1 h
  unfold UnpackedFloat.lt UnpackedFloat.le
  rw [compare_swap u v, ho]
  cases o <;> decide

/-- Canonical numbers compare as their values do. -/
theorem le_iff_number {u v : UnpackedFloat} (hu : IsCanonical u) (hv : IsCanonical v) :
    number u ≤ number v ↔ u.le v = true := by
  rcases u with (_ | _) | _ | s | ⟨_ | _, m₁, e₁, h₁⟩ <;>
    rcases v with (_ | _) | _ | t | ⟨_ | _, m₂, e₂, h₂⟩
  case finite.positive.finite.positive =>
    rw [le_iff_not_lt rfl, lt_positive_iff, ← magnitude_lt_iff hv hu, not_lt]
    exact finite_le _ _
  case finite.negative.finite.negative =>
    rw [le_iff_not_lt rfl, lt_negative_iff, ← magnitude_lt_iff hu hv, not_lt]
    exact (finite_le _ _).trans neg_le_neg_iff
  -- of numbers with different signs, the signs decide
  case zero.finite.positive => exact iff_of_true ((finite_le _ _).2 (magnitude_pos e₂ h₂).le) rfl
  case finite.negative.zero =>
    exact iff_of_true ((finite_le _ _).2 (neg_nonpos.2 (magnitude_pos e₁ h₁).le)) rfl
  case finite.negative.finite.positive =>
    have hneg := neg_nonpos.2 (magnitude_pos e₁ h₁).le
    exact iff_of_true ((finite_le _ _).2 (hneg.trans (magnitude_pos e₂ h₂).le)) rfl
  case zero.finite.negative =>
    refine iff_of_false (fun h => ?_) Bool.false_ne_true
    exact (neg_neg_of_pos (magnitude_pos e₂ h₂)).not_ge ((finite_le _ _).1 h)
  case finite.positive.zero =>
    refine iff_of_false (fun h => ?_) Bool.false_ne_true
    exact (magnitude_pos e₁ h₁).not_ge ((finite_le _ _).1 h)
  case finite.positive.finite.negative =>
    refine iff_of_false (fun h => ?_) Bool.false_ne_true
    have hneg := neg_neg_of_pos (magnitude_pos e₂ h₂)
    exact (hneg.trans (magnitude_pos e₁ h₁)).not_ge ((finite_le _ _).1 h)
  case zero.zero => exact iff_of_true ((finite_le _ _).2 le_rfl) rfl
  -- an infinite or undefined number compares in the same way with all others
  all_goals first
    | exact iff_of_true rfl rfl
    | exact iff_of_false Bool.false_ne_true Bool.false_ne_true

/-! ## Operations -/

theorem isCanonical_unpacked (x : Float) : IsCanonical (unpacked x) := isCanonical_unpack _

theorem unpacked_neg (x : Float) : unpacked (-x) = (unpacked x).neg := by
  have hcanonical : IsCanonical (unpacked x).neg := by
    have h := isCanonical_unpacked x
    revert h
    cases unpacked x <;> exact id
  exact stored_of_isCanonical hcanonical

theorem number_neg (u : UnpackedFloat) : number u.neg = -number u := by
  rcases u with (_ | _) | _ | s | ⟨_ | _, m, e, hm⟩
  case zero => exact congrArg Extended.finite neg_zero.symm
  case finite.negative => exact congrArg Extended.finite (neg_neg _).symm
  all_goals rfl

/-- A difference that is less than a number is one of finite numbers. -/
theorem isFinite_of_abs_sub_lt {u v w : UnpackedFloat}
    (h : (stored (stored (sub .binary64 u v)).abs).lt w = true) : IsFinite (number u) ∧ IsFinite (number v) := by
  have hnone : ¬(stored (stored UnpackedFloat.notANumber).abs).lt w = true := Bool.false_ne_true
  have hinfinite (s : Sign) : ¬(stored (stored (.infinity s)).abs).lt w = true := by
    have hstored : stored (stored (.infinity s)).abs = .infinity .positive := by cases s <;> rfl
    rw [hstored]
    rcases w with (_ | _) | _ | _ | _ <;> exact Bool.false_ne_true
  rcases u with (_ | _) | _ | s | ⟨_ | _, m₁, e₁, h₁⟩ <;>
    rcases v with (_ | _) | _ | t | ⟨_ | _, m₂, e₂, h₂⟩ <;>
    first
    | exact ⟨isFinite_finite _, isFinite_finite _⟩
    | exact absurd h hnone
    | exact absurd h (hinfinite _)

/-! ## Bits -/

/-- The bits of a sign, an exponent and a mantissa, one behind the other. -/
theorem toNat_packComponents (s : Sign) (e : BitVec 11) (m : BitVec 52) :
    (packComponents .binary64 s e m).toNat
      = (s.toBitVec.toNat * 2 ^ 11 + e.toNat) * 2 ^ 52 + m.toNat := by
  show ((s.toBitVec ++ e) ++ m).toNat = _
  rw [BitVec.toNat_append, ← Nat.shiftLeft_add_eq_or_of_lt m.isLt, BitVec.toNat_append,
    ← Nat.shiftLeft_add_eq_or_of_lt e.isLt, Nat.shiftLeft_eq, Nat.shiftLeft_eq]

theorem unpacked_ofBits (w : UInt64) : unpacked (Float.ofBits w) = UnpackedFloat.unpack .binary64 w.toBitVec :=
  stored_of_isCanonical (isCanonical_unpack _)

/-- The sign as it is given beside a mantissa. -/
def signOf (negative : Bool) : Sign := if negative then .negative else .positive

/-- The parts of a double that is put together from a mantissa of 53 bits. -/
theorem unpacked_ofMantissa (negative : Bool) {m e : Nat} (hlo : 2 ^ 52 ≤ m) (hhi : m < 2 ^ 53)
    (he : e ≤ 2045) : unpacked (ofMantissa negative m e)
      = .finite (signOf negative) m (e - 1074) (by omega) := by
  have hbits : (UInt64.ofNat (min (m + e * Nat.pow 2 52) (2047 * Nat.pow 2 52)
      + if negative then Nat.pow 2 63 else 0)).toBitVec
        = packComponents .binary64 (signOf negative) (BitVec.ofNat 11 (e + 1)) (BitVec.ofNat 52 (m - 2 ^ 52)) := by
    apply BitVec.eq_of_toNat_eq
    have hsign : (signOf negative).toBitVec.toNat = if negative then 1 else 0 := by cases negative <;> rfl
    rw [toNat_packComponents, BitVec.toNat_ofNat, BitVec.toNat_ofNat, hsign, UInt64.toNat_toBitVec,
      UInt64.toNat_ofNat']
    simp only [Nat.pow_eq]
    split <;> omega
  have hmax : BitVec.ofNat 11 (e + 1) ≠ -1#11 := by
    rw [ne_eq, ← BitVec.toNat_inj, BitVec.toNat_ofNat]
    show ¬_ = 2047
    omega
  have hmin : BitVec.ofNat 11 (e + 1) ≠ 0#11 := by
    rw [ne_eq, ← BitVec.toNat_inj, BitVec.toNat_ofNat]
    show ¬_ = 0
    omega
  have hmantissa : 2 ^ 52 + (BitVec.ofNat 52 (m - 2 ^ 52)).toNat = m := by
    rw [BitVec.toNat_ofNat]
    omega
  have hexponent : ((BitVec.ofNat 11 (e + 1)).toNat : Int) - 1075 = e - 1074 := by
    rw [BitVec.toNat_ofNat]
    omega
  rw [ofMantissa, unpacked_ofBits, hbits, unpack_packComponents, if_neg hmax, if_neg hmin,
    UnpackedFloat.finite.injEq]
  exact ⟨rfl, hmantissa, hexponent⟩

/-! ## Integers -/

/-- A rounded quotient is at most half a unit away. -/
theorem abs_roundDiv_sub_le {N D : Nat} (hD : 0 < D) : |((roundDiv N D : ℝ) * D) - N| ≤ D / 2 := by
  obtain ⟨hlo, hhi⟩ := roundDiv_near N D hD
  have hlo : (2 * N : ℝ) ≤ (2 * roundDiv N D + 1) * D := by exact_mod_cast hlo
  have hhi : (2 * roundDiv N D * D : ℝ) ≤ 2 * N + D := by exact_mod_cast hhi
  rw [abs_le]
  constructor <;> linarith

/-- No other multiple is nearer than the rounded quotient. -/
theorem abs_roundDiv_sub_le_abs {N D : Nat} (hD : 0 < D) (j : Nat) :
    |((roundDiv N D : ℝ) * D) - N| ≤ |(j * D : ℝ) - N| := by
  have hhalf := abs_roundDiv_sub_le (N := N) hD
  by_cases hj : j = roundDiv N D
  · rw [hj]
  · -- different multiples are a unit apart
    have hunit : (1 : ℝ) ≤ |(j : ℝ) - roundDiv N D| := by
      have hne : (j : Int) - roundDiv N D ≠ 0 := by omega
      exact_mod_cast Int.one_le_abs hne
    have hapart : (D : ℝ) ≤ |(j * D : ℝ) - roundDiv N D * D| := by
      have hpos : (0 : ℝ) ≤ D := Nat.cast_nonneg D
      rw [← sub_mul, abs_mul, abs_of_nonneg hpos]
      nlinarith
    have htriangle := abs_sub_le (j * D : ℝ) N (roundDiv N D * D)
    rw [abs_sub_comm (N : ℝ)] at htriangle
    linarith

/-- Below a power of two, the doubles leave a gap of half a unit of those above it. -/
theorem magnitude_le_of_exponent_lt {m k : Nat} {e : Int} (hm : m < 2 ^ 53) (he : e < k) :
    magnitude m e ≤ 2 ^ (52 + k) - 2 ^ k / 2 := by
  have hm : (m : ℝ) ≤ 2 ^ 53 - 1 := by
    have hle : m + 1 ≤ 2 ^ 53 := hm
    have hle : (m : ℝ) + 1 ≤ 2 ^ 53 := by exact_mod_cast hle
    linarith
  calc magnitude m e ≤ (2 ^ 53 - 1) * 2 ^ ((k : Int) - 1) := by
        rw [magnitude_eq]
        gcongr
        · norm_num
        · omega
    _ = 2 ^ (52 + k) - 2 ^ k / 2 := by
        rw [zpow_sub_one₀ two_ne_zero, zpow_natCast, pow_add]
        ring

/-- A magnitude with a great exponent is a multiple of a power of two. -/
theorem exists_magnitude_eq {m k : Nat} {e : Int} (he : (k : Int) ≤ e) :
    ∃ j : Nat, magnitude m e = j * (2 ^ k : Nat) := by
  refine ⟨m * 2 ^ (e - k).toNat, ?_⟩
  have hsplit : (2 : ℝ) ^ e = 2 ^ (e - k).toNat * 2 ^ k := by
    rw [← zpow_natCast, ← zpow_natCast, ← zpow_add₀ two_ne_zero]
    congr 1
    omega
  rw [magnitude_eq, hsplit]
  push_cast
  ring

/-- No magnitude is nearer to a large number than its quotient by the gap of doubles there, rounded. -/
theorem abs_roundDiv_sub_le_magnitude {N k m : Nat} {e : Int} (hN : 2 ^ (52 + k) ≤ N) (hm : m < 2 ^ 53) :
    |(roundDiv N (2 ^ k) : ℝ) * (2 ^ k : Nat) - N| ≤ |magnitude m e - N| := by
  have hpos : 0 < 2 ^ k := Nat.two_pow_pos k
  by_cases he : (k : Int) ≤ e
  · obtain ⟨j, hj⟩ := exists_magnitude_eq (m := m) he
    rw [hj]
    exact abs_roundDiv_sub_le_abs hpos j
  · have hhalf := abs_roundDiv_sub_le (N := N) hpos
    have hgap := magnitude_le_of_exponent_lt hm (Int.not_le.1 he)
    have hN : (2 : ℝ) ^ (52 + k) ≤ N := by exact_mod_cast hN
    push_cast at hhalf ⊢
    rw [abs_sub_comm (magnitude m e)]
    refine hhalf.trans (le_trans ?_ (le_abs_self _))
    linarith

/-- Where the nearest double to an integer is put together from: beyond 53 bits the integer is rounded. -/
theorem nearest_eq (negative : Bool) {N : Nat} (hN : 0 < N) : nearest negative N 1
    = ofMantissa negative (if 52 ≤ N.log2 then roundDiv N (2 ^ (N.log2 - 52)) else N * 2 ^ (52 - N.log2))
        (N.log2 + 1022) := by
  have hlo : 2 ^ N.log2 ≤ N := Nat.log2_self_le hN.ne'
  have hlog : Nat.log2 1 = 0 := rfl
  -- an integer has its leading bit where its logarithm says, so 53 bits of it are never too many
  have hwide : (if 0 ≤ (N.log2 : Int) - 52 then decide (2 ^ (52 + ((N.log2 : Int) - 52).toNat) ≤ N)
      else decide (2 ^ 52 ≤ N * 2 ^ (-((N.log2 : Int) - 52)).toNat)) = true := by
    split
    · have hsize : 52 + ((N.log2 : Int) - 52).toNat = N.log2 := by omega
      rw [hsize]
      exact decide_eq_true hlo
    · have hsize : N.log2 + (-((N.log2 : Int) - 52)).toNat = 52 := by omega
      rw [← hsize, pow_add]
      exact decide_eq_true (Nat.mul_le_mul_right _ hlo)
  have hmax : max ((N.log2 : Int) - 52) minExponent = N.log2 - 52 := by
    unfold minExponent
    omega
  have hexponent : ((N.log2 : Int) - 52 - minExponent).toNat = N.log2 + 1022 := by
    unfold minExponent
    omega
  unfold nearest
  rw [if_neg hN.ne', hlog]
  simp only [Nat.cast_zero, sub_zero, one_mul, Nat.pow_eq, hwide, if_true, hmax, hexponent]
  congr 1
  by_cases hlarge : 52 ≤ N.log2
  · have hshift : ((N.log2 : Int) - 52).toNat = N.log2 - 52 := by omega
    rw [if_pos (by omega), if_pos hlarge, hshift]
  · have hshift : (-((N.log2 : Int) - 52)).toNat = 52 - N.log2 := by omega
    rw [if_neg (by omega), if_neg hlarge, hshift]
    simp [roundDiv, Nat.mod_one]

/-- A carry out of the mantissa moves into the exponent, and the value stays. -/
theorem exists_unpacked_ofMantissa (negative : Bool) {m e : Nat} (hlo : 2 ^ 52 ≤ m) (hhi : m ≤ 2 ^ 53)
    (hmax : m + e * 2 ^ 52 < 2047 * 2 ^ 52) : ∃ m' e' h,
      unpacked (ofMantissa negative m e) = .finite (signOf negative) m' e' h ∧
        magnitude m' e' = magnitude m (e - 1074) := by
  by_cases hcarry : m = 2 ^ 53
  · have hmove : ofMantissa negative m e = ofMantissa negative (2 ^ 52) (e + 1) := by
      have hsum : m + e * Nat.pow 2 52 = 2 ^ 52 + (e + 1) * Nat.pow 2 52 := by
        rw [Nat.pow_eq, hcarry]
        ring
      rw [ofMantissa, ofMantissa, hsum]
    have hunpacked := unpacked_ofMantissa negative (m := 2 ^ 52) (e := e + 1) (Nat.le_refl _) (by norm_num)
      (by omega)
    rw [hmove]
    refine ⟨2 ^ 52, ((e + 1 : Nat) : Int) - 1074, Nat.two_pow_pos 52, hunpacked, ?_⟩
    have hexponent : ((e + 1 : Nat) : Int) - 1074 = e - 1074 + 1 := by omega
    rw [magnitude_eq, magnitude_eq, hexponent, zpow_add_one₀ two_ne_zero, hcarry]
    push_cast
    ring
  · exact ⟨_, _, _, unpacked_ofMantissa negative hlo (by omega) (by omega), rfl⟩

/-- The rounded quotient of an integer by the gap of the doubles there has 53 bits, or is the next power of
two. -/
theorem roundDiv_bounds {N k : Nat} (hlo : 2 ^ (52 + k) ≤ N) (hhi : N < 2 ^ (53 + k)) :
    2 ^ 52 ≤ roundDiv N (2 ^ k) ∧ roundDiv N (2 ^ k) ≤ 2 ^ 53 := by
  have hpos : 0 < 2 ^ k := Nat.two_pow_pos k
  obtain ⟨hnear, hnear'⟩ := roundDiv_near N (2 ^ k) hpos
  rw [pow_add] at hlo hhi
  constructor
  · have h : 2 ^ 53 * 2 ^ k ≤ (2 * roundDiv N (2 ^ k) + 1) * 2 ^ k := by
      refine le_trans ?_ hnear
      rw [show (2 : Nat) ^ 53 = 2 * 2 ^ 52 from rfl, mul_assoc]
      omega
    have h := Nat.le_of_mul_le_mul_right h hpos
    omega
  · have h : (2 * roundDiv N (2 ^ k)) * 2 ^ k < (2 * 2 ^ 53 + 1) * 2 ^ k := by
      refine lt_of_le_of_lt hnear' ?_
      rw [add_mul, one_mul, mul_assoc]
      omega
    have h := Nat.lt_of_mul_lt_mul_right h
    omega

/-- An integer that is half a unit below a power of two is not rounded up to it. -/
theorem roundDiv_lt {N D : Nat} (h : 2 * N + D < 2 ^ 54 * D) : roundDiv N D < 2 ^ 53 := by
  have hpos : 0 < D := Nat.pos_of_ne_zero fun hzero => by simp [hzero] at h
  obtain ⟨-, hnear⟩ := roundDiv_near N D hpos
  by_contra hge
  have hge : 2 * 2 ^ 53 * D ≤ 2 * roundDiv N D * D :=
    Nat.mul_le_mul_right _ (Nat.mul_le_mul_left _ (Nat.le_of_not_lt hge))
  omega

/-- The nearest double to a positive integer in range is finite, and no magnitude is nearer. -/
theorem exists_unpacked_nearest (negative : Bool) {N : Nat} (hN : 0 < N)
    (hfits : N < 2 ^ 1024 - 2 ^ 970) : ∃ m e h,
      unpacked (nearest negative N 1) = .finite (signOf negative) m e h ∧
        ∀ m' e', m' < 2 ^ 53 → |magnitude m e - N| ≤ |magnitude m' e' - N| := by
  have hlo : 2 ^ N.log2 ≤ N := Nat.log2_self_le hN.ne'
  have hhi : N < 2 ^ (N.log2 + 1) := Nat.lt_log2_self
  rw [nearest_eq negative hN]
  by_cases hlarge : 52 ≤ N.log2
  · rw [if_pos hlarge]
    obtain ⟨k, hk⟩ := Nat.exists_eq_add_of_le hlarge
    have hshift : N.log2 - 52 = k := by omega
    have hhi' : N < 2 ^ (53 + k) := by
      rw [show 53 + k = N.log2 + 1 by omega]
      exact hhi
    rw [hk] at hlo
    obtain ⟨hleast, hmost⟩ := roundDiv_bounds hlo hhi'
    have hmax : roundDiv N (2 ^ k) + (N.log2 + 1022) * 2 ^ 52 < 2047 * 2 ^ 52 := by
      have hlog : N.log2 < 1024 := by
        rw [Nat.log2_lt hN.ne']
        omega
      by_cases htop : k = 971
      · have hlt : roundDiv N (2 ^ k) < 2 ^ 53 := roundDiv_lt (by rw [htop]; omega)
        omega
      · omega
    obtain ⟨m, e, h, hunpacked, hmagnitude⟩ := exists_unpacked_ofMantissa negative hleast hmost hmax
    rw [hshift]
    refine ⟨m, e, h, hunpacked, fun m' e' hm' => ?_⟩
    have hvalue : magnitude m e = roundDiv N (2 ^ k) * (2 ^ k : Nat) := by
      have hexponent : ((N.log2 + 1022 : Nat) : Int) - 1074 = k := by omega
      rw [hmagnitude, hexponent, magnitude_eq, zpow_natCast]
      push_cast
      rfl
    rw [hvalue]
    exact abs_roundDiv_sub_le_magnitude hlo hm'
  · rw [if_neg hlarge]
    -- an integer of fewer bits is a double itself
    have hsplit : (2 : Nat) ^ 52 = 2 ^ N.log2 * 2 ^ (52 - N.log2) := by
      rw [← pow_add]
      congr 1
      omega
    have hleast : 2 ^ 52 ≤ N * 2 ^ (52 - N.log2) := by
      rw [hsplit]
      exact Nat.mul_le_mul_right _ hlo
    have hmost : N * 2 ^ (52 - N.log2) < 2 ^ 53 := by
      rw [pow_succ, hsplit, mul_right_comm, ← pow_succ]
      exact Nat.mul_lt_mul_of_pos_right hhi (Nat.two_pow_pos _)
    refine ⟨_, _, _, unpacked_ofMantissa negative hleast hmost (by omega), fun m' e' _ => ?_⟩
    have hvalue : magnitude (N * 2 ^ (52 - N.log2)) ((N.log2 + 1022 : Nat) - 1074) = N := by
      have hexponent : ((N.log2 + 1022 : Nat) : Int) - 1074 = -((52 - N.log2 : Nat) : Int) := by omega
      rw [magnitude_eq, hexponent, zpow_neg, zpow_natCast]
      push_cast
      field_simp
    rw [hvalue, sub_self, abs_zero]
    exact abs_nonneg _

theorem lt_of_fits {i : Int} (h : fits i) : i.natAbs < 2 ^ 1024 - 2 ^ 970 := by
  unfold fits at h
  -- powers this large are not to be computed
  generalize 1024 = a, 970 = b at h ⊢
  exact of_decide_eq_true h

/-- The size of a finite double is a magnitude of 53 bits. -/
theorem exists_abs_eq_magnitude {u : UnpackedFloat} (hu : IsCanonical u) {b : ℝ} (h : number u = .finite b) :
    ∃ m e, m < 2 ^ 53 ∧ |b| = magnitude m e := by
  rcases u with (_ | _) | _ | s | ⟨_ | _, m, e, hm⟩
  case zero =>
    cases h
    exact ⟨0, 0, by norm_num, by simp [magnitude]⟩
  case finite.positive =>
    cases h
    exact ⟨m, e, hu.1, abs_of_pos (magnitude_pos e hm)⟩
  case finite.negative =>
    cases h
    exact ⟨m, e, hu.1, (abs_neg _).trans (abs_of_pos (magnitude_pos e hm))⟩
  all_goals cases h

/-- The double that an integer in range becomes is finite, and none is nearer to the integer. -/
theorem nearest_ofInteger {i : Int} (h : fits i) : ∃ a, number (unpacked (ofFraction i 1)) = .finite a ∧
    ∀ x b, number (unpacked x) = .finite b → |a - i| ≤ |b - i| := by
  by_cases hzero : i = 0
  · subst hzero
    have hunpacked : unpacked (ofFraction 0 1) = .zero .positive := rfl
    refine ⟨0, by rw [hunpacked, number], fun x b _ => ?_⟩
    rw [Int.cast_zero, sub_zero, abs_zero]
    exact abs_nonneg _
  · obtain ⟨m, e, hm, hunpacked, hnearest⟩ :=
      exists_unpacked_nearest (decide (i < 0)) (Int.natAbs_pos.2 hzero) (lt_of_fits h)
    have hsize : (i.natAbs : ℝ) = |(i : ℝ)| := by rw [Nat.cast_natAbs, Int.cast_abs]
    refine ⟨if i < 0 then -magnitude m e else magnitude m e, ?_, fun x b hb => ?_⟩
    · show number (unpacked (nearest (decide (i < 0)) i.natAbs 1)) = _
      rw [hunpacked]
      by_cases hneg : i < 0 <;> simp [hneg, signOf, number]
    · obtain ⟨m', e', hm', hb'⟩ := exists_abs_eq_magnitude (isCanonical_unpacked x) hb
      -- both signs agree, so the distance is one of sizes
      have hsame : |(if i < 0 then -magnitude m e else magnitude m e) - i| = |magnitude m e - i.natAbs| := by
        rw [hsize]
        by_cases hneg : i < 0
        · have hcast : (i : ℝ) < 0 := by exact_mod_cast hneg
          rw [if_pos hneg, abs_of_neg hcast, ← abs_neg]
          ring_nf
        · have hcast : (0 : ℝ) ≤ i := by exact_mod_cast not_lt.1 hneg
          rw [if_neg hneg, abs_of_nonneg hcast]
      rw [hsame]
      calc |magnitude m e - i.natAbs| ≤ |magnitude m' e' - i.natAbs| := hnearest m' e' hm'
        _ = |(|b| - |(i : ℝ)|)| := by rw [hb', hsize]
        _ ≤ |b - i| := abs_abs_sub_abs_le b i

/-! ## The order and the integers of doubles -/

noncomputable instance : ValuedScalar Float where
  value x := number (unpacked x)
  value_le_iff {x y} := (le_iff_number (isCanonical_unpacked x) (isCanonical_unpacked y)).trans le_iff.symm
  value_lt_iff {x y} := by
    rw [Extended.lt_iff, le_iff_number (isCanonical_unpacked x) (isCanonical_unpacked y),
      le_iff_number (isCanonical_unpacked y) (isCanonical_unpacked x), ← lt_iff_le_not_le, ← lt_iff]
  value_neg x := by rw [unpacked_neg, number_neg]
  value_infinity := by
    have hunpacked : unpacked infinity = .infinity .positive := rfl
    rw [hunpacked, number]
  value_zero := by
    have hunpacked : unpacked (ofFraction 0 1) = .zero .positive := rfl
    show number (unpacked (ofFraction 0 1)) = _
    rw [hunpacked, number]
  value_one := by
    have hunpacked : unpacked (ofFraction 1 1) = .finite .positive (2 ^ 52) (-52) (by decide) := rfl
    show number (unpacked (ofFraction 1 1)) = _
    rw [hunpacked, number, magnitude_eq]
    norm_num
  value_barrier := by
    have hunpacked : unpacked huge = .finite .positive (2 ^ 52) 48 (by decide) := rfl
    rw [hunpacked, number, magnitude_eq]
    norm_num
  isFinite_of_abs_sub_lt h := by
    rw [lt_iff, unpacked_abs, unpacked_sub] at h
    exact isFinite_of_abs_sub_lt h
  nearest_ofInt h := nearest_ofInteger h

end Binary64
end Presolve
