import Presolve.Barrier
import Presolve.Proofs.Linear.Exact
import Presolve.Proofs.Number.Doubles
import Presolve.Proofs.Transform.Start

/-!
# Numbers that come to rest

What is moved into an interval stays there when it is moved again, and so does what a barrier has replaced.
A row is not both trivial and infeasible, so the rows that are kept decide whether a system is infeasible.
All this takes is a few laws, `SteadyScalar`. They hold of exact numbers and of doubles, infinite and
undefined ones included.
-/

namespace Presolve

open Scalar

/-- Numbers whose order and whose division by one are as they should be, even where a number is infinite or
undefined. -/
class SteadyScalar (α : Type) [Scalar α] : Prop where
  /-- Only defined numbers are less than others. -/
  defined_of_lt {x y : α} (h : x < y) : x ≤ x
  not_le_of_lt {x y : α} (h : x < y) : ¬y ≤ x
  huge_defined : (huge : α) ≤ huge
  neg_huge_defined : (-huge : α) ≤ -huge
  /-- No number is infinite both ways. -/
  not_le_neg_infinity {x : α} (h : infinity ≤ x) : ¬x ≤ -infinity
  /-- Divided by one, no number is infinite the other way. -/
  not_div_one_le {x : α} (h : 0 ≤ x) : ¬x / 1 ≤ -infinity
  not_le_div_one {x : α} (h : x < 0) : ¬infinity ≤ x / 1
  not_le_abs_div_one {x : α} (h : same x 0 = true) : ¬infinity ≤ Scalar.abs (x / 1)
  /-- A vector, whatever its entries, is not far from itself. -/
  not_farther_self (xs : List α) : farther epsilon (List.zipWith (· - ·) xs xs) xs = false

/-! ## Exact numbers -/

namespace Extended

variable {K : Type} [Field K] [LinearOrder K] [FloorRing K]

theorem div_one_eq (x : Extended K) : x / 1 = x := by
  rw [one_eq]
  cases x with
  | finite a => rw [finite_div _ one_ne_zero, div_one]
  | top => exact top_div one_pos
  | bottom => exact bottom_div one_pos
  | undefined => exact undefined_div _

instance [IsStrictOrderedRing K] : SteadyScalar (Extended K) where
  defined_of_lt h := defined_left (Extended.le_of_lt h)
  not_le_of_lt h := (lt_iff.1 h).2
  huge_defined := (finite_le _ _).2 le_rfl
  neg_huge_defined := (finite_le _ _).2 le_rfl
  not_le_neg_infinity {x} h hx := not_top_le_bottom (Extended.le_trans h hx)
  not_div_one_le {x} h hx := by
    rw [div_one_eq] at hx
    rw [zero_eq] at h
    exact not_finite_le_bottom 0 (Extended.le_trans h hx)
  not_le_div_one {x} h hx := by
    rw [div_one_eq] at hx
    rw [zero_eq] at h
    exact not_top_le_finite 0 (Extended.le_trans hx (Extended.le_of_lt h))
  not_le_abs_div_one {x} h hx := by
    rw [zero_eq, same_iff_eq ((finite_le 0 0).2 le_rfl)] at h
    rw [div_one_eq, h] at hx
    exact not_top_le_finite _ hx
  not_farther_self := not_farther_self

end Extended

/-! ## Doubles -/

namespace Binary64

open Float.Model Float.Model.UnpackedFloat

theorem unpacked_mul (x y : Float) :
    unpacked (x * y) = stored (mul .binary64 (unpacked x) (unpacked y)) := rfl

theorem unpacked_one : unpacked (ofFraction 1 1) = .finite .positive (2 ^ 52) (-52) (by decide) := rfl

/-- A number that is none, or one with the given sign. -/
def HasSign (s : Sign) : UnpackedFloat → Prop
  | .notANumber => True
  | .infinity t | .zero t | .finite t _ _ _ => t = s

theorem hasSign_unpack (s : Sign) (e : BitVec 11) (m : BitVec 52) :
    HasSign s (UnpackedFloat.unpack .binary64 (packComponents .binary64 s e m)) := by
  rw [unpack_packComponents]
  split_ifs <;> trivial

/-- Storing a number keeps its sign. -/
theorem HasSign.stored {s : Sign} {u : UnpackedFloat} (h : HasSign s u) : HasSign s (stored u) := by
  cases u with
  | notANumber => trivial
  | infinity t | zero t =>
    obtain rfl : t = s := h
    exact hasSign_unpack t _ _
  | finite t m e hm =>
    obtain rfl : t = s := h
    unfold Binary64.stored
    simp only [UnpackedFloat.pack, packedInfinity]
    split_ifs <;> exact hasSign_unpack t _ _

theorem hasSign_roundWithAccuracy (s : Sign) (m : Nat) (e : Int) (a : Accuracy) :
    HasSign s (roundWithAccuracy .binary64 s m e a) := by
  unfold roundWithAccuracy
  simp only
  split <;> rfl

/-- Dividing by a positive number keeps the sign. -/
theorem HasSign.div {s : Sign} {u : UnpackedFloat} {m : Nat} {e : Int} {hm : 0 < m} (h : HasSign s u) :
    HasSign s (div .binary64 u (.finite .positive m e hm)) := by
  have hsign : s / Sign.positive = s := by cases s <;> rfl
  cases u with
  | notANumber => trivial
  | infinity t | zero t =>
    cases h
    exact hsign
  | finite t m e hm =>
    cases h
    simpa [UnpackedFloat.div, hsign] using hasSign_roundWithAccuracy _ _ _ _

/-- Products of numbers that are not negative are not. -/
theorem HasSign.mul {u v : UnpackedFloat} (hu : HasSign .positive u) (hv : HasSign .positive v) :
    HasSign .positive (mul .binary64 u v) := by
  cases u <;> cases v <;> first | trivial | (cases hu; cases hv)
  case finite.finite.refl.refl => exact hasSign_roundWithAccuracy _ _ _ _
  all_goals rfl

theorem HasSign.not_le_neg_infinity {u : UnpackedFloat} (h : HasSign .positive u) :
    ¬u.le (.infinity .negative) = true := by
  cases u <;> first | exact Bool.false_ne_true | (cases h; exact Bool.false_ne_true)

theorem HasSign.not_infinity_le {u : UnpackedFloat} (h : HasSign .negative u) :
    ¬(UnpackedFloat.infinity .positive).le u = true := by
  cases u <;> first | exact Bool.false_ne_true | (cases h; exact Bool.false_ne_true)

theorem HasSign.not_lt_zero {u : UnpackedFloat} (h : HasSign .positive u) (s : Sign) :
    ¬u.lt (.zero s) = true := by
  cases u <;> first | exact Bool.false_ne_true | (cases h; exact Bool.false_ne_true)

/-! ### Order -/

/-- What is less than a number is a number itself. -/
theorem le_self_of_lt {u v : UnpackedFloat} (h : u.lt v = true) : u.le u = true := by
  cases u with
  | notANumber => cases h
  | infinity s | zero s => cases s <;> rfl
  | finite s m e hm => cases s <;> simp [UnpackedFloat.le, UnpackedFloat.compare]

theorem not_le_of_lt {u v : UnpackedFloat} (h : u.lt v = true) : ¬v.le u = true := by
  have hcompare : u.compare v = some .lt := by simpa [UnpackedFloat.lt] using h
  rw [UnpackedFloat.le, compare_swap, hcompare]
  exact Bool.false_ne_true

theorem hasSign_of_zero_le {u : UnpackedFloat} (h : (UnpackedFloat.zero .positive).le u = true) :
    (∃ s, u = .zero s) ∨ HasSign .positive u := by
  rcases u with (_ | _) | _ | s | ⟨_ | _, m, e, hm⟩ <;>
    first | exact .inl ⟨_, rfl⟩ | exact .inr rfl | cases h

theorem hasSign_of_infinity_le {u : UnpackedFloat}
    (h : (UnpackedFloat.infinity .positive).le u = true) : HasSign .positive u := by
  rcases u with (_ | _) | _ | s | ⟨_ | _, m, e, hm⟩ <;> first | exact rfl | cases h

theorem hasSign_of_lt_zero {u : UnpackedFloat} (h : u.lt (.zero .positive) = true) :
    HasSign .negative u := by
  rcases u with (_ | _) | _ | s | ⟨_ | _, m, e, hm⟩ <;> first | exact rfl | cases h

theorem eq_zero_of_le {u : UnpackedFloat} (h : u.le (.zero .positive) = true)
    (h' : (UnpackedFloat.zero .positive).le u = true) : ∃ s, u = .zero s := by
  rcases u with (_ | _) | _ | s | ⟨_ | _, m, e, hm⟩ <;>
    first | exact ⟨_, rfl⟩ | exact absurd h Bool.false_ne_true | exact absurd h' Bool.false_ne_true

theorem hasSign_of_one_lt {u : UnpackedFloat} (h : (unpacked (ofFraction 1 1)).lt u = true) :
    HasSign .positive u := by
  rw [unpacked_one] at h
  rcases u with (_ | _) | _ | s | ⟨_ | _, m, e, hm⟩ <;> first | exact rfl | cases h

/-! ### Distances -/

/-- Nothing at all: zero, or what is no number. -/
def Vanishes (u : UnpackedFloat) : Prop := u = .notANumber ∨ u = .zero .positive

theorem vanishes_sub_self (u : UnpackedFloat) : Vanishes (stored (sub .binary64 u u)) := by
  rcases u with (_ | _) | _ | (_ | _) | ⟨s, m, e, hm⟩
  · exact .inl rfl
  · exact .inl rfl
  · exact .inl rfl
  · exact .inr rfl
  · exact .inr rfl
  · have hzero : sub .binary64 (.finite s m e hm) (.finite s m e hm) = .zero .positive := by
      simp only [UnpackedFloat.sub, Int.sub_self]
      rfl
    rw [hzero]
    exact .inr rfl

theorem Vanishes.add_mul_self {u v : UnpackedFloat} (hu : Vanishes u) (hv : Vanishes v) :
    Vanishes (stored (add .binary64 u (stored (mul .binary64 v v)))) := by
  rcases hu with rfl | rfl <;> rcases hv with rfl | rfl <;> first | exact .inl rfl | exact .inr rfl

theorem Vanishes.sqrt {u : UnpackedFloat} (h : Vanishes u) : Vanishes (stored (sqrt .binary64 u)) := by
  rcases h with rfl | rfl
  · exact .inl rfl
  · exact .inr rfl

/-- The norm of a vector without entries other than zero. -/
theorem vanishes_norm {ds : List Float} (h : ∀ d ∈ ds, Vanishes (unpacked d)) :
    Vanishes (unpacked (norm ds)) := by
  have hsum : Vanishes (unpacked (ds.foldl (fun s x => s + x * x) 0)) := by
    refine List.foldlRecOn (motive := fun s => Vanishes (unpacked s)) ds _ (.inr rfl) ?_
    intro s hs d hd
    exact hs.add_mul_self (h d hd)
  exact hsum.sqrt

theorem not_farther_self (xs : List Float) :
    farther epsilon (List.zipWith (· - ·) xs xs) xs = false := by
  have hnorm : Vanishes (unpacked (norm (List.zipWith (· - ·) xs xs))) := by
    apply vanishes_norm
    rw [List.zipWith_self]
    intro d hd
    obtain ⟨x, -, rfl⟩ := List.mem_map.1 hd
    exact vanishes_sub_self _
  -- what the distance is compared with is a product of two numbers that are not negative
  have hepsilon : HasSign .positive (unpacked epsilon) := by
    rw [unpacked_epsilon]
    rfl
  have hsize : HasSign .positive (unpacked (if 1 < norm xs then norm xs else 1)) := by
    split
    · next h => exact hasSign_of_one_lt (lt_iff.1 h)
    · exact rfl
  show decide (epsilon * (if 1 < norm xs then norm xs else 1) < norm (List.zipWith (· - ·) xs xs)) = false
  rw [decide_eq_false_iff_not, lt_iff, unpacked_mul]
  rcases hnorm with hnorm | hnorm
  · rw [hnorm]
    cases stored (UnpackedFloat.mul _ _ _) <;> exact Bool.false_ne_true
  · rw [hnorm]
    exact (hepsilon.mul hsize).stored.not_lt_zero _

end Binary64

open Binary64 in
instance : SteadyScalar Float where
  defined_of_lt h := le_iff.2 (le_self_of_lt (lt_iff.1 h))
  not_le_of_lt h := fun hle => Binary64.not_le_of_lt (lt_iff.1 h) (le_iff.1 hle)
  huge_defined := by decide
  neg_huge_defined := by decide
  not_le_neg_infinity h := fun hle =>
    (hasSign_of_infinity_le (le_iff.1 h)).not_le_neg_infinity (le_iff.1 hle)
  not_div_one_le {x} h := by
    rw [le_iff, unpacked_div]
    rcases hasSign_of_zero_le (le_iff.1 h) with ⟨s, hs⟩ | hs
    · rw [hs]
      cases s <;> exact Bool.false_ne_true
    · exact hs.div.stored.not_le_neg_infinity
  not_le_div_one {x} h := by
    rw [le_iff, unpacked_div]
    exact (hasSign_of_lt_zero (lt_iff.1 h)).div.stored.not_infinity_le
  not_le_abs_div_one {x} h := by
    simp only [same, Bool.and_eq_true, decide_eq_true_eq, le_iff] at h
    obtain ⟨s, hs⟩ := eq_zero_of_le h.1 h.2
    rw [le_iff, unpacked_abs, unpacked_div, hs]
    cases s <;> exact Bool.false_ne_true
  not_farther_self := Binary64.not_farther_self

/-! ## What comes to rest -/

section

variable {α : Type} [Scalar α] [SteadyScalar α]

omit [SteadyScalar α] in
theorem clamp_of_isUndefined {x : α} (hx : isUndefined x = true) (lo hi : α) : clamp lo hi x = x := by
  rw [clamp, atLeast, if_pos hx, atMost, if_pos hx]

omit [SteadyScalar α] in
/-- The upper end of an interval stays where it is if the lower one is defined. -/
theorem clamp_upper {lo : α} (hlo : isUndefined lo = false) (hi : α) : clamp lo hi hi = hi := by
  unfold clamp atMost atLeast
  split_ifs <;> simp_all

/-- A number that was moved into an interval stays where it is, even if the interval is empty or one of its
ends is undefined. -/
theorem clamp_clamp (lo hi x : α) : clamp lo hi (clamp lo hi x) = clamp lo hi x := by
  by_cases hx : isUndefined x = true
  · rw [clamp_of_isUndefined hx, clamp_of_isUndefined hx]
  -- the number itself or the lower end, whichever is greater, and then the upper end if that is less
  have hraised : clamp lo hi x = atMost hi (if lo < x then x else lo) := by rw [clamp, atLeast, if_neg hx]
  by_cases hundefined : isUndefined (if lo < x then x else lo) = true
  · rw [hraised, atMost, if_pos hundefined, clamp_of_isUndefined hundefined]
  by_cases hbelow : (if lo < x then x else lo) < hi
  · rw [hraised, atMost, if_neg hundefined, if_pos hbelow]
    split at hbelow
    · next hlo => rw [if_pos hlo, clamp, atLeast, if_neg hx, if_pos hlo, atMost, if_neg hx, if_pos hbelow]
    · next hlo =>
      rw [if_neg hlo] at hundefined ⊢
      rw [clamp, atLeast, if_neg hundefined, ite_self, atMost, if_neg hundefined, if_pos hbelow]
  · have hlo : isUndefined lo = false := by
      split at hundefined
      · next hlo => simpa [isUndefined] using SteadyScalar.defined_of_lt hlo
      · simpa using hundefined
    rw [hraised, atMost, if_neg hundefined, if_neg hbelow, clamp_upper hlo]

namespace Barrier

omit [SteadyScalar α] in
theorem objectiveValue_objectiveValue (x : α) :
    objectiveValue (objectiveValue x) = objectiveValue x := by
  unfold objectiveValue
  split_ifs <;> rfl

theorem isUndefined_clamp_huge {x : α} (h : isUndefined x = false) :
    isUndefined (clamp (-huge) huge x) = false := by
  have hdefined {y : α} (hy : y ≤ y) : isUndefined y = false := by simpa [isUndefined] using hy
  have hhuge := hdefined (SteadyScalar.huge_defined (α := α))
  have hneg := hdefined (SteadyScalar.neg_huge_defined (α := α))
  unfold clamp atMost atLeast
  split_ifs <;> simp_all

/-- What the barrier has replaced it leaves alone. -/
theorem constraintValue_constraintValue (x : α) :
    constraintValue (constraintValue x) = constraintValue x := by
  have hdefined : isUndefined (if isUndefined x then huge else x) = false := by
    split
    · simpa [isUndefined] using SteadyScalar.huge_defined (α := α)
    · next h => simpa using h
  rw [constraintValue, constraintValue, isUndefined_clamp_huge hdefined, if_neg Bool.false_ne_true, clamp_clamp]

end Barrier

omit [SteadyScalar α] in
/-- A row without coefficients is divided by one. -/
theorem relativeRhs_of_zero {row : List α} (h : same (rowSize row) 0 = true) (b : α) :
    relativeRhs row b = b / 1 := by
  rw [relativeRhs, if_pos h]

/-- No row is both: one that every point satisfies is one that some point satisfies. -/
theorem SystemName.not_isInfeasible_of_isTrivial {name : SystemName} {row : List α} {b : α}
    (h : name.isTrivial row b = true) : name.isInfeasible row b = false := by
  cases name with
  | inequalities =>
    simp only [isTrivial, same, Bool.or_eq_true, Bool.and_eq_true, decide_eq_true_eq] at h
    simp only [isInfeasible, same, Bool.or_eq_false_iff, Bool.and_eq_false_iff, decide_eq_false_iff_not]
    rcases h with ⟨-, hinfinite⟩ | ⟨hzero, hb⟩
    · refine ⟨.inl (SteadyScalar.not_le_neg_infinity hinfinite), ?_⟩
      by_contra! hboth
      have hzero : same (rowSize row) 0 = true := by simpa [same] using hboth.1
      rw [relativeRhs_of_zero hzero] at hinfinite
      exact SteadyScalar.not_le_div_one hboth.2 hinfinite
    · rw [relativeRhs_of_zero (by simpa [same] using hzero)]
      exact ⟨.inl (SteadyScalar.not_div_one_le hb), .inr fun hlt => SteadyScalar.not_le_of_lt hlt hb⟩
  | equalities =>
    simp only [isTrivial, Bool.and_eq_true] at h
    obtain ⟨hzero, hb⟩ := h
    simp only [isInfeasible, hzero, hb, relativeRhs_of_zero hzero, Bool.not_true, Bool.and_false, Bool.or_false]
    simpa [same] using fun _ => SteadyScalar.not_le_abs_div_one hb

/-- A point that was moved between bounds stays there. -/
theorem Bounds.clip_clip {b : Bounds α} {x y : List α} {n : Nat} (hl : b.lower.length = n)
    (hu : b.upper.length = n) (hx : x.length = n) (h : b.clip x = .ok y) : b.clip y = .ok y := by
  rw [Bounds.clip_eq hl hu hx] at h
  obtain rfl := Except.ok.inj h
  rw [Bounds.clip_eq hl hu (by simp [hl, hu, hx])]
  congr 1
  apply List.ext_getElem (by simp [hl, hu, hx])
  intro m _ _
  simp only [List.getElem_zipWith]
  exact clamp_clamp _ _ _

/-- A start is not far from itself. -/
theorem Problem.isRevised_start (p : Problem α) : p.isRevised p.start = .ok false := by
  rw [isRevised, entrywise_of_length_eq _ rfl]
  exact congrArg Except.ok (SteadyScalar.not_farther_self p.start)

end

end Presolve
