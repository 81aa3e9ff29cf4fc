import Presolve.Proofs.Constraint.Admitted
import Presolve.Proofs.Linear.Order
import Presolve.Proofs.Problem.Again

/-!
# The flags of bounds

The bounds of a variable are the ends of an interval of exact numbers. Its flags are decided by a comparison
and by a difference of the ends; this file says what they mean for the numbers in between.
`Bounds.read_flags` puts it together for bounds as a caller passes them.

There is no number between bounds that are the same infinity, but such bounds are not flagged as excluding
each other, because neither of them is greater (`Bounds.unflagged_infinities`).
-/

namespace Presolve

open Scalar Extended

variable {K : Type} [Field K] [LinearOrder K] [FloorRing K]

/-! ## Intervals -/

namespace Extended

/-- Is a number of the field between two bounds? -/
def IsBetween (lo hi : Extended K) (t : K) : Prop := lo ≤ finite t ∧ finite t ≤ hi

variable {lo hi : Extended K}

theorem isBetween_finite {l u t : K} : IsBetween (finite l) (finite u) t ↔ l ≤ t ∧ t ≤ u := by
  rw [IsBetween, finite_le, finite_le]

/-- Bounds exclude each other if no number is between them, unless they are the same infinity. -/
theorem lt_iff_not_isBetween (hlo : lo ≠ undefined) (hhi : hi ≠ undefined) :
    hi < lo ↔ lo ≠ hi ∧ ∀ t : K, ¬IsBetween lo hi t := by
  cases lo with
  | undefined => exact absurd rfl hlo
  | finite l =>
    cases hi with
    | undefined => exact absurd rfl hhi
    | finite u =>
      rw [finite_lt]
      constructor
      · intro h
        refine ⟨fun heq => h.ne' (finite.inj heq), ?_⟩
        intro t ht
        rw [isBetween_finite] at ht
        exact absurd (ht.1.trans ht.2) (not_le.2 h)
      · -- the lower bound itself would be between them
        rintro ⟨-, hnone⟩
        by_contra h
        exact hnone l (isBetween_finite.2 ⟨le_rfl, not_lt.1 h⟩)
    | top => simpa [lt_iff] using ⟨l, by simp [IsBetween]⟩
    | bottom => simp [lt_iff, IsBetween]
  | top => cases hi <;> simp_all [lt_iff, IsBetween]
  | bottom =>
    cases hi with
    | undefined => exact absurd rfl hhi
    | finite u => simpa [lt_iff] using ⟨u, by simp [IsBetween]⟩
    | top => simpa [lt_iff] using ⟨0, by simp [IsBetween]⟩
    | bottom => simp [lt_iff]

variable [IsStrictOrderedRing K]

/-- A number between bounds that fix a variable is near the one half-way between them. -/
theorem abs_sub_middle_lt {l u t : K} (h : |l - u| < 2 * tiny) (ht : l ≤ t ∧ t ≤ u) :
    |t - (l + u) / 2| < tiny := by
  have hwidth := (abs_lt.1 h).1
  rw [abs_lt]
  constructor <;> linarith [ht.1, ht.2]

end Extended

/-! ## The bounds of all variables -/

namespace Bounds

/-- What the flags of the bounds of `n` variables say, and `values` of the fixed ones, in their order. -/
structure Describes (b : Bounds (Extended K)) (n : Nat) (values : List (Extended K)) : Prop where
  length_infeasible : b.infeasible.length = n
  length_fixed : b.fixed.length = n
  length_values : values.length = Mask.count b.fixed
  infeasible_iff : ∀ (i : Nat) lo hi, b.lower[i]? = some lo → b.upper[i]? = some hi →
    (b.infeasible[i]? = some true ↔ lo ≠ hi ∧ ∀ t : K, ¬IsBetween lo hi t)
  fixed_iff : ∀ (i : Nat) lo hi, b.lower[i]? = some lo → b.upper[i]? = some hi →
    (b.fixed[i]? = some true ↔ ∃ l u : K, lo = finite l ∧ hi = finite u ∧ |l - u| < 2 * tiny)
  value_eq : ∀ (i : Nat) lo hi, b.lower[i]? = some lo → b.upper[i]? = some hi → b.fixed[i]? = some true →
    values[Order.rank b.fixed i]? = some (middle lo hi)
  value_near : ∀ (i : Nat) lo hi, b.lower[i]? = some lo → b.upper[i]? = some hi →
    b.fixed[i]? = some true → b.infeasible[i]? = some false →
    ∃ v : K, middle lo hi = finite v ∧ IsBetween lo hi v ∧ ∀ t, IsBetween lo hi t → |t - v| < tiny

section

variable {α : Type} [Scalar α] {b : Bounds α} {i : Nat} {lo hi : α}

/-- The flags of a variable. -/
theorem flags_getElem? (hlo : b.lower[i]? = some lo) (hhi : b.upper[i]? = some hi) :
    b.infeasible[i]? = some (decide (hi < lo)) ∧ b.fixed[i]? = some (fixes lo hi) := by
  simp [infeasible, fixed, List.getElem?_zipWith, hlo, hhi]

/-- The values of the marked variables are those half-way between the bounds of all. -/
theorem middles_eq_select {mask : List Bool} {n : Nat} (hl : b.lower.length = n)
    (hu : b.upper.length = n) (hm : mask.length = n) :
    b.middles mask = .ok (Mask.select mask (List.zipWith middle b.lower b.upper)) := by
  rw [middles_eq hl hu hm, Mask.select_zipWith]
  rfl

end

variable [IsStrictOrderedRing K] {b : Bounds (Extended K)} {n : Nat}

theorem exists_describes (hl : b.lower.length = n) (hu : b.upper.length = n)
    (hlower : ∀ a ∈ b.lower, a ≠ Extended.undefined) (hupper : ∀ a ∈ b.upper, a ≠ Extended.undefined) :
    ∃ values, b.middles b.fixed = .ok values ∧ b.Describes n values := by
  have hfixed : b.fixed.length = n := by simp [fixed, hl, hu]
  have hmiddles : (List.zipWith middle b.lower b.upper).length = n := by simp [hl, hu]
  refine ⟨_, middles_eq_select hl hu hfixed, ?_⟩
  constructor
  case length_infeasible => simp [infeasible, hl, hu]
  case length_fixed => exact hfixed
  case length_values => exact Mask.length_select (hfixed.trans hmiddles.symm)
  case infeasible_iff =>
    intro i lo hi hlo hhi
    rw [(flags_getElem? hlo hhi).1, Option.some.injEq, decide_eq_true_eq]
    exact lt_iff_not_isBetween (hlower lo (List.mem_of_getElem? hlo)) (hupper hi (List.mem_of_getElem? hhi))
  case fixed_iff =>
    intro i lo hi hlo hhi
    rw [(flags_getElem? hlo hhi).2, Option.some.injEq]
    exact fixes_eq_true
  case value_eq =>
    intro i lo hi hlo hhi hflag
    rw [Order.getElem?_select (hfixed.trans hmiddles.symm) hflag]
    simp [List.getElem?_zipWith, hlo, hhi]
  case value_near =>
    intro i lo hi hlo hhi hflag hfeasible
    rw [(flags_getElem? hlo hhi).2, Option.some.injEq] at hflag
    rw [(flags_getElem? hlo hhi).1, Option.some.injEq, decide_eq_false_iff_not] at hfeasible
    obtain ⟨l, u, rfl, rfl, hwidth⟩ := fixes_eq_true.1 hflag
    have hlu : l ≤ u := not_lt.1 (mt (finite_lt u l).2 hfeasible)
    refine ⟨(l + u) / 2, middle_finite l u, isBetween_finite.2 ⟨by linarith, by linarith⟩, ?_⟩
    intro t ht
    exact abs_sub_middle_lt hwidth (isBetween_finite.1 ht)

/-! ## Bounds as they are passed -/

section

variable {α : Type} [Scalar α] [Interchange α] {source : String}

/-- A side that is absent bounds nothing. -/
theorem readSide_absent (side : BoundName) : readSide side source n (.absent : Value α)
    = .ok (List.replicate n (match side with | .lower => -infinity | .upper => infinity)) := rfl

end

variable [Interchange (Extended K)]

/-- Bounds are flagged as excluding each other exactly if they differ and no number is between them. Fixed
are the variables whose bounds are numbers that nearly agree; each has one value, in the order of the
variables. Unless the bounds exclude each other, the value is between them and near every number that is.
Vectors with an entry for each variable are such bounds, and so is what is absent. -/
theorem read_flags (source : String) (hn : 0 < n) :
    (∀ lower upper : Option (List (Extended K)), (∀ xs ∈ lower, xs.length = n) →
      (∀ xs ∈ upper, xs.length = n) →
      read source n (lower.elim .absent .ofList) (upper.elim .absent .ofList)
        = .ok ⟨lower.getD (List.replicate n bottom), upper.getD (List.replicate n top)⟩) ∧
    ∀ (lower upper : Value (Extended K)) (b : Bounds (Extended K)), read source n lower upper = .ok b →
      (∀ a ∈ b.lower, a ≠ Extended.undefined) → (∀ a ∈ b.upper, a ≠ Extended.undefined) →
      ∃ values, b.middles b.fixed = .ok values ∧ b.Describes n values := by
  constructor
  · intro lower upper hlower hupper
    have hlo : readSide .lower source n (lower.elim .absent .ofList)
        = .ok (lower.getD (List.replicate n bottom)) := by
      cases lower with
      | none => exact readSide_absent .lower
      | some xs => exact readSide_ofList .lower hn (hlower xs rfl)
    have hhi : readSide .upper source n (upper.elim .absent .ofList)
        = .ok (upper.getD (List.replicate n top)) := by
      cases upper with
      | none => exact readSide_absent .upper
      | some xs => exact readSide_ofList .upper hn (hupper xs rfl)
    rw [read, hlo, hhi]
    rfl
  · intro lower upper b hread hlower hupper
    obtain ⟨hl, hu⟩ := read_eq_ok hread
    exact exists_describes hl hu hlower hupper

/-- Two variables that are fixed, one of them by bounds that nearly agree, one with bounds that exclude each
other, and two with infinite bounds. -/
def mixedBounds : Bounds (Extended ℚ) where
  lower := [finite 0, bottom, finite 3, finite 1, top]
  upper := [finite 0, finite 2, finite 1, finite (1 + tiny), top]

/-- Only the third of the variables is flagged as having bounds that exclude each other, and no number is
between them; the value of the fourth is near every number between its bounds. -/
theorem read_flags_mixedBounds : ∃ values,
    read "pdfo" 5 (.ofList mixedBounds.lower) (.ofList mixedBounds.upper) = .ok mixedBounds ∧
      mixedBounds.middles mixedBounds.fixed = .ok values ∧
      mixedBounds.infeasible = [false, false, true, false, false] ∧
      mixedBounds.fixed = [true, false, false, true, false] ∧
      values[1]? = some (middle (finite 1) (finite (1 + tiny))) ∧
      (∀ t : ℚ, ¬IsBetween (finite 3) (finite 1) t) ∧
      ∃ v : ℚ, middle (finite 1) (finite (1 + tiny)) = finite v ∧
        ∀ t, IsBetween (finite 1) (finite (1 + tiny)) t → |t - v| < tiny := by
  have hinfeasible : mixedBounds.infeasible = [false, false, true, false, false] := by decide +kernel
  have hfixed : mixedBounds.fixed = [true, false, false, true, false] := by decide +kernel
  obtain ⟨hread, hflags⟩ := read_flags (K := ℚ) "pdfo" (n := 5) (by decide)
  have hgiven := hread (some mixedBounds.lower) (some mixedBounds.upper) (by simp [mixedBounds])
    (by simp [mixedBounds])
  obtain ⟨values, hvalues, hdescribes⟩ := hflags _ _ _ hgiven (by simp [mixedBounds])
    (by simp [mixedBounds])
  have hvalue := hdescribes.value_eq 3 _ _ rfl rfl (congrArg (·[3]?) hfixed)
  have hempty := (hdescribes.infeasible_iff 2 _ _ rfl rfl).1 (congrArg (·[2]?) hinfeasible)
  obtain ⟨v, hv, -, hnear⟩ := hdescribes.value_near 3 _ _ rfl rfl (congrArg (·[3]?) hfixed)
    (congrArg (·[3]?) hinfeasible)
  have hrank : Order.rank mixedBounds.fixed 3 = 1 := by rw [hfixed]; rfl
  exact ⟨values, hgiven, hvalues, hinfeasible, hfixed, hrank ▸ hvalue, hempty.2, v, hv, hnear⟩

/-- Bounds that are the same infinity have no number between them, and are not flagged. -/
theorem unflagged_infinities :
    (∃ b, read "pdfo" 1 (.ofList [(top : Extended ℚ)]) (.ofList [top]) = .ok b ∧
      b.infeasible = [false] ∧ ∀ t : ℚ, ¬IsBetween top top t) ∧
    ∃ b, read "pdfo" 1 (.absent : Value (Extended ℚ)) (.ofList [bottom]) = .ok b ∧
      b.infeasible = [false] ∧ ∀ t : ℚ, ¬IsBetween bottom bottom t := by
  constructor
  · refine ⟨⟨[top], [top]⟩, ?_, by decide, by simp [IsBetween]⟩
    exact read_ofList (b := ⟨[top], [top]⟩) one_pos rfl rfl
  · refine ⟨⟨[bottom], [bottom]⟩, ?_, by decide, by simp [IsBetween]⟩
    rw [read, readSide_absent, readSide_ofList .upper one_pos rfl]
    rfl

end Bounds
end Presolve
