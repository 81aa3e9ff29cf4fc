import Presolve.Proofs.Linear.Exact
import Presolve.Proofs.Record.Points

/-!
# Preparations over exact numbers

Where the start of a problem is finite and its bounds are infinite only where there are none, so are all
starts and bounds on the way of a preparation. The factors of its rescaling are then positive numbers
and the shifts are numbers, so no step of the change of variables loses a point.
-/

namespace Presolve

open Scalar Extended

variable {K : Type} [Field K] [LinearOrder K] [FloorRing K]

/-! ## Starts and bounds -/

/-- A lower bound is a number or there is none. -/
def IsLowerBound (x : Extended K) : Prop := IsFinite x ∨ x = bottom

/-- An upper bound is a number or there is none. -/
def IsUpperBound (x : Extended K) : Prop := IsFinite x ∨ x = top

/-- The start of a problem is finite, and its bounds are infinite only where there are none. -/
structure Problem.IsProper (p : Problem (Extended K)) : Prop where
  start : ∀ a ∈ p.start, IsFinite a
  lower : ∀ a ∈ p.bounds.lower, IsLowerBound a
  upper : ∀ a ∈ p.bounds.upper, IsUpperBound a

/-- The coefficients of a system are finite; its right-hand sides need not be. -/
def LinearSystem.HasFiniteRows (s : LinearSystem (Extended K)) : Prop :=
  ∀ row ∈ s.rows, ∀ a ∈ row, IsFinite a

/-- The coefficients of both systems of a problem are finite. -/
def Problem.HasFiniteRows (p : Problem (Extended K)) : Prop :=
  p.inequalities.HasFiniteRows ∧ p.equalities.HasFiniteRows

/-- A point that the search finds for a well-formed problem with a finite start is finite. -/
def NearestSearch.FindsFinite (search : NearestSearch (Extended K)) : Prop :=
  ∀ p n x, Problem.Fits p n → p.IsProper → search p.nearestQuery = .ok (.point x) → ∀ a ∈ x, IsFinite a

omit [Field K] [LinearOrder K] [FloorRing K] in
theorem NearestSearch.stay_findsFinite : (stay : NearestSearch (Extended K)).FindsFinite := by
  intro p n x _ hproper hx
  cases hx
  exact hproper.start

theorem Problem.IsProper.reducedBy {p : Problem (Extended K)} (hp : p.IsProper)
    (e : Elimination (Extended K)) : (p.reducedBy e).IsProper where
  start a ha := hp.start a (Mask.mem_of_mem_select ha)
  lower a ha := hp.lower a (Mask.mem_of_mem_select ha)
  upper a ha := hp.upper a (Mask.mem_of_mem_select ha)

theorem Problem.HasFiniteRows.withoutTrivialRows {p : Problem (Extended K)} (hp : p.HasFiniteRows) :
    p.withoutTrivialRows.HasFiniteRows := by
  constructor
  · intro row hrow
    exact hp.1 row (Mask.mem_of_mem_select hrow)
  · intro row hrow
    exact hp.2 row (Mask.mem_of_mem_select hrow)

theorem LinearSystem.HasFiniteRows.reducedSystem {s : LinearSystem (Extended K)}
    (hs : s.HasFiniteRows) (e : Elimination (Extended K)) : (e.reducedSystem s).HasFiniteRows := by
  intro row hrow a ha
  obtain ⟨row', hrow', rfl⟩ := List.mem_map.1 hrow
  exact hs row' hrow' a (Mask.mem_of_mem_select ha)

theorem Problem.HasFiniteRows.reducedBy {p : Problem (Extended K)} (hp : p.HasFiniteRows)
    (e : Elimination (Extended K)) : (p.reducedBy e).HasFiniteRows :=
  ⟨hp.1.reducedSystem e, hp.2.reducedSystem e⟩

/-- A number stays one where it is raised to a lower bound. -/
theorem Extended.isFinite_atLeast {lo x : Extended K} (hlo : IsLowerBound lo) (hx : IsFinite x) :
    IsFinite (atLeast lo x) := by
  obtain ⟨a, rfl⟩ := hx
  have hdefined : isUndefined (finite a) = false := by simp [isUndefined]
  rw [atLeast, hdefined, if_neg Bool.false_ne_true]
  split
  · -- already above the bound
    exact isFinite_finite a
  · next hle =>
    rcases hlo with h | rfl
    · exact h
    · exact absurd rfl hle

/-- A number stays one where it is lowered to an upper bound. -/
theorem Extended.isFinite_atMost {hi x : Extended K} (hhi : IsUpperBound hi) (hx : IsFinite x) :
    IsFinite (atMost hi x) := by
  obtain ⟨a, rfl⟩ := hx
  have hdefined : isUndefined (finite a) = false := by simp [isUndefined]
  rw [atMost, hdefined, if_neg Bool.false_ne_true]
  split
  · exact isFinite_finite a
  · next hle =>
    rcases hhi with h | rfl
    · exact h
    · exact absurd rfl hle

/-- A finite point stays finite where it is moved into the bounds. -/
theorem Problem.IsProper.clip {p : Problem (Extended K)} {n : Nat}
    {x start : List (Extended K)} (hp : p.IsProper) (hfits : p.Fits n) (hlen : x.length = n)
    (hx : ∀ a ∈ x, IsFinite a) (h : p.bounds.clip x = .ok start) : ∀ a ∈ start, IsFinite a := by
  rw [Bounds.clip_eq hfits.length_lower hfits.length_upper hlen] at h
  cases h
  -- an entry is raised to its lower bound first and lowered to its upper one second
  intro a ha
  obtain ⟨hi, hhi, b, hb, rfl⟩ := exists_of_mem_zipWith ha
  obtain ⟨lo, hlo, c, hc, rfl⟩ := exists_of_mem_zipWith hb
  exact isFinite_atMost (hp.upper hi hhi) (isFinite_atLeast (hp.lower lo hlo) (hx c hc))

/-- A feasible start of a problem with a finite one is finite. -/
theorem Problem.IsProper.feasibleStart {search : NearestSearch (Extended K)} {kind : ProblemKind}
    {p : Problem (Extended K)} {n : Nat} {start : List (Extended K)} {failure : Option String}
    (hp : p.IsProper) (hfits : p.Fits n) (hdim : search.KeepsDimension) (hsearch : search.FindsFinite)
    (h : p.feasibleStart search kind = .ok (start, failure)) : ∀ a ∈ start, IsFinite a := by
  rcases Problem.feasibleStart_eq_ok h with rfl | h | ⟨x, hx, h⟩
  · exact hp.start
  · exact hp.clip hfits hfits.length_start hp.start h
  · exact hp.clip hfits (hdim p n x hfits hx) (hsearch p n x hfits hp hx) h

/-! ## Factors and shifts -/

/-- Both bounds of a boxed variable are numbers. -/
theorem Rescaling.isFinite_of_isBoxed {lo hi : Extended K} (hlo : IsLowerBound lo)
    (hhi : IsUpperBound hi) (h : isBoxed lo hi = true) : ∃ l u : K, lo = finite l ∧ hi = finite u := by
  rcases hlo with ⟨l, rfl⟩ | rfl
  · rcases hhi with ⟨u, rfl⟩ | rfl
    · exact ⟨l, u, rfl, rfl⟩
    · cases h
  · cases h

theorem Rescaling.isFinite_factorAt [IsStrictOrderedRing K] {lo hi : Extended K}
    (hlo : IsLowerBound lo) (hhi : IsUpperBound hi) : IsFinite (factorAt lo hi) := by
  unfold factorAt
  split
  · next h =>
    obtain ⟨l, u, rfl, rfl⟩ := isFinite_of_isBoxed hlo hhi h
    rw [Rescaling.halfWidth, finite_sub, two_eq, finite_div _ two_ne_zero]
    exact isFinite_finite _
  · rw [one_eq]
    exact isFinite_finite _

theorem Rescaling.isFinite_shiftAt [IsStrictOrderedRing K] {lo hi x : Extended K}
    (hlo : IsLowerBound lo) (hhi : IsUpperBound hi) (hx : IsFinite x) : IsFinite (shiftAt lo hi x) := by
  unfold shiftAt
  split
  · next h =>
    obtain ⟨l, u, rfl, rfl⟩ := isFinite_of_isBoxed hlo hhi h
    rw [Bounds.middle, finite_add, two_eq, finite_div _ two_ne_zero]
    exact isFinite_finite _
  · exact hx

/-- Every factor is a positive number, and every shift is a number. -/
structure Rescaling.IsProper (r : Rescaling (Extended K)) : Prop where
  factor : ∀ f ∈ r.factor, IsPositive f
  shift : ∀ s ∈ r.shift, IsFinite s

omit [FloorRing K] in
theorem Rescaling.IsProper.exists_entries {r : Rescaling (Extended K)} {m : Nat} (h : r.IsProper)
    (hfactor : m < r.factor.length) (hshift : m < r.shift.length) :
    ∃ f s : K, 0 < f ∧ r.factor[m] = finite f ∧ r.shift[m] = finite s := by
  obtain ⟨f, hpos, hf⟩ := h.factor r.factor[m] (List.getElem_mem _)
  obtain ⟨s, hs⟩ := h.shift r.shift[m] (List.getElem_mem _)
  exact ⟨f, s, hpos, hf, hs⟩

theorem Problem.IsProper.fitted [IsStrictOrderedRing K] {p : Problem (Extended K)} (hp : p.IsProper)
    (hleast : ∀ least, minimum? (Rescaling.fitted p.start p.bounds).factor = some least →
      ¬least < epsilon) : (Rescaling.fitted p.start p.bounds).IsProper := by
  constructor
  · -- the program refuses factors that are too small, so finite ones are positive
    refine isPositive_of_minimum (fun f hf => ?_) hleast
    obtain ⟨lo, hlo, hi, hhi, rfl⟩ := exists_of_mem_zipWith hf
    exact Rescaling.isFinite_factorAt (hp.lower lo hlo) (hp.upper hi hhi)
  · intro s hs
    obtain ⟨⟨lo, hi⟩, hpair, x, hx, rfl⟩ := exists_of_mem_zipWith hs
    obtain ⟨hlo, hhi⟩ := List.of_mem_zip hpair
    exact Rescaling.isFinite_shiftAt (hp.lower lo hlo) (hp.upper hi hhi) (hp.start x hx)

/-! ## Preparations -/

namespace Course

variable [Interchange (Extended K)] {search : NearestSearch (Extended K)} {invoker : Invoker}
  {i : Input (Extended K)} {e : Option Category} {j k : Journal (Extended K)}
  {r : Record (Extended K)} (c : Course search invoker i e j r k)

include c

theorem reduced_isProper (h : c.given.IsProper) : c.reduced.IsProper := by
  have hchecked : c.checked.problem.IsProper := by
    rw [c.checked_of.problem_eq]
    exact ⟨h.start, h.lower, h.upper⟩
  have hreduced := c.reduced_eq
  split at hreduced <;> rw [hreduced.2]
  · exact hchecked.reducedBy _
  · exact hchecked

theorem checked_hasFiniteRows (h : c.given.HasFiniteRows) : c.checked.problem.HasFiniteRows := by
  rw [c.checked_of.problem_eq]
  exact Problem.HasFiniteRows.withoutTrivialRows h

theorem reduced_hasFiniteRows (h : c.given.HasFiniteRows) : c.reduced.HasFiniteRows := by
  have hchecked := c.checked_hasFiniteRows h
  have hreduced := c.reduced_eq
  split at hreduced <;> rw [hreduced.2]
  · exact hchecked.reducedBy _
  · exact hchecked

theorem settled_isProper (hdim : search.KeepsDimension) (hsearch : search.FindsFinite)
    (h : c.given.IsProper) : c.settled.IsProper := by
  have hreduced := c.reduced_isProper h
  rcases settleStart_yields (Prep.yields_of_outcome c.settle_eq) with h | ⟨-, start, failure, h, hq⟩
  · rw [h]
    exact hreduced
  · have hstart := hreduced.feasibleStart c.reduced_fits hdim hsearch h
    rw [hq]
    exact { hreduced with start := hstart }

/-- A rescaling has positive factors where the settled problem is a proper one. -/
theorem rescaling_isProper_of_settled [IsStrictOrderedRing K]
    (hfits : c.settled.Fits r.refinedDimension) (hsettled : c.settled.IsProper)
    {s : Rescaling (Extended K)} (hs : r.rescaling = some s) : s.IsProper := by
  have hproblem := c.problem_eq hfits
  split at hproblem
  · obtain rfl := Option.some.inj (hs.symm.trans hproblem.1)
    exact hsettled.fitted hproblem.2.2.1
  · rw [hproblem.1] at hs
    cases hs

/-- The rescaling that a preparation ends with has positive factors. -/
theorem rescaling_isProper [IsStrictOrderedRing K] (hdim : search.KeepsDimension)
    (hsearch : search.FindsFinite) (h : c.given.IsProper) {s : Rescaling (Extended K)}
    (hs : r.rescaling = some s) : s.IsProper :=
  c.rescaling_isProper_of_settled (c.settled_fits hdim) (c.settled_isProper hdim hsearch h) hs

end Course
end Presolve
