import Presolve.Proofs.Constraint.Admitted
import Presolve.Proofs.Number.DoubleValues
import Presolve.Proofs.Number.Norms
import Presolve.Proofs.Preparation.Exact

/-!
# The nearest point of a box

Where only bounds matter, a feasible start is the nearest point between the bounds, entry by entry: an entry
that is moved goes to the bound that it exceeds. Under linear rows it is between the bounds whatever the
search for it has found (`Problem.feasibleStart_nearest`).

Whether the start counts as revised is judged by computed norms. A norm that is beyond the largest number
hides every move (`exists_unrevised_move`).
-/

namespace Presolve

open Scalar Extended ValuedScalar

/-! ## One entry -/

namespace Extended

variable {K : Type} [Field K] [LinearOrder K] [FloorRing K] {lo hi : Extended K} {s : K}

/-- A number below its bound is raised to it, and others stay. -/
theorem atLeast_cases (hlo : IsLowerBound lo) :
    lo ≤ finite s ∧ atLeast lo (finite s) = finite s ∨
      ∃ l, lo = finite l ∧ s < l ∧ atLeast lo (finite s) = finite l := by
  by_cases h : lo ≤ finite s
  · exact .inl ⟨h, atLeast_eq_self h⟩
  · rcases hlo with ⟨l, rfl⟩ | rfl
    · rw [finite_le, not_le] at h
      have hnot : ¬(finite l : Extended K) < finite s := by simpa using h.le
      refine .inr ⟨l, rfl, h, ?_⟩
      rw [OrderedScalar.atLeast_eq_ite ((finite_le s s).2 le_rfl), if_neg hnot]
    · exact absurd (bottom_le_finite s) h

theorem atMost_cases (hhi : IsUpperBound hi) :
    finite s ≤ hi ∧ atMost hi (finite s) = finite s ∨
      ∃ u, hi = finite u ∧ u < s ∧ atMost hi (finite s) = finite u := by
  by_cases h : finite s ≤ hi
  · exact .inl ⟨h, atMost_eq_self h⟩
  · rcases hhi with ⟨u, rfl⟩ | rfl
    · rw [finite_le, not_le] at h
      have hnot : ¬(finite s : Extended K) < finite u := by simpa using h.le
      refine .inr ⟨u, rfl, h, ?_⟩
      rw [OrderedScalar.atMost_eq_ite ((finite_le s s).2 le_rfl), if_neg hnot]
    · exact absurd (finite_le_top s) h

/-- A number goes to the nearest one between its bounds, and stays exactly if it is between them. -/
theorem clamp_nearest [IsStrictOrderedRing K] (hlo : IsLowerBound lo) (hhi : IsUpperBound hi)
    (hroom : lo ≤ hi) (s : K) :
    ∃ a, clamp lo hi (finite s) = finite a ∧ (a = s ↔ lo ≤ finite s ∧ finite s ≤ hi) ∧
      ∀ t, lo ≤ finite t → finite t ≤ hi → |a - s| ≤ |t - s| := by
  rcases atLeast_cases (s := s) hlo with ⟨hle, hraised⟩ | ⟨l, rfl, hlt, hraised⟩
  · rcases atMost_cases (s := s) hhi with ⟨hge, hlowered⟩ | ⟨u, rfl, hgt, hlowered⟩
    · refine ⟨s, by rw [clamp, hraised, hlowered], iff_of_true rfl ⟨hle, hge⟩, fun t _ _ => ?_⟩
      rw [sub_self, abs_zero]
      exact abs_nonneg _
    · refine ⟨u, by rw [clamp, hraised, hlowered], ?_, fun t _ ht => ?_⟩
      · exact iff_of_false hgt.ne fun h => hgt.not_ge ((finite_le s u).1 h.2)
      · have ht : t ≤ u := (finite_le t u).1 ht
        rw [abs_of_neg (sub_neg.2 hgt), abs_of_neg (sub_neg.2 (ht.trans_lt hgt))]
        exact neg_le_neg (sub_le_sub_right ht s)
  · refine ⟨l, by rw [clamp, hraised, atMost_eq_self hroom], ?_, fun t ht _ => ?_⟩
    · exact iff_of_false hlt.ne' fun h => hlt.not_ge ((finite_le l s).1 h.1)
    · have ht : l ≤ t := (finite_le l t).1 ht
      rw [abs_of_pos (sub_pos.2 hlt), abs_of_pos (sub_pos.2 (hlt.trans_le ht))]
      exact sub_le_sub_right ht s

end Extended

/-! ## Boxes -/

section

variable {α : Type} [Scalar α] [ValuedScalar α]

/-- Bounds of a variable that are infinite only where there are none and that leave room between them. -/
structure IsInterval (lo hi : α) : Prop where
  lower : IsLowerBound (value lo)
  upper : IsUpperBound (value hi)
  room : lo ≤ hi

/-- Bounds that leave room for every variable. -/
def Bounds.IsBox (b : Bounds α) : Prop := List.Forall₂ IsInterval b.lower b.upper

/-- Is a point with real entries between the bounds? -/
def Bounds.Encloses (b : Bounds α) (y : List ℝ) : Prop :=
  List.Forall₂ (fun lo t => value lo ≤ finite t) b.lower y ∧
    List.Forall₂ (fun t hi => finite t ≤ value hi) y b.upper

/-- How far the entries of two points are from each other. -/
def distances (x y : List ℝ) : List ℝ := List.zipWith (fun a b => |a - b|) x y

/-- A point between the bounds none of whose entries could be nearer to that of a given point, which
it is itself exactly if that one is between the bounds. -/
structure Bounds.IsNearest (b : Bounds α) (start x : List α) : Prop where
  contains : b.Contains x
  unmoved_iff : x.map value = start.map value ↔ b.Contains start
  nearest : ∃ s a : List ℝ, start.map value = s.map finite ∧ x.map value = a.map finite ∧
    ∀ y, b.Encloses y → List.Forall₂ (· ≤ ·) (distances a s) (distances y s)

theorem IsLowerBound.defined {lo : Extended ℝ} (h : IsLowerBound lo) : lo ≤ lo := by
  rcases h with ⟨a, rfl⟩ | rfl
  · exact (finite_le a a).2 le_rfl
  · rfl

theorem IsUpperBound.defined {hi : Extended ℝ} (h : IsUpperBound hi) : hi ≤ hi := by
  rcases h with ⟨a, rfl⟩ | rfl
  · exact (finite_le a a).2 le_rfl
  · rfl

theorem IsInterval.clamp_between {lo hi x : α} (h : IsInterval lo hi) (hx : x ≤ x) :
    lo ≤ clamp lo hi x ∧ clamp lo hi x ≤ hi :=
  OrderedScalar.clamp_between (value_le_iff.1 h.lower.defined) (value_le_iff.1 h.upper.defined) hx h.room

theorem IsInterval.clamp_nearest {lo hi x : α} {s : ℝ} (h : IsInterval lo hi) (hx : value x = finite s) :
    ∃ a, value (clamp lo hi x) = finite a ∧ (a = s ↔ lo ≤ x ∧ x ≤ hi) ∧
      ∀ t, value lo ≤ finite t → finite t ≤ value hi → |a - s| ≤ |t - s| := by
  obtain ⟨a, ha, hiff, hnearest⟩ := Extended.clamp_nearest h.lower h.upper (value_le_iff.2 h.room) s
  rw [← hx, ← value_clamp] at ha
  rw [← hx, value_le_iff, value_le_iff] at hiff
  exact ⟨a, ha, hiff, hnearest⟩

namespace Bounds

variable {b : Bounds α} {lower upper x start : List α}

/-- Bounds that leave room do not exclude each other. -/
theorem IsBox.not_infeasible (h : b.IsBox) : b.infeasible.any id = false := by
  obtain ⟨lower, upper⟩ := b
  change List.Forall₂ IsInterval lower upper at h
  show (List.zipWith (fun lo hi => decide (hi < lo)) lower upper).any id = false
  induction h with
  | nil => rfl
  | cons hinterval _ ih =>
    rw [List.zipWith_cons_cons, List.any_cons, ih, Bool.or_false]
    exact decide_eq_false fun hlt => (OrderedScalar.lt_iff.1 hlt).2 hinterval.room

theorem contains_clamped (h : List.Forall₂ IsInterval lower upper) (hlen : x.length = lower.length)
    (hx : ∀ a ∈ x, a ≤ a) :
    Contains ⟨lower, upper⟩ (List.zipWith atMost upper (List.zipWith atLeast lower x)) := by
  induction h generalizing x with
  | nil => exact ⟨.nil, .nil⟩
  | cons hinterval _ ih =>
    obtain ⟨a, x, rfl⟩ := List.exists_cons_of_length_eq_add_one hlen
    obtain ⟨hlower, hupper⟩ := ih (Nat.succ.inj hlen) fun a ha => hx a (List.mem_cons_of_mem _ ha)
    have hclamped := hinterval.clamp_between (hx a List.mem_cons_self)
    exact ⟨.cons hclamped.1 hlower, .cons hclamped.2 hupper⟩

/-- Entry by entry, the nearest point between bounds that leave room is the one that is moved there. -/
theorem exists_nearest_clamped (h : List.Forall₂ IsInterval lower upper)
    (hlen : start.length = lower.length) (hstart : ∀ a ∈ start, IsFinite (value a)) :
    ∃ s a : List ℝ, start.map value = s.map finite ∧
      (List.zipWith atMost upper (List.zipWith atLeast lower start)).map value = a.map finite ∧
      (a = s ↔ Contains ⟨lower, upper⟩ start) ∧
      ∀ y, Encloses ⟨lower, upper⟩ y → List.Forall₂ (· ≤ ·) (distances a s) (distances y s) := by
  induction h generalizing start with
  | nil =>
    obtain rfl := List.length_eq_zero_iff.1 hlen
    refine ⟨[], [], rfl, rfl, iff_of_true rfl ⟨.nil, .nil⟩, fun y hy => ?_⟩
    cases hy.1
    exact .nil
  | @cons lo hi lower upper hinterval _ ih =>
    obtain ⟨x, start, rfl⟩ := List.exists_cons_of_length_eq_add_one hlen
    obtain ⟨s, hs⟩ := hstart x List.mem_cons_self
    obtain ⟨a, ha, hiff, hnearest⟩ := hinterval.clamp_nearest hs
    obtain ⟨ss, as, hstarts, hclamped, hsame, hrest⟩ :=
      ih (Nat.succ.inj hlen) fun a ha => hstart a (List.mem_cons_of_mem _ ha)
    refine ⟨s :: ss, a :: as, ?_, ?_, ?_, ?_⟩
    · rw [List.map_cons, List.map_cons, hs, hstarts]
    · rw [List.zipWith_cons_cons, List.zipWith_cons_cons, List.map_cons, List.map_cons, hclamped]
      exact congrArg (· :: as.map finite) ha
    · simp only [Contains, List.cons.injEq, List.forall₂_cons, hiff, hsame]
      exact and_and_and_comm
    · rintro _ ⟨_ | ⟨hlo, hlower⟩, _ | ⟨hhi, hupper⟩⟩
      exact .cons (hnearest _ hlo hhi) (hrest _ ⟨hlower, hupper⟩)

variable {n : Nat}

/-- A defined point that is moved between bounds which leave room is between them. -/
theorem IsBox.contains_clip (h : b.IsBox) (hlen : x.length = b.lower.length) (hx : ∀ a ∈ x, a ≤ a) :
    ∃ y, b.clip x = .ok y ∧ b.Contains y :=
  ⟨_, clip_eq hlen.symm (h.length_eq.symm.trans hlen.symm) rfl, contains_clamped h hlen hx⟩

/-- Moved between bounds that leave room, a finite point is the nearest one there. -/
theorem IsBox.isNearest_clip (h : b.IsBox) (hlen : start.length = b.lower.length)
    (hstart : ∀ a ∈ start, IsFinite (value a)) : ∃ x, b.clip start = .ok x ∧ b.IsNearest start x := by
  have hdefined : ∀ a ∈ start, a ≤ a := fun a ha => defined_of_isFinite (hstart a ha)
  obtain ⟨s, a, hs, ha, hsame, hnearest⟩ := exists_nearest_clamped h hlen hstart
  refine ⟨_, clip_eq hlen.symm (h.length_eq.symm.trans hlen.symm) rfl, contains_clamped h hlen hdefined,
    ?_, s, a, hs, ha, hnearest⟩
  have hinjective : Function.Injective (List.map (finite : ℝ → Extended ℝ)) :=
    List.map_injective_iff.2 fun _ _ => finite.inj
  rw [hs, ha, hinjective.eq_iff]
  exact hsame

end Bounds

/-! ## Feasible starts -/

variable {search : NearestSearch α} {p : Problem α} {n : Nat}

/-- What a search found is a defined point of `n` variables, if it is a point at all. -/
def Nearest.IsDefined (n : Nat) : Nearest α → Prop
  | .point x => x.length = n ∧ ∀ a ∈ x, a ≤ a
  | .failure _ => True

/-- Under linear rows, what a search found is moved between the bounds, and the start is if it failed. -/
theorem Problem.linearStart_contains (hp : p.Fits n) (hbox : p.bounds.IsBox)
    (hstart : ∀ x ∈ p.start, x ≤ x) {found : Nearest α} (hfound : search p.nearestQuery = .ok found)
    (hdefined : found.IsDefined n) :
    ∃ x failure, p.linearStart search = .ok (x, failure) ∧ p.bounds.Contains x := by
  obtain ⟨clipped, hclipped, hcontains⟩ :=
    hbox.contains_clip (hp.length_start.trans hp.length_lower.symm) hstart
  cases found with
  | failure reason =>
    refine ⟨clipped, some reason, ?_, hcontains⟩
    simp only [linearStart, hclipped, hbox.not_infeasible, hfound]
    rfl
  | point x =>
    obtain ⟨hlen, hx⟩ := hdefined
    obtain ⟨y, hy, hinside⟩ := hbox.contains_clip (hlen.trans hp.length_lower.symm) hx
    refine ⟨y, none, ?_, hinside⟩
    simp only [linearStart, hclipped, hbox.not_infeasible, hfound]
    show (do return (← p.bounds.clip x, none)) = _
    rw [hy]
    rfl

variable [SteadyScalar α] [NormedScalar α]

omit [ValuedScalar α] [SteadyScalar α] in
theorem Problem.isRevised_eq_decide (hp : p.Fits n) {x : List α} (hx : x.length = n) : p.isRevised x =
    .ok (decide (epsilon * larger 1 (NormedScalar.norm p.start)
      < NormedScalar.norm (List.zipWith (· - ·) p.start x))) := by
  rw [isRevised, entrywise_of_length_eq _ (hp.length_start.trans hx.symm)]
  refine congrArg Except.ok (Bool.eq_iff_iff.2 ?_)
  rw [decide_eq_true_iff]
  exact NormedScalar.farther_iff

/-- A feasible start is between bounds that leave room, whatever a search has found. Without rows it is the
nearest point there and comes to rest; it is revised if the computed norms say so, so never if that of the
start is infinite. -/
theorem Problem.feasibleStart_nearest (search : NearestSearch α) (hp : p.Fits n) (hbox : p.bounds.IsBox)
    (hstart : ∀ x ∈ p.start, IsFinite (value x)) :
    (∃ x, p.feasibleStart search .boundConstrained = .ok (x, none) ∧ p.bounds.IsNearest p.start x ∧
      { p with start := x }.feasibleStart search .boundConstrained = .ok (x, none) ∧
      { p with start := x }.isRevised x = .ok false ∧
      p.isRevised x = .ok (decide (epsilon * larger 1 (NormedScalar.norm p.start)
        < NormedScalar.norm (List.zipWith (· - ·) p.start x))) ∧
      (infinity ≤ NormedScalar.norm p.start → p.isRevised x = .ok false)) ∧
    (∀ found, search p.nearestQuery = .ok found → found.IsDefined n → ∃ x failure,
      p.feasibleStart search .linearlyConstrained = .ok (x, failure) ∧ p.bounds.Contains x) ∧
    ∀ kind, kind = .unconstrained ∨ kind = .nonlinearlyConstrained →
      p.feasibleStart search kind = .ok (p.start, none) ∧ p.isRevised p.start = .ok false := by
  refine ⟨?_, fun found hfound hdefined => ?_, ?_⟩
  · obtain ⟨x, hx, hnearest⟩ := hbox.isNearest_clip (hp.length_start.trans hp.length_lower.symm) hstart
    have hlen : x.length = n := hp.length_clip hp.length_start hx
    have hagain : p.bounds.clip x = .ok x :=
      Bounds.clip_clip hp.length_lower hp.length_upper hp.length_start hx
    have hrevised := p.isRevised_eq_decide hp hlen
    refine ⟨x, by rw [feasibleStart, hx]; rfl, hnearest, by rw [feasibleStart, hagain]; rfl,
      isRevised_start _, hrevised, fun hinfinite => ?_⟩
    rw [isRevised, entrywise_of_length_eq _ (hp.length_start.trans hlen.symm)]
    exact congrArg Except.ok (NormedScalar.not_farther_of_infinite hinfinite)
  · exact linearStart_contains hp hbox (fun a ha => defined_of_isFinite (hstart a ha)) hfound hdefined
  · rintro kind (rfl | rfl) <;> exact ⟨rfl, p.isRevised_start⟩

end

/-! ## Doubles -/

/-- Three doubles, one below its bounds, one above its only bound and one between its bounds. -/
def boxedProblem : Problem Float where
  objective := none
  start := [ofFraction (-1) 1, ofFraction 3 1, ofFraction 1 1]
  inequalities := .empty
  equalities := .empty
  bounds := ⟨[ofFraction 0 1, -infinity, ofFraction 0 1], [ofFraction 1 1, ofFraction 2 1, infinity]⟩
  constraints := none

/-- Two of the three doubles are moved to their bounds, and a search that stays where it is ends there
as well. -/
theorem feasibleStart_nearest_boxedProblem : ∃ x y failure,
    boxedProblem.feasibleStart .stay .boundConstrained = .ok (x, none) ∧
      x = [ofFraction 0 1, ofFraction 2 1, ofFraction 1 1] ∧
      boxedProblem.bounds.IsNearest boxedProblem.start x ∧ boxedProblem.isRevised x = .ok true ∧
      boxedProblem.feasibleStart .stay .linearlyConstrained = .ok (y, failure) ∧
      boxedProblem.bounds.Contains y := by
  have hfits : boxedProblem.Fits 3 :=
    ⟨rfl, rfl, rfl, ⟨rfl, by simp [boxedProblem, LinearSystem.empty]⟩,
      ⟨rfl, by simp [boxedProblem, LinearSystem.empty]⟩⟩
  have hzero : IsFinite (value (ofFraction 0 1 : Float)) := isFinite_ofFraction (by decide +kernel)
  have hone : IsFinite (value (ofFraction 1 1 : Float)) := isFinite_ofFraction (by decide +kernel)
  have hbox : boxedProblem.bounds.IsBox := by
    have hfirst : IsInterval (ofFraction 0 1 : Float) (ofFraction 1 1) :=
      ⟨.inl hzero, .inl hone, by decide +kernel⟩
    have hsecond : IsInterval (-infinity : Float) (ofFraction 2 1) :=
      ⟨.inr value_neg_infinity, .inl (isFinite_ofFraction (by decide +kernel)), by decide +kernel⟩
    have hthird : IsInterval (ofFraction 0 1 : Float) infinity :=
      ⟨.inl hzero, .inr value_infinity, by decide +kernel⟩
    exact .cons hfirst (.cons hsecond (.cons hthird .nil))
  have hstart : ∀ x ∈ boxedProblem.start, IsFinite (value x) := by
    simp only [boxedProblem, List.forall_mem_cons]
    exact ⟨isFinite_ofFraction (by decide +kernel), isFinite_ofFraction (by decide +kernel), hone, by simp⟩
  have hrun : boxedProblem.feasibleStart .stay .boundConstrained
      = .ok ([ofFraction 0 1, ofFraction 2 1, ofFraction 1 1], none) := by decide +kernel
  have hrevised : boxedProblem.isRevised [ofFraction 0 1, ofFraction 2 1, ofFraction 1 1] = .ok true := by
    decide +kernel
  obtain ⟨⟨x, hx, hnearest, -⟩, hrows, -⟩ := Problem.feasibleStart_nearest .stay hfits hbox hstart
  obtain rfl : x = _ := (Prod.mk.inj (Except.ok.inj (hx.symm.trans hrun))).1
  obtain ⟨y, failure, hy, hcontains⟩ := hrows (.point boxedProblem.start) rfl
    ⟨rfl, fun a ha => defined_of_isFinite (hstart a ha)⟩
  exact ⟨_, y, failure, hx, rfl, hnearest, hrevised, hy, hcontains⟩

/-- A variable that has no bound but zero above it, and starts very far from there. -/
def remoteProblem : Problem Float where
  objective := none
  start := [ofFraction (10 ^ 200) 1]
  inequalities := .empty
  equalities := .empty
  bounds := ⟨[-infinity], [ofFraction 0 1]⟩
  constraints := none

/-- The square of the start is beyond the largest double, so its move, which is as long as the start, does
not count as one. -/
theorem exists_unrevised_move : remoteProblem.Fits 1 ∧ remoteProblem.bounds.IsBox ∧
    ∃ s : ℝ, remoteProblem.start.map value = [finite s] ∧
      ∃ x, remoteProblem.feasibleStart .stay .boundConstrained = .ok (x, none) ∧
        x.map value = [finite 0] ∧ tiny * max 1 |s| < |s - 0| ∧ remoteProblem.isRevised x = .ok false := by
  have hfits : remoteProblem.Fits 1 :=
    ⟨rfl, rfl, rfl, ⟨rfl, by simp [remoteProblem, LinearSystem.empty]⟩,
      ⟨rfl, by simp [remoteProblem, LinearSystem.empty]⟩⟩
  have hbox : remoteProblem.bounds.IsBox := by
    have hinterval : IsInterval (-infinity : Float) (ofFraction 0 1) :=
      ⟨.inr value_neg_infinity, .inl (isFinite_ofFraction (by decide +kernel)), by decide +kernel⟩
    exact .cons hinterval .nil
  have hrun : remoteProblem.feasibleStart .stay .boundConstrained = .ok ([ofFraction 0 1], none) := by
    decide +kernel
  have hrevised : remoteProblem.isRevised [ofFraction 0 1] = .ok false := by decide +kernel
  -- no double is nearer to the start than its own, so it is at least as large as the barrier value
  obtain ⟨s, hs, hnearest⟩ := nearest_ofInt (α := Float) (i := 10 ^ 200) (by decide +kernel)
  have hlarge : 1 < s := by
    have hnear : |s - ((10 ^ 200 : Int) : ℝ)| ≤ |2 ^ 100 - ((10 ^ 200 : Int) : ℝ)| :=
      hnearest huge _ value_huge
    have hbelow : (2 : ℝ) ^ 100 ≤ ((10 ^ 200 : Int) : ℝ) := by norm_num
    generalize ((10 ^ 200 : Int) : ℝ) = N at hnear hbelow
    rw [abs_of_nonpos (sub_nonpos.2 hbelow)] at hnear
    have hpower : (1 : ℝ) < 2 ^ 100 := by norm_num
    have hleft := neg_abs_le (s - N)
    linarith
  have hmove : tiny * max 1 |s| < |s - 0| := by
    have hpos : 0 < s := one_pos.trans hlarge
    have htiny : (tiny : ℝ) < 1 := by
      unfold tiny
      norm_num
    rw [sub_zero, abs_of_pos hpos, max_eq_right hlarge.le]
    exact mul_lt_of_lt_one_left hpos htiny
  have hvalue : remoteProblem.start.map value = [finite s] := congrArg (· :: []) hs
  exact ⟨hfits, hbox, s, hvalue, _, hrun, congrArg (· :: []) value_zero, hmove, hrevised⟩

end Presolve
