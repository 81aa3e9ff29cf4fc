import Presolve.Proofs.Constraint.Degenerate
import Presolve.Proofs.Preparation.Exact

/-!
# Restating a problem

Every stage of a preparation states the problem anew in variables of its own: it says which point of the
old variables a point of the new ones stands for, and what is asked of the one is what was asked of the
other. `Problem.Restates` is that relation. It holds of each stage and is passed on from stage to stage,
so it holds of the problem that a solver gets and the one that the caller stated.

Only the constraints need exact numbers. The functions of the new problem are those of the old one at
the point that is meant, whatever the numbers are.
-/

namespace Presolve

open Scalar Extended

variable {K : Type} [Field K] [LinearOrder K] [FloorRing K]

/-- The problem `q` in `n` variables restates the problem `p` in `m` variables, where `restore y` is the
point that `y` stands for. -/
structure Problem.Restates (q p : Problem (Extended K)) (n m : Nat)
    (restore : List (Extended K) → List (Extended K)) : Prop where
  length : ∀ y, y.length = n → (restore y).length = m
  finite : ∀ y, y.length = n → (∀ a ∈ y, IsFinite a) → ∀ a ∈ restore y, IsFinite a
  objective : ∀ y, y.length = n → q.objective.map (· y) = p.objective.map (· (restore y))
  constraints : ∀ y, y.length = n → q.constraints.map (· y) = p.constraints.map (· (restore y))
  admits : ∀ y, y.length = n → (∀ a ∈ y, IsFinite a) → (q.Admits y ↔ p.Admits (restore y))

namespace Problem

/-- A problem that was restated may be restated again. -/
theorem Restates.trans {s q p : Problem (Extended K)} {l n m : Nat}
    {f g : List (Extended K) → List (Extended K)} (h : s.Restates q l n g) (h' : q.Restates p n m f) :
    s.Restates p l m (f ∘ g) where
  length y hy := h'.length (g y) (h.length y hy)
  finite y hy hfinite := h'.finite (g y) (h.length y hy) (h.finite y hy hfinite)
  objective y hy := (h.objective y hy).trans (h'.objective (g y) (h.length y hy))
  constraints y hy := (h.constraints y hy).trans (h'.constraints (g y) (h.length y hy))
  admits y hy hfinite :=
    (h.admits y hy hfinite).trans (h'.admits (g y) (h.length y hy) (h.finite y hy hfinite))

/-- Another start states the same problem. -/
theorem restates_start (p : Problem (Extended K)) (n : Nat) (start : List (Extended K)) :
    ({ p with start } : Problem (Extended K)).Restates p n n id where
  length _ hy := hy
  finite _ _ h := h
  objective _ _ := rfl
  constraints _ _ := rfl
  admits _ _ _ := admits_congr Iff.rfl Iff.rfl Iff.rfl

/-- Leaving out trivial rows states the same problem. -/
theorem restates_withoutTrivialRows [IsStrictOrderedRing K] {p : Problem (Extended K)} {n : Nat}
    (hp : p.Fits n) (hineq : p.inequalities.HasFiniteRows) (heq : p.equalities.HasFiniteRows) :
    p.withoutTrivialRows.Restates p n n id where
  length _ hy := hy
  finite _ _ h := h
  objective _ _ := rfl
  constraints _ _ := rfl
  admits _ hy hfinite := admits_congr Iff.rfl
    (holds_ofSystem hp.inequalities.length_rhs
      (fun row hrow => hy.trans (hp.inequalities.length_row row hrow).symm) hineq hfinite)
    (holds_ofSystem hp.equalities.length_rhs
      (fun row hrow => hy.trans (hp.equalities.length_row row hrow).symm) heq hfinite)

end Problem

/-! ## Systems -/

/-- A system whose rows were changed and whose right-hand sides were moved holds where the old one does,
if each row does. -/
theorem LinearSystem.holds_moved {name : SystemName} {s : LinearSystem (Extended K)}
    {f : List (Extended K) → List (Extended K)} {g : List (Extended K) → Extended K}
    {x y : List (Extended K)} (hlen : s.rhs.length = s.rows.length)
    (h : ∀ row ∈ s.rows, ∀ b, name.Relates (dot (f row) y) (b - g row) ↔ name.Relates (dot row x) b) :
    LinearSystem.Holds name ⟨s.rows.map f, List.zipWith (· - ·) s.rhs (s.rows.map g)⟩ y ↔
      s.Holds name x := by
  obtain ⟨rows, rhs⟩ := s
  simp only [Holds] at hlen h ⊢
  induction rows generalizing rhs with
  | nil =>
    have hrhs : rhs = [] := by simpa using hlen
    simp [hrhs]
  | cons row rows ih =>
    -- the first row is changed on its own, and the others are a system of their own
    obtain ⟨b, rhs, rfl⟩ := List.exists_cons_of_length_eq_add_one hlen
    have ih := ih rhs (by simpa using hlen) fun row' hrow' => h row' (List.mem_cons_of_mem _ hrow')
    simp only [List.map_cons, List.zipWith_cons_cons, List.forall₂_cons]
    exact and_congr (h row List.mem_cons_self b) ih

section

variable [IsStrictOrderedRing K]

theorem Elimination.holds_reducedSystem {e : Elimination (Extended K)} {n : Nat} (he : e.Fits n)
    (hvalues : ∀ a ∈ e.fixedValues, IsFinite a) {name : SystemName} {s : LinearSystem (Extended K)}
    (hs : s.Fits n) (hrows : s.HasFiniteRows) {y : List (Extended K)} (hy : y.length = e.dimension)
    (hfinite : ∀ a ∈ y, IsFinite a) :
    (e.reducedSystem s).Holds name y ↔ s.Holds name (Mask.merge e.free y e.fixedValues) := by
  apply LinearSystem.holds_moved hs.length_rhs
  -- over numbers of the field a product falls apart into the free and the fixed part
  intro row hrow b
  obtain ⟨v, hv⟩ := exists_map_finite hvalues
  obtain ⟨y, rfl⟩ := exists_map_finite hfinite
  obtain ⟨a, rfl⟩ := exists_map_finite (hrows row hrow)
  have hlen : e.free.length = a.length := by
    rw [he.1, ← hs.length_row _ hrow, List.length_map]
  have hvlen : v.length = Mask.count (Mask.others e.free) := by
    have h := he.2
    rwa [hv, List.length_map] at h
  have hylen : y.length = Mask.count e.free := by rwa [List.length_map] at hy
  rw [hv, Mask.merge_map, Mask.select_map, Mask.select_map, dot_map_finite, dot_map_finite,
    dot_map_finite, inner_merge hlen hylen hvlen]
  exact relates_sub_iff name _ _ b

theorem Rescaling.holds_rescaledSystem {r : Rescaling (Extended K)} {n : Nat} (hr : r.Fits n)
    (hproper : r.IsProper) {name : SystemName} {s : LinearSystem (Extended K)} (hs : s.Fits n)
    (hrows : s.HasFiniteRows) {y : List (Extended K)} (hy : y.length = n)
    (hfinite : ∀ a ∈ y, IsFinite a) :
    (r.rescaledSystem s).Holds name y ↔
      s.Holds name (List.zipWith (· + ·) (List.zipWith (· * ·) r.factor y) r.shift) := by
  apply LinearSystem.holds_moved hs.length_rhs
  -- over numbers of the field a product with a shifted point is that with the point and the shift
  intro row hrow b
  obtain ⟨f, hf⟩ := exists_map_finite fun a ha => (hproper.factor a ha).isFinite
  obtain ⟨t, ht⟩ := exists_map_finite hproper.shift
  obtain ⟨y, rfl⟩ := exists_map_finite hfinite
  obtain ⟨a, rfl⟩ := exists_map_finite (hrows row hrow)
  have hflen : f.length = n := by rw [← hr.1, hf, List.length_map]
  have htlen : t.length = n := by rw [← hr.2, ht, List.length_map]
  have hylen : y.length = n := by rwa [List.length_map] at hy
  have halen : a.length = n := by rw [← hs.length_row _ hrow, List.length_map]
  rw [hf, ht, zipWith_mul_map, zipWith_mul_map, zipWith_add_map, dot_map_finite, dot_map_finite,
    dot_map_finite, inner_affine halen hflen hylen htlen]
  exact relates_sub_iff name _ _ b

/-! ## Elimination -/

/-- The values of an elimination are numbers between the bounds of their variables. -/
structure Elimination.IsProper (e : Elimination (Extended K)) (b : Bounds (Extended K)) : Prop where
  finite : ∀ a ∈ e.fixedValues, IsFinite a
  lower : List.Forall₂ (· ≤ ·) (Mask.select e.fixed b.lower) e.fixedValues
  upper : List.Forall₂ (· ≤ ·) e.fixedValues (Mask.select e.fixed b.upper)

omit [IsStrictOrderedRing K] in
theorem Elimination.contains_iff {e : Elimination (Extended K)} {b : Bounds (Extended K)} {n : Nat}
    (he : e.Fits n) (hproper : e.IsProper b) (hl : b.lower.length = n) (hu : b.upper.length = n)
    {y : List (Extended K)} (hy : y.length = e.dimension) :
    (⟨Mask.select e.free b.lower, Mask.select e.free b.upper⟩ : Bounds (Extended K)).Contains y ↔
      b.Contains (Mask.merge e.free y e.fixedValues) := by
  have hlen := (he.length_expand hy).symm
  have hfree := Mask.select_merge hy he.2
  have hfixed := Mask.select_others_merge hy he.2
  rw [Bounds.Contains, Bounds.Contains,
    Mask.forall₂_iff_select (m := e.free) (he.1.trans hl.symm) (he.1.trans hlen),
    Mask.forall₂_iff_select (m := e.free) (he.1.trans hlen) (he.1.trans hu.symm), hfree, hfixed]
  exact and_congr (and_iff_left hproper.lower).symm (and_iff_left hproper.upper).symm

/-- Elimination states the same problem, if the values of the fixed variables are between their bounds. -/
theorem Problem.restates_reducedBy {p : Problem (Extended K)} {e : Elimination (Extended K)} {n : Nat}
    (hp : p.Fits n) (he : e.Fits n) (hproper : e.IsProper p.bounds) (hobjective : p.objective.isSome)
    (hineq : p.inequalities.HasFiniteRows) (heq : p.equalities.HasFiniteRows) :
    (p.reducedBy e).Restates p e.dimension n fun y => Mask.merge e.free y e.fixedValues where
  length y hy := he.length_expand hy
  finite y _ hfinite a ha := (Mask.mem_of_mem_merge ha).elim (hfinite a) (hproper.finite a)
  objective y hy := by
    obtain ⟨f, hf⟩ := Option.isSome_iff_exists.1 hobjective
    simp only [reducedBy, hf, Option.map_some, Elimination.onFree, he.expand_eq hy]
    rfl
  constraints y hy := by
    simp only [reducedBy, Option.map_map, Function.comp_def, Elimination.onFree, he.expand_eq hy]
    rfl
  admits _ hy hfinite := admits_congr
    (Elimination.contains_iff he hproper hp.length_lower hp.length_upper hy)
    (Elimination.holds_reducedSystem he hproper.finite hp.inequalities hineq hy hfinite)
    (Elimination.holds_reducedSystem he hproper.finite hp.equalities heq hy hfinite)

/-! ## Rescaling -/

theorem Rescaling.contains_iff {r : Rescaling (Extended K)} {b : Bounds (Extended K)} {n : Nat}
    (hr : r.Fits n) (hproper : r.IsProper) (hl : b.lower.length = n) (hu : b.upper.length = n)
    {y : List (Extended K)} (hy : y.length = n) (hfinite : ∀ a ∈ y, IsFinite a) :
    (⟨List.zipWith (· / ·) (List.zipWith (· - ·) b.lower r.shift) r.factor,
      List.zipWith (· / ·) (List.zipWith (· - ·) b.upper r.shift) r.factor⟩ :
        Bounds (Extended K)).Contains y ↔
      b.Contains (List.zipWith (· + ·) (List.zipWith (· * ·) r.factor y) r.shift) := by
  have hx := hr.length_toUnscaled hy
  have hlower := hr.length_toCanonical hl
  have hupper := hr.length_toCanonical hu
  obtain ⟨hf, hs⟩ := hr
  -- both sides of a bound are compared at one place, where factor, shift and point are numbers
  have hat (m : Nat) (hm : m < n) : ∃ f s c : K, 0 < f ∧ r.factor[m] = finite f ∧
      r.shift[m] = finite s ∧ y[m] = finite c := by
    obtain ⟨f, s, hpos, hf, hs⟩ := hproper.exists_entries (hm.trans_eq hf.symm) (hm.trans_eq hs.symm)
    obtain ⟨c, hc⟩ := hfinite y[m] (List.getElem_mem _)
    exact ⟨f, s, c, hpos, hf, hs, hc⟩
  apply and_congr
  · apply forall₂_congr_getElem hlower hy hl hx
    intro m hm
    obtain ⟨f, s, c, hpos, hf, hs, hc⟩ := hat m hm
    simp only [List.getElem_zipWith, hf, hs, hc]
    exact div_sub_le_iff s hpos _ c
  · apply forall₂_congr_getElem hy hupper hx hu
    intro m hm
    obtain ⟨f, s, c, hpos, hf, hs, hc⟩ := hat m hm
    simp only [List.getElem_zipWith, hf, hs, hc]
    exact le_div_sub_iff s hpos _ c

/-- A change of variables with positive factors states the same problem. -/
theorem Problem.restates_rescaledBy {p : Problem (Extended K)} {r : Rescaling (Extended K)} {n : Nat}
    (hp : p.Fits n) (hr : r.Fits n) (hproper : r.IsProper) (hobjective : p.objective.isSome)
    (hineq : p.inequalities.HasFiniteRows) (heq : p.equalities.HasFiniteRows) :
    (p.rescaledBy r).Restates p n n
      fun y => List.zipWith (· + ·) (List.zipWith (· * ·) r.factor y) r.shift where
  length y hy := hr.length_toUnscaled hy
  finite y hy hfinite a ha := by
    obtain ⟨b, hb, s, hs, rfl⟩ := exists_of_mem_zipWith ha
    obtain ⟨f, hf, c, hc, rfl⟩ := exists_of_mem_zipWith hb
    obtain ⟨f, -, rfl⟩ := hproper.factor f hf
    obtain ⟨s, rfl⟩ := hproper.shift s hs
    obtain ⟨c, rfl⟩ := hfinite c hc
    exact isFinite_finite _
  objective y hy := by
    obtain ⟨f, hf⟩ := Option.isSome_iff_exists.1 hobjective
    simp only [rescaledBy, hf, Option.map_some, Rescaling.onCanonical, hr.toUnscaled_eq hy]
    rfl
  constraints y hy := by
    simp only [rescaledBy, Option.map_map, Function.comp_def, Rescaling.onCanonical,
      hr.toUnscaled_eq hy]
    rfl
  admits _ hy hfinite := admits_congr
    (Rescaling.contains_iff hr hproper hp.length_lower hp.length_upper hy hfinite)
    (Rescaling.holds_rescaledSystem hr hproper hp.inequalities hineq hy hfinite)
    (Rescaling.holds_rescaledSystem hr hproper hp.equalities heq hy hfinite)

end

/-! ## Values of fixed variables -/

/-- Points half-way between bounds are between them, if each one is. -/
theorem Bounds.between_of_middles {lower upper : List (Extended K)}
    (h : List.Forall₂ (fun lo hi => ∃ m : K, Bounds.middle lo hi = finite m ∧ lo ≤ finite m ∧
      finite m ≤ hi) lower upper) :
    (∀ a ∈ List.zipWith Bounds.middle lower upper, IsFinite a) ∧
      List.Forall₂ (· ≤ ·) lower (List.zipWith Bounds.middle lower upper) ∧
      List.Forall₂ (· ≤ ·) (List.zipWith Bounds.middle lower upper) upper := by
  induction h with
  | nil => exact ⟨by simp, .nil, .nil⟩
  | cons hmiddle _ ih =>
    obtain ⟨m, hm, hlo, hhi⟩ := hmiddle
    rw [List.zipWith_cons_cons, hm]
    exact ⟨List.forall_mem_cons.2 ⟨isFinite_finite m, ih.1⟩, .cons hlo ih.2.1, .cons hhi ih.2.2⟩

/-- Where bounds fix variables and exclude none, the values of the fixed ones are between them. -/
theorem Bounds.elimination_isProper [IsStrictOrderedRing K] {b : Bounds (Extended K)}
    (hlen : b.lower.length = b.upper.length) (hfeasible : b.infeasible.any id = false) :
    (b.elimination b.fixed).IsProper b := by
  have hall : List.Forall₂ (fun lo hi => Bounds.fixes lo hi = true → ∃ m : K,
      Bounds.middle lo hi = finite m ∧ lo ≤ finite m ∧ finite m ≤ hi) b.lower b.upper := by
    rw [List.forall₂_iff_get]
    refine ⟨hlen, ?_⟩
    intro m hl hu hfixes
    exact middle_of_fixes hfixes (not_upper_lt_lower hfeasible hl hu)
  -- the marked places are those of fixed variables, so all of them have such a point
  have hmiddles := List.Forall₂.mp (fun _ _ h hfixes => h hfixes) (Mask.forall₂_select b.fixed hall)
    (Mask.forall₂_select_zipWith Bounds.fixes b.lower b.upper)
  obtain ⟨hfinite, hlo, hhi⟩ := between_of_middles hmiddles
  have hfixed : (b.elimination b.fixed).fixed = b.fixed := Mask.others_others _
  refine ⟨hfinite, ?_, ?_⟩
  · rw [hfixed]
    exact hlo
  · rw [hfixed]
    exact hhi

/-! ## Preparations -/

namespace Course

variable [Interchange (Extended K)] {search : NearestSearch (Extended K)} {invoker : Invoker}
  {i : Input (Extended K)} {e : Option Category} {j k : Journal (Extended K)}
  {r : Record (Extended K)} (c : Course search invoker i e j r k)

include c

/-- The elimination of a preparation puts its variables between their bounds. -/
theorem elimination_isProper [IsStrictOrderedRing K] (heliminates : c.checked.facts.eliminates = true) :
    (c.checked.problem.bounds.elimination c.checked.facts.fixed).IsProper c.checked.problem.bounds := by
  obtain ⟨hfixed, hinfeasible, -⟩ := Facts.ofConstraints_eq_ok c.checked_of.facts_eq
  have hbounds : c.checked.problem.bounds = c.given.bounds := by
    rw [c.checked_of.problem_eq]
    rfl
  rw [hfixed, hbounds]
  apply Bounds.elimination_isProper (c.given_fits.length_lower.trans c.given_fits.length_upper.symm)
  rw [← hinfeasible]
  simp only [Facts.eliminates, Facts.isDegenerate, Facts.infeasible, Bool.and_eq_true,
    Bool.not_eq_true', Bool.or_eq_false_iff] at heliminates
  exact heliminates.2.2.2

/-- Only trivial rows are left out before elimination. -/
theorem checked_restates [IsStrictOrderedRing K] (hrows : c.given.HasFiniteRows) :
    c.checked.problem.Restates (c.given.guarded invoker.name) r.rawDimension r.rawDimension id := by
  rw [c.checked_of.problem_eq, c.rawDimension_eq_dimension]
  exact Problem.restates_withoutTrivialRows c.given_fits.guarded hrows.1 hrows.2

/-- The reduced problem restates the checked one, whether variables were eliminated or not. -/
theorem reduced_restates [IsStrictOrderedRing K] (hrows : c.given.HasFiniteRows) :
    c.reduced.Restates c.checked.problem r.refinedDimension r.rawDimension r.expanded := by
  have hreduced := c.reduced_eq
  have hchecked := c.checked_hasFiniteRows hrows
  split at hreduced
  · next heliminates =>
    have hexpanded : r.expanded = fun x =>
        Mask.merge (c.checked.problem.bounds.elimination c.checked.facts.fixed).free x
          (c.checked.problem.bounds.elimination c.checked.facts.fixed).fixedValues := by
      funext x
      rw [Record.expanded, hreduced.1]
    have hfits := Problem.reducedBy_fits c.checked_fits c.elimination_fits
    rw [hexpanded, c.refinedDimension_eq, c.rawDimension_eq_dimension, hreduced.2, Problem.dimension,
      hfits.length_start]
    exact Problem.restates_reducedBy c.checked_fits c.elimination_fits
      (c.elimination_isProper heliminates) c.checked_objective hchecked.1 hchecked.2
  · have hexpanded : r.expanded = id := by
      funext x
      rw [Record.expanded, hreduced.1]
      rfl
    rw [hexpanded, c.refinedDimension_eq, c.rawDimension_eq, hreduced.2]
    exact Problem.restates_start c.checked.problem _ c.checked.problem.start

/-- The canonical problem restates the settled one, whether variables were rescaled or not. -/
theorem problem_restates [IsStrictOrderedRing K] (hdim : search.KeepsDimension)
    (hfinite : search.FindsFinite) (h : c.given.IsProper) (hrows : c.given.HasFiniteRows) :
    r.problem.Restates c.settled r.refinedDimension r.refinedDimension r.unscaled := by
  have hproblem := c.problem_eq (c.settled_fits hdim)
  split at hproblem
  · have hunscaled : r.unscaled = fun y => List.zipWith (· + ·)
        (List.zipWith (· * ·) (Rescaling.fitted c.settled.start c.settled.bounds).factor y)
        (Rescaling.fitted c.settled.start c.settled.bounds).shift := by
      funext y
      rw [Record.unscaled, hproblem.1]
    have hproper := c.rescaling_isProper hdim hfinite h hproblem.1
    obtain ⟨start, hsettled⟩ := c.settled_eq
    have hsettledRows : c.settled.HasFiniteRows := by
      rw [hsettled]
      exact c.reduced_hasFiniteRows hrows
    have hobjective : c.settled.objective.isSome := by
      rw [hsettled]
      exact c.reduced_objective
    rw [hunscaled, hproblem.2.1]
    exact Problem.restates_rescaledBy (c.settled_fits hdim) (c.rescaling_fits (c.settled_fits hdim)) hproper hobjective
      hsettledRows.1 hsettledRows.2
  · have hunscaled : r.unscaled = id := by
      funext y
      rw [Record.unscaled, hproblem.1]
      rfl
    rw [hunscaled, hproblem.2.1]
    exact Problem.restates_start c.settled _ c.settled.start

/-- The problem that a solver gets restates the one that the caller stated, behind barriers. -/
theorem restates [IsStrictOrderedRing K] (hdim : search.KeepsDimension)
    (hfinite : search.FindsFinite) (h : c.given.IsProper) (hrows : c.given.HasFiniteRows) :
    r.problem.Restates (c.given.guarded invoker.name) r.refinedDimension r.rawDimension
      (r.expanded ∘ r.unscaled) := by
  have hsettled : c.settled.Restates c.reduced r.refinedDimension r.refinedDimension id := by
    obtain ⟨start, hsettled⟩ := c.settled_eq
    rw [hsettled]
    exact Problem.restates_start c.reduced _ start
  -- from the last stage back to the first
  exact (c.problem_restates hdim hfinite h hrows).trans
    (hsettled.trans ((c.reduced_restates hrows).trans (c.checked_restates hrows)))

end Course

variable [Interchange (Extended K)] {search : NearestSearch (Extended K)} {invoker : Invoker}
  {i : Input (Extended K)} {e : Option Category} {r : Record (Extended K)} {given : Problem (Extended K)}

/-- Unless every variable is fixed, a preparation restates the problem that the caller stated. The
functions at a canonical point are the caller's, behind their barriers, at the restored point; and a
finite canonical point satisfies the canonical bounds and rows if and only if the restored point satisfies
all bounds and rows as they were stated. -/
theorem prepare_restates [IsStrictOrderedRing K] (hdim : search.KeepsDimension)
    (hfinite : search.FindsFinite) (h : (Prep.run e (prepare search invoker i)).1 = .ok r)
    (hgiven : i.stated invoker.name = .ok given) (hproper : given.IsProper)
    (hrows : given.HasFiniteRows) (hfree : r.facts.allFixed = false) (y : List (Extended K))
    (hy : y.length = r.refinedDimension) :
    ∃ x, r.restore y = .ok x ∧ x.length = r.rawDimension ∧
      (∃ f, given.objective = some f ∧
        r.problem.objective.map (· y) = some (Barrier.objective invoker.name f x)) ∧
      r.problem.constraints.map (· y) = given.constraints.map (Barrier.constraints invoker.name · x) ∧
      ((∀ a ∈ y, IsFinite a) → (r.problem.Admits y ↔ given.Admits x)) := by
  obtain ⟨c⟩ := exists_course (Prod.ext h rfl)
  obtain rfl := Except.ok.inj (hgiven.symm.trans c.stated_eq)
  have hrestates := c.restates hdim hfinite hproper hrows
  obtain ⟨f, hf⟩ := Option.isSome_iff_exists.1 (Input.stated_objective hgiven)
  refine ⟨_, (c.record_fits hdim).restore_eq hfree hy, hrestates.length y hy, ⟨f, hf, ?_⟩, ?_, ?_⟩
  · rw [hrestates.objective y hy, Problem.guarded, hf]
    rfl
  · rw [hrestates.constraints y hy, Problem.guarded, Option.map_map]
    rfl
  · intro hyfinite
    exact (hrestates.admits y hy hyfinite).trans (Problem.admits_congr Iff.rfl Iff.rfl Iff.rfl)

/-- Three variables, one of them fixed and one without bounds, with a row that is trivial and one that is
not, to be rescaled. -/
def mixedInput : Input (Extended ℚ) where
  objective := zeroObjective
  start := .list [.int 0, .int 1, .int 5]
  inequalityRows := .list [.list [.int 1, .int 1, .int 1], .list [.int 0, .int 0, .int 0]]
  inequalityRhs := .list [.int 10, .int 2]
  lower := .list [.int (-1), .int 1, .real .bottom]
  upper := .list [.int 3, .int 1, .real .top]
  options := .mapping [(.text "scale", .bool true)]

/-- A canonical point is admitted if and only if the point that it stands for is, though neither row is
the one that was stated. -/
theorem prepare_restates_mixedInput : ∃ r given,
    (Prep.run none (prepare NearestSearch.stay .frontEnd mixedInput)).1 = .ok r ∧
      mixedInput.stated Invoker.frontEnd.name = .ok given ∧
      (r.problem.inequalities.rows, r.problem.inequalities.rhs)
        = ([[finite 2, finite 1]], [finite 3]) ∧
      r.restore [finite 1, finite 2] = .ok [finite 3, finite 1, finite 7] ∧
      (r.problem.Admits [finite 1, finite 2] ↔ given.Admits [finite 3, finite 1, finite 7]) := by
  have hrun : (Prep.run none (prepare NearestSearch.stay .frontEnd mixedInput)).1.toOption.map
      (fun r => (r.facts.allFixed, r.refinedDimension)) = some (false, 2) := by decide +kernel
  have hsystem : (Prep.run none (prepare NearestSearch.stay .frontEnd mixedInput)).1.toOption.map
      (fun r => (r.problem.inequalities.rows, r.problem.inequalities.rhs))
        = some ([[finite 2, finite 1]], [finite 3]) := by decide +kernel
  have hrestore : (Prep.run none (prepare NearestSearch.stay .frontEnd mixedInput)).1.toOption.map
      (fun r => (r.restore [finite 1, finite 2]).toOption)
        = some (some [finite 3, finite 1, finite 7]) := by decide +kernel
  have hbox : (mixedInput.stated Invoker.frontEnd.name).toOption.map
      (fun p => (p.start, p.bounds.lower, p.bounds.upper))
        = some ([finite 0, finite 1, finite 5], [finite (-1), finite 1, bottom],
          [finite 3, finite 1, top]) := by decide +kernel
  have hmatrices : (mixedInput.stated Invoker.frontEnd.name).toOption.map
      (fun p => (p.inequalities.rows, p.equalities.rows))
        = some ([[finite 1, finite 1, finite 1], [finite 0, finite 0, finite 0]], []) := by
    decide +kernel
  obtain ⟨r, hr, hrecord⟩ := exists_of_toOption_map hrun
  obtain ⟨given, hgiven, hparts⟩ := exists_of_toOption_map hbox
  rw [hr] at hsystem hrestore
  rw [hgiven] at hmatrices
  simp only [Prod.mk.injEq] at hrecord hparts
  obtain ⟨hineq, heq⟩ := Prod.mk.injEq .. ▸ Option.some.inj hmatrices
  have hproper : given.IsProper := by
    constructor
    · simp [hparts.1]
    · simp [hparts.2.1, IsLowerBound]
    · simp [hparts.2.2, IsUpperBound]
  have hrows : given.HasFiniteRows := by
    constructor
    · simp [LinearSystem.HasFiniteRows, hineq]
    · simp [LinearSystem.HasFiniteRows, heq]
  obtain ⟨x, hx, -, -, -, hadmits⟩ := prepare_restates NearestSearch.stay_keepsDimension
    NearestSearch.stay_findsFinite hr hgiven hproper hrows hrecord.1 [finite 1, finite 2]
    hrecord.2.symm
  have hpoint : x = [finite 3, finite 1, finite 7] := by
    have h : (r.restore [finite 1, finite 2]).toOption
        = some [finite 3, finite 1, finite 7] := Option.some.inj hrestore
    rw [hx] at h
    exact Option.some.inj h
  rw [hpoint] at hx hadmits
  exact ⟨r, given, hr, hgiven, Option.some.inj hsystem, hx, hadmits (by simp)⟩

end Presolve
