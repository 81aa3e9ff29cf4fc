import Presolve.Proofs.Constraint.Admitted
import Presolve.Proofs.Preparation.Exact

/-!
# Eliminating variables in two steps

Eliminating some variables and then others of those that are left is eliminating all of them at once: the
same problem is left, with the same functions, and points of it are expanded in the same way. The mask of the
second step marks places among the variables that the first step leaves.

Right-hand sides are shifted once for each step, so this is about exact numbers. Nothing is left of the rows
where every variable is eliminated, and the program then leaves a system alone; over exact numbers this is
the closed form as well (`Elimination.Fits.reduceSystem_eq_exact`).
-/

namespace Presolve

open Scalar Extended

/-! ## Expanding -/

section

variable {α : Type} [Scalar α]

/-- The values of an elimination are among those half-way between the bounds of all variables. -/
theorem Bounds.fixedValues_eq_select (b : Bounds α) (fixed : List Bool) :
    (b.elimination fixed).fixedValues = Mask.select fixed (List.zipWith Bounds.middle b.lower b.upper) :=
  (Mask.select_zipWith _ _ _ _).symm

theorem Bounds.fixed_elimination (b : Bounds α) (fixed : List Bool) : (b.elimination fixed).fixed = fixed :=
  Mask.others_others fixed

/-- The bounds of the variables that a mask does not mark. -/
def Bounds.without (fixed : List Bool) (b : Bounds α) : Bounds α :=
  ⟨Mask.select (Mask.others fixed) b.lower, Mask.select (Mask.others fixed) b.upper⟩

variable {b : Bounds α} {m k : List Bool} {n : Nat} (hl : b.lower.length = n) (hu : b.upper.length = n)
  (hm : m.length = n) (hk : k.length = n)

include hl hu hm hk

theorem Bounds.expand_expand (y : List α) :
    ((b.without m).elimination (Mask.select (Mask.others m) k)).expand y >>= (b.elimination m).expand
      = (b.elimination (Mask.union m k)).expand y := by
  have hlenLower : (Mask.others m).length = b.lower.length := by rw [Mask.length_others, hm, hl]
  have hlenUpper : (Mask.others m).length = b.upper.length := by rw [Mask.length_others, hm, hu]
  have hlenMask : (Mask.others m).length = k.length := by rw [Mask.length_others, hm, hk]
  have hunion : (Mask.union m k).length = n := by simp [Mask.union, hm, hk]
  have hfirst : (b.elimination m).Fits n := Bounds.elimination_fits hl hu hm
  have hsecond : ((b.without m).elimination (Mask.select (Mask.others m) k)).Fits
      (Mask.count (Mask.others m)) :=
    Bounds.elimination_fits (Mask.length_select hlenLower) (Mask.length_select hlenUpper)
      (Mask.length_select hlenMask)
  have hboth : (b.elimination (Mask.union m k)).Fits n := Bounds.elimination_fits hl hu hunion
  have hdimension : ((b.without m).elimination (Mask.select (Mask.others m) k)).dimension
      = (b.elimination (Mask.union m k)).dimension := by
    show Mask.count (Mask.others _) = Mask.count (Mask.others _)
    rw [Mask.others_select, Mask.count_select, Mask.others_union]
  rw [hsecond.expand_eq_map, hboth.expand_eq_map, hdimension]
  cases hy : spread (b.elimination (Mask.union m k)).dimension y with
  | error x => rfl
  | ok y =>
    have hlen := length_spread hy
    show (b.elimination m).expand _ = .ok _
    rw [hfirst.expand_eq (hsecond.length_expand (hlen.trans hdimension.symm))]
    simp only [Bounds.fixedValues_eq_select]
    have hmiddles : (List.zipWith middle b.lower b.upper).length = m.length := by simp [hl, hu, hm]
    have hmerge := Mask.merge_merge (hk.trans hm.symm) hmiddles hlen
    rw [Mask.select_zipWith middle (Mask.others m)] at hmerge
    exact congrArg Except.ok hmerge

end

/-- A function of the variables that are left after two steps. -/
theorem Elimination.onFree_onFree {α : Type} {e e₁ e₂ : Elimination α}
    (h : ∀ y, e₂.expand y >>= e₁.expand = e.expand y) (f : Option (Evaluator α)) :
    e₂.onFree (some (e₁.onFree f)) = e.onFree f := by
  funext y
  unfold Elimination.onFree
  rw [← h y]
  cases e₂.expand y <;> rfl

/-! ## Systems -/

/-- Right-hand sides that are moved twice. -/
theorem LinearSystem.shifted_shifted {α : Type} [Scalar α] {f g h : List α → α} {rows : List (List α)}
    {rhs : List α} (hstep : ∀ row ∈ rows, ∀ b, b - f row - g row = b - h row) :
    List.zipWith (· - ·) (List.zipWith (· - ·) rhs (rows.map f)) (rows.map g)
      = List.zipWith (· - ·) rhs (rows.map h) := by
  induction rows generalizing rhs with
  | nil => simp
  | cons row rows ih =>
    have ih := fun rhs => @ih rhs fun row hrow => hstep row (List.mem_cons_of_mem _ hrow)
    cases rhs with
    | nil => rfl
    | cons b rhs => simp [ih, hstep row List.mem_cons_self]

section

variable {K : Type} [Field K] [LinearOrder K] [FloorRing K]

namespace Extended

theorem sub_finite_zero (b : Extended K) : b - finite 0 = b := by
  cases b with
  | finite c => rw [finite_sub, sub_zero]
  | top | bottom | undefined => rfl

theorem sub_finite_sub (b : Extended K) (s t : K) : b - finite s - finite t = b - finite (s + t) := by
  cases b with
  | finite c => rw [finite_sub, finite_sub, finite_sub, sub_sub]
  | top | bottom | undefined => rfl

end Extended

theorem Elimination.Fits.reduceSystem_eq_exact {e : Elimination (Extended K)}
    {s : LinearSystem (Extended K)} {n : Nat} (h : e.Fits n) (hs : s.Fits n) :
    e.reduceSystem s = .ok (e.reducedSystem s) := by
  rcases Nat.eq_zero_or_pos n with rfl | hn
  · -- rows without entries stay as they are, and nothing is taken from their right-hand sides
    have hempty := hs.rows_eq_replicate
    have hentries : s.hasRows = false := by simp [LinearSystem.hasRows, hempty]
    have hselect (mask : List Bool) : Mask.select mask ([] : List (Extended K)) = [] := by simp [Mask.select]
    have hrows : s.rows.map (Mask.select e.free) = s.rows := by
      rw [hempty, List.map_replicate, hselect]
    have hrhs : List.zipWith (· - ·) s.rhs
        (s.rows.map fun row => dot (Mask.select e.fixed row) e.fixedValues) = s.rhs := by
      have hproduct : dot [] e.fixedValues = finite (0 : K) := zero_eq
      rw [hempty, List.map_replicate, hselect, hproduct]
      exact List.ext_getElem (by simp) (by simp [sub_finite_zero])
    rw [Elimination.reduceSystem, if_neg (by simp [hentries]), Elimination.reducedSystem, hrows, hrhs]
  · exact h.reduceSystem_eq hs hn

namespace Extended

/-- The part of a row that belongs to a union is the sum of what belongs to its first part and of what else
belongs to the second one. -/
theorem dot_select_union {m k : List Bool} {row zs : List (Extended K)} (hk : k.length = m.length)
    (hrow : row.length = m.length) (hzs : zs.length = m.length) (hfinite : ∀ a ∈ row, IsFinite a)
    (hvalues : ∀ a ∈ Mask.select (Mask.union m k) zs, IsFinite a) :
    ∃ s t : K, dot (Mask.select m row) (Mask.select m zs) = finite s ∧
      dot (Mask.select (Mask.select (Mask.others m) k) (Mask.select (Mask.others m) row))
        (Mask.select (Mask.select (Mask.others m) k) (Mask.select (Mask.others m) zs)) = finite t ∧
      dot (Mask.select (Mask.union m k) row) (Mask.select (Mask.union m k) zs) = finite (s + t) := by
  have hu : (Mask.union m k).length = m.length := by simp [Mask.union, hk]
  have hmask : (Mask.select (Mask.union m k) m).length = (Mask.select (Mask.union m k) row).length := by
    rw [Mask.length_select hu, Mask.length_select (hu.trans hrow.symm)]
  have hmask' : (Mask.select (Mask.union m k) m).length = (Mask.select (Mask.union m k) zs).length := by
    rw [Mask.length_select hu, Mask.length_select (hu.trans hzs.symm)]
  -- both parts are selected from what the union selects
  have h := dot_split hmask hmask' (fun a ha => hfinite a (Mask.mem_of_mem_select ha)) hvalues
  simp only [Mask.others_select, Mask.select_select, Mask.inter_union_self hk, Mask.inter_union_others] at h ⊢
  exact h

end Extended

section

variable {m k : List Bool} {n : Nat} (hm : m.length = n) (hk : k.length = n)

include hm hk

/-- A system after two eliminations. -/
theorem Bounds.reducedSystem_reducedSystem {b : Bounds (Extended K)} {s : LinearSystem (Extended K)}
    (hl : b.lower.length = n) (hu : b.upper.length = n) (hs : s.Fits n) (hrows : s.HasFiniteRows)
    (hvalues : ∀ a ∈ (b.elimination (Mask.union m k)).fixedValues, IsFinite a) :
    ((b.without m).elimination (Mask.select (Mask.others m) k)).reducedSystem
        ((b.elimination m).reducedSystem s)
      = (b.elimination (Mask.union m k)).reducedSystem s := by
  rw [Bounds.fixedValues_eq_select] at hvalues
  have hmiddles : (List.zipWith middle b.lower b.upper).length = m.length := by simp [hl, hu, hm]
  simp only [Elimination.reducedSystem, Bounds.fixed_elimination, Bounds.fixedValues_eq_select,
    LinearSystem.mk.injEq, List.map_map]
  constructor
  · apply List.map_congr_left
    intro row _
    show Mask.select (Mask.others _) (Mask.select _ row) = Mask.select (Mask.others _) row
    rw [Mask.others_select, Mask.others_union]
    exact Mask.select_select _ _ row
  · apply LinearSystem.shifted_shifted
    intro row hrow c
    obtain ⟨s, t, hs, ht, hsum⟩ := dot_select_union (hk.trans hm.symm)
      ((hs.length_row row hrow).trans hm.symm) hmiddles (hrows row hrow) hvalues
    rw [Mask.select_zipWith middle (Mask.others m)] at ht
    rw [hs, hsum, ← sub_finite_sub]
    exact congrArg (c - finite s - ·) ht

theorem Problem.reducedBy_reducedBy {p : Problem (Extended K)} (hp : p.Fits n) (hrows : p.HasFiniteRows)
    (hvalues : ∀ a ∈ (p.bounds.elimination (Mask.union m k)).fixedValues, IsFinite a) :
    (p.reducedBy (p.bounds.elimination m)).reducedBy
        ((p.bounds.without m).elimination (Mask.select (Mask.others m) k))
      = p.reducedBy (p.bounds.elimination (Mask.union m k)) := by
  have hexpand := Bounds.expand_expand hp.length_lower hp.length_upper hm hk
  have hsystem {s : LinearSystem (Extended K)} (hs : s.Fits n) (hfinite : s.HasFiniteRows) :=
    Bounds.reducedSystem_reducedSystem hm hk hp.length_lower hp.length_upper hs hfinite hvalues
  have hselect (xs : List (Extended K)) :
      Mask.select (Mask.others (Mask.select (Mask.others m) k)) (Mask.select (Mask.others m) xs)
        = Mask.select (Mask.others (Mask.union m k)) xs := by
    rw [Mask.others_select, Mask.others_union]
    exact Mask.select_select _ _ xs
  unfold Problem.reducedBy
  rw [Problem.mk.injEq, Bounds.mk.injEq]
  refine ⟨?_, hselect _, hsystem hp.inequalities hrows.1, hsystem hp.equalities hrows.2,
    ⟨hselect _, hselect _⟩, ?_⟩
  · exact congrArg some (Elimination.onFree_onFree hexpand p.objective)
  · cases p.constraints with
    | none => rfl
    | some f => exact congrArg some (Elimination.onFree_onFree hexpand (some f))

end

/-! ## Problems -/

/-- Elimination of marked variables, none of which need be left. -/
theorem Problem.eliminate_eq_exact {p : Problem (Extended K)} {fixed : List Bool} {n : Nat} (hp : p.Fits n)
    (hf : fixed.length = n) :
    p.eliminate fixed = .ok (p.reducedBy (p.bounds.elimination fixed), p.bounds.elimination fixed) := by
  have he := Bounds.elimination_fits hp.length_lower hp.length_upper hf
  exact eliminate_eq_of_systems hp hf (he.reduceSystem_eq_exact hp.inequalities)
    (he.reduceSystem_eq_exact hp.equalities)

variable [IsStrictOrderedRing K]

/-- Eliminating the variables of one mask, and then what is left of those of another, gives the same problem
as eliminating both at once. Points of it are expanded in the same way, those of another length included. -/
theorem Problem.eliminate_eliminate {p : Problem (Extended K)} {m k : List Bool} {n : Nat} (hp : p.Fits n)
    (hrows : p.HasFiniteRows) (hm : m.length = n) (hk : k.length = n)
    (hlower : ∀ a ∈ Mask.select (Mask.union m k) p.bounds.lower, IsFinite a)
    (hupper : ∀ a ∈ Mask.select (Mask.union m k) p.bounds.upper, IsFinite a) :
    ∃ q e₁ r e₂ e, p.eliminate m = .ok (q, e₁) ∧
      q.eliminate (Mask.select (Mask.others m) k) = .ok (r, e₂) ∧
      p.eliminate (Mask.union m k) = .ok (r, e) ∧
      (∀ y, e₂.expand y >>= e₁.expand = e.expand y) ∧
      ∀ y, y.length = r.dimension → ∃ x, x.length = n ∧ e.expand y = .ok x := by
  have hunion : (Mask.union m k).length = n := by simp [Mask.union, hm, hk]
  have hmask : (Mask.others m).length = k.length := by rw [Mask.length_others, hm, hk]
  have hfirst := Bounds.elimination_fits hp.length_lower hp.length_upper hm
  have hboth := Bounds.elimination_fits hp.length_lower hp.length_upper hunion
  have hleft := Problem.reducedBy_fits hp hfirst
  have hvalues : ∀ a ∈ (p.bounds.elimination (Mask.union m k)).fixedValues, IsFinite a := by
    intro a ha
    obtain ⟨lo, hlo, hi, hhi, rfl⟩ := exists_of_mem_zipWith ha
    obtain ⟨l, rfl⟩ := hlower lo hlo
    obtain ⟨u, rfl⟩ := hupper hi hhi
    exact ⟨_, middle_finite l u⟩
  have hproblem := Problem.reducedBy_reducedBy hm hk hp hrows hvalues
  refine ⟨p.reducedBy (p.bounds.elimination m), p.bounds.elimination m,
    p.reducedBy (p.bounds.elimination (Mask.union m k)),
    (p.bounds.without m).elimination (Mask.select (Mask.others m) k),
    p.bounds.elimination (Mask.union m k), Problem.eliminate_eq_exact hp hm, ?_,
    Problem.eliminate_eq_exact hp hunion, Bounds.expand_expand hp.length_lower hp.length_upper hm hk, ?_⟩
  · rw [← hproblem]
    exact Problem.eliminate_eq_exact hleft (Mask.length_select hmask)
  · intro y hy
    have hlen : y.length = (p.bounds.elimination (Mask.union m k)).dimension :=
      hy.trans (hboth.length_restrict hp.length_start)
    exact ⟨_, hboth.length_expand hlen, hboth.expand_eq hlen⟩

/-- Four variables of which the first and the third have equal bounds. -/
def twicePinnedProblem : Problem (Extended ℚ) where
  objective := some fun x => .ok (.ofList x)
  start := [finite 0, finite 0, finite 0, finite 0]
  inequalities := ⟨[[finite 1, finite 2, finite 3, finite 4], [finite 5, finite 0, finite 0, finite 1]],
    [finite 10, top]⟩
  equalities := ⟨[[finite 1, finite 1, finite (-1), finite 1]], [finite 6]⟩
  bounds := ⟨[finite 1, bottom, finite 2, finite 0], [finite 1, finite 5, finite 2, top]⟩
  constraints := none

/-- The first variable is eliminated, and then the third one, which is the second of those that are left. -/
theorem eliminate_eliminate_twicePinnedProblem : ∃ q e₁ r e₂,
    twicePinnedProblem.eliminate [true, false, false, false] = .ok (q, e₁) ∧
      q.eliminate [false, true, false] = .ok (r, e₂) ∧
      r.inequalities = ⟨[[finite 2, finite 4], [finite 0, finite 1]], [finite 3, top]⟩ ∧
      e₂.expand [finite 8, finite 9] >>= e₁.expand
        = .ok [finite (1 : ℚ), finite 8, finite 2, finite 9] := by
  have hfits : twicePinnedProblem.Fits 4 :=
    ⟨rfl, rfl, rfl, ⟨rfl, by simp [twicePinnedProblem]⟩, ⟨rfl, by simp [twicePinnedProblem]⟩⟩
  have hrows : twicePinnedProblem.HasFiniteRows := by
    constructor <;> simp [LinearSystem.HasFiniteRows, twicePinnedProblem]
  obtain ⟨q, e₁, r, e₂, e, hq, hr, hboth, hexpand, -⟩ := Problem.eliminate_eliminate hfits hrows
    (m := [true, false, false, false]) (k := [false, false, true, false]) rfl rfl
    (by simp [twicePinnedProblem, Mask.union, Mask.select])
    (by simp [twicePinnedProblem, Mask.union, Mask.select])
  have hrun : (twicePinnedProblem.eliminate (Mask.union [true, false, false, false]
      [false, false, true, false])).toOption.map (fun r =>
        ((r.1.inequalities.rows, r.1.inequalities.rhs), (r.2.expand [finite 8, finite 9]).toOption))
          = some (([[finite 2, finite 4], [finite 0, finite 1]], [finite 3, top]),
            some [finite 1, finite 8, finite 2, finite 9]) := by
    decide +kernel
  obtain ⟨_, hunion, hparts⟩ := exists_of_toOption_map hrun
  obtain rfl := Except.ok.inj (hboth.symm.trans hunion)
  simp only [Prod.mk.injEq] at hparts
  obtain ⟨⟨hlines, hrhs⟩, hpoint⟩ := hparts
  refine ⟨q, e₁, r, e₂, hq, hr, congrArg₂ LinearSystem.mk hlines hrhs, ?_⟩
  rw [hexpand]
  exact eq_ok_of_toOption hpoint

end

end Presolve
