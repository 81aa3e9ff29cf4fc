import Presolve.Barrier
import Presolve.Proofs.Linear.Symmetric
import Presolve.Proofs.SideBySide
import Presolve.Proofs.Transform.Elimination
import Presolve.Proofs.Transform.Rescaling
import Presolve.Proofs.Transform.Start

/-!
# Problems in another order of the variables

A problem *reorders* into another one if its variables are put into an order: the start, the bounds and
the columns of both systems are, and the functions are evaluated at the point before that. Both transforms
go along with an order. Eliminating variables leaves an order of its own behind, the one that the free
variables come in, and rescaling keeps the order.

What a preparation finds out about the constraints is about rows, or about one variable at a time. The
former stays as it is, and the latter is put into the order.
-/

namespace Presolve

open Scalar

variable {α : Type} {o : Order}

/-! ## Functions -/

/-- Two functions of which the second one has at a point in an order the value that the first one has at the
point. -/
def Evaluator.Reorders (o : Order) (f g : Evaluator α) : Prop :=
  ∀ x, x.length = o.size → g (o.apply x) = f x

/-- Functions behind barriers reorder if they do. -/
theorem Evaluator.Reorders.objective [Scalar α] {f g : Evaluator α} (h : f.Reorders o g)
    (source : String) :
    Reorders o (Barrier.objective source f) (Barrier.objective source g) := by
  intro x hx
  simp only [Barrier.objective, h x hx]

theorem Evaluator.Reorders.constraints [Scalar α] {f g : Evaluator α} (h : f.Reorders o g)
    (source : String) :
    Reorders o (Barrier.constraints source f) (Barrier.constraints source g) := by
  intro x hx
  simp only [Barrier.constraints, h x hx]

/-! ## The parts of a problem -/

/-- A system whose columns are in an order. -/
def LinearSystem.inOrder (o : Order) (s : LinearSystem α) : LinearSystem α :=
  ⟨s.rows.map o.apply, s.rhs⟩

/-- The bounds of variables in an order. -/
def Bounds.inOrder (o : Order) (b : Bounds α) : Bounds α := ⟨o.apply b.lower, o.apply b.upper⟩

namespace LinearSystem.Fits

variable {s : LinearSystem α} (h : s.Fits o.size)

include h

theorem inOrder : (s.inOrder o).Fits o.size := by
  constructor
  · rw [LinearSystem.inOrder, List.length_map]
    exact h.length_rhs
  · intro row hrow
    obtain ⟨row', hrow', rfl⟩ := List.mem_map.1 hrow
    exact Order.length_apply (h.length_row row' hrow')

/-- What is made of the rows in an order is what is made of the rows before, if this is so of each row. -/
theorem map_inOrder {β : Type} {f g : List α → β}
    (hf : ∀ row : List α, row.length = o.size → g (o.apply row) = f row) :
    (s.inOrder o).rows.map g = s.rows.map f := by
  rw [LinearSystem.inOrder, List.map_map]
  apply List.map_congr_left
  intro row hrow
  exact hf row (h.length_row row hrow)

/-- The same of a property of a row and its right-hand side. -/
theorem zipWith_inOrder {β : Type} {f : List α → α → β}
    (hf : ∀ row : List α, row.length = o.size → f (o.apply row) = f row) :
    List.zipWith f (s.inOrder o).rows (s.inOrder o).rhs = List.zipWith f s.rows s.rhs := by
  have hmap := h.map_inOrder hf
  rw [show List.zipWith f (s.inOrder o).rows (s.inOrder o).rhs
    = List.zipWith (fun g b => g b) ((s.inOrder o).rows.map f) s.rhs by
      rw [List.zipWith_map_left]; rfl, hmap, List.zipWith_map_left]

theorem hasRows_inOrder : (s.inOrder o).hasRows = s.hasRows := by
  have hmap := h.map_inOrder (f := List.isEmpty) fun row hrow => (Order.apply_perm hrow).isEmpty_eq
  have hany (t : LinearSystem α) : t.hasRows = (t.rows.map List.isEmpty).any not := by
    rw [List.any_map]
    rfl
  rw [hany, hany, hmap]

end LinearSystem.Fits

section

variable [Scalar α] {b : Bounds α} (hl : b.lower.length = o.size) (hu : b.upper.length = o.size)

include hl hu

theorem Bounds.fixed_inOrder : (b.inOrder o).fixed = o.apply b.fixed :=
  (Order.apply_zipWith fixes (hl.trans hu.symm)).symm

theorem Bounds.infeasible_inOrder : (b.inOrder o).infeasible = o.apply b.infeasible :=
  (Order.apply_zipWith _ (hl.trans hu.symm)).symm

theorem Bounds.clip_inOrder {x : List α} (hx : x.length = o.size) :
    (b.inOrder o).clip (o.apply x) = (b.clip x).map o.apply := by
  have hraised : b.lower.length = x.length := hl.trans hx.symm
  have hlowered : b.upper.length = (List.zipWith atLeast b.lower x).length := by simp [hl, hu, hx]
  rw [clip_eq hl hu hx, clip_eq (Order.length_apply hl) (Order.length_apply hu) (Order.length_apply hx)]
  show _ = Except.ok (o.apply _)
  rw [Order.apply_zipWith _ hlowered, Order.apply_zipWith _ hraised]
  rfl

end

/-! ## Eliminations -/

/-- The elimination of the variables in an order. -/
def Elimination.inOrder (o : Order) (e : Elimination α) : Elimination α :=
  ⟨o.apply e.free, (o.onMarked e.fixed).apply e.fixedValues⟩

theorem Bounds.elimination_inOrder [Scalar α] {b : Bounds α} {fixed : List Bool}
    (hl : b.lower.length = o.size) (hu : b.upper.length = o.size) (hf : fixed.length = o.size) :
    (b.inOrder o).elimination (o.apply fixed) = (b.elimination fixed).inOrder o := by
  have hlen : (Mask.select fixed b.lower).length = (Mask.select fixed b.upper).length := by
    rw [Mask.length_select (hf.trans hl.symm), Mask.length_select (hf.trans hu.symm)]
  have hvalues : List.zipWith middle (Mask.select (o.apply fixed) (o.apply b.lower))
      (Mask.select (o.apply fixed) (o.apply b.upper))
        = (o.onMarked fixed).apply
          (List.zipWith middle (Mask.select fixed b.lower) (Mask.select fixed b.upper)) := by
    rw [Order.select_apply hf hl, Order.select_apply hf hu, Order.apply_zipWith _ hlen]
  simp only [Bounds.elimination, Elimination.inOrder, Elimination.fixed, Mask.others_others,
    Order.others_apply, Bounds.inOrder, hvalues]

namespace Elimination.Fits

variable {e : Elimination α} (h : e.Fits o.size)

include h

theorem inOrder : (e.inOrder o).Fits o.size := by
  have hlen : e.fixedValues.length = (o.onMarked e.fixed).size := by
    rw [Order.size_onMarked h.length_fixed, h.2]
  have hfixed : (e.inOrder o).fixed = o.apply e.fixed := Order.others_apply o e.free
  constructor
  · exact Order.length_apply h.1
  · rw [hfixed, Order.count_apply h.length_fixed, ← h.2, hlen]
    exact Order.length_apply hlen

theorem size_onMarked : (o.onMarked e.free).size = e.dimension := Order.size_onMarked h.1

theorem dimension_inOrder : (e.inOrder o).dimension = e.dimension := Order.count_apply h.1

/-- A point in the order of the free variables is expanded to the point in the whole order. -/
theorem expand_inOrder {y : List α} (hy : y.length = e.dimension) :
    (e.inOrder o).expand ((o.onMarked e.free).apply y)
      = .ok (o.apply (Mask.merge e.free y e.fixedValues)) := by
  have hsize := h.size_onMarked
  have hlen : ((o.onMarked e.free).apply y).length = (e.inOrder o).dimension := by
    rw [h.dimension_inOrder, Order.length_apply (hy.trans hsize.symm), hsize]
  rw [h.inOrder.expand_eq hlen]
  exact congrArg Except.ok (Order.merge_apply h.1 hy h.2)

theorem onFree_reorders {f? g? : Option (Evaluator α)} (hfg : Option.Rel (Evaluator.Reorders o) f? g?) :
    Evaluator.Reorders (o.onMarked e.free) (e.onFree f?) ((e.inOrder o).onFree g?) := by
  intro y hy
  have hy : y.length = e.dimension := hy.trans h.size_onMarked
  have hpoint : (Mask.merge e.free y e.fixedValues).length = o.size := h.length_expand hy
  unfold onFree
  rw [h.expand_inOrder hy, h.expand_eq hy]
  cases hfg with
  | none => rfl
  | some hfg => exact hfg _ hpoint

theorem select_inOrder {x : List α} (hx : x.length = o.size) :
    Mask.select (e.inOrder o).free (o.apply x) = (o.onMarked e.free).apply (Mask.select e.free x) :=
  Order.select_apply h.1 hx

end Elimination.Fits

/-! ## Rescalings -/

/-- The rescaling of the variables in an order. -/
def Rescaling.inOrder (o : Order) (r : Rescaling α) : Rescaling α := ⟨o.apply r.factor, o.apply r.shift⟩

namespace Rescaling

variable [Scalar α]

theorem fitted_inOrder {start : List α} {b : Bounds α} (hs : start.length = o.size)
    (hl : b.lower.length = o.size) (hu : b.upper.length = o.size) :
    fitted (o.apply start) (b.inOrder o) = (fitted start b).inOrder o := by
  have hlu : b.lower.length = b.upper.length := hl.trans hu.symm
  have hpairs : (List.zip b.lower b.upper).length = start.length := by simp [hs, hl, hu]
  rw [Rescaling.inOrder, fitted, fitted, Order.apply_zipWith _ hlu, Order.apply_zipWith _ hpairs,
    Order.apply_zip hlu]
  rfl

namespace Fits

variable {r : Rescaling α} (h : r.Fits o.size)

include h

omit [Scalar α] in
theorem inOrder : (r.inOrder o).Fits o.size := ⟨Order.length_apply h.1, Order.length_apply h.2⟩

theorem toUnscaled_inOrder {y : List α} (hy : y.length = o.size) :
    List.zipWith (· + ·) (List.zipWith (· * ·) (r.inOrder o).factor (o.apply y)) (r.inOrder o).shift
      = o.apply (List.zipWith (· + ·) (List.zipWith (· * ·) r.factor y) r.shift) := by
  have hproduct : (List.zipWith (· * ·) r.factor y).length = r.shift.length := by simp [h.1, h.2, hy]
  rw [Order.apply_zipWith _ hproduct, Order.apply_zipWith _ (h.1.trans hy.symm)]
  rfl

theorem toCanonical_inOrder {x : List α} (hx : x.length = o.size) :
    List.zipWith (· / ·) (List.zipWith (· - ·) (o.apply x) (r.inOrder o).shift) (r.inOrder o).factor
      = o.apply (List.zipWith (· / ·) (List.zipWith (· - ·) x r.shift) r.factor) := by
  have hdifference : (List.zipWith (· - ·) x r.shift).length = r.factor.length := by simp [h.1, h.2, hx]
  rw [Order.apply_zipWith _ hdifference, Order.apply_zipWith _ (hx.trans h.2.symm)]
  rfl

theorem onCanonical_reorders {f? g? : Option (Evaluator α)}
    (hfg : Option.Rel (Evaluator.Reorders o) f? g?) :
    Evaluator.Reorders o (r.onCanonical f?) ((r.inOrder o).onCanonical g?) := by
  intro y hy
  have hpoint := h.length_toUnscaled hy
  unfold onCanonical
  rw [h.inOrder.toUnscaled_eq (Order.length_apply hy), h.toUnscaled_inOrder hy, h.toUnscaled_eq hy]
  cases hfg with
  | none => rfl
  | some hfg => exact hfg _ hpoint

theorem isShift_inOrder : (r.inOrder o).isShift = r.isShift := (Order.apply_perm h.1).all_eq

end Fits
end Rescaling

/-! ## Problems -/

/-- The same problem in variables that are put into an order. -/
structure Problem.Reorders (o : Order) (p q : Problem α) : Prop where
  start_eq : q.start = o.apply p.start
  inequalities_eq : q.inequalities = p.inequalities.inOrder o
  equalities_eq : q.equalities = p.equalities.inOrder o
  bounds_eq : q.bounds = p.bounds.inOrder o
  objective : Option.Rel (Evaluator.Reorders o) p.objective q.objective
  constraints : Option.Rel (Evaluator.Reorders o) p.constraints q.constraints

namespace Problem.Reorders

variable {p q : Problem α} (h : p.Reorders o q)

include h

theorem fits (hp : p.Fits o.size) : q.Fits o.size where
  length_start := by
    rw [h.start_eq]
    exact Order.length_apply hp.length_start
  length_lower := by
    rw [h.bounds_eq]
    exact Order.length_apply hp.length_lower
  length_upper := by
    rw [h.bounds_eq]
    exact Order.length_apply hp.length_upper
  inequalities := by
    rw [h.inequalities_eq]
    exact hp.inequalities.inOrder
  equalities := by
    rw [h.equalities_eq]
    exact hp.equalities.inOrder

theorem dimension_eq (hp : p.Fits o.size) : q.dimension = p.dimension :=
  (h.fits hp).length_start.trans hp.length_start.symm

theorem isSome_constraints : q.constraints.isSome = p.constraints.isSome :=
  isSome_of_rel h.constraints

theorem with_start {x : List α} :
    Problem.Reorders o { p with start := x } { q with start := o.apply x } :=
  { h with start_eq := rfl }

theorem guarded [Scalar α] (source : String) : (p.guarded source).Reorders o (q.guarded source) where
  start_eq := h.start_eq
  inequalities_eq := h.inequalities_eq
  equalities_eq := h.equalities_eq
  bounds_eq := h.bounds_eq
  objective := rel_map h.objective fun _ _ hfg => hfg.objective source
  constraints := rel_map h.constraints fun _ _ hfg => hfg.constraints source

end Problem.Reorders

/-! ## What is known of the constraints -/

/-- What is known of the constraints if the variables are put into an order. -/
def Facts.inOrder (o : Order) (f : Facts α) : Facts α :=
  { f with
    infeasibleBounds := o.apply f.infeasibleBounds
    fixed := o.apply f.fixed
    fixedValues := (o.onMarked f.fixed).apply f.fixedValues }

theorem Facts.allFixed_inOrder {f : Facts α} (h : f.fixed.length = o.size) :
    (f.inOrder o).allFixed = f.allFixed := Order.all_apply h

theorem Facts.infeasible_inOrder {f : Facts α} (h : f.infeasibleBounds.length = o.size) :
    (f.inOrder o).infeasible = f.infeasible := by
  have hany := Order.any_apply h
  rw [infeasible, inOrder, hany, infeasible]

section

variable {K : Type} [Field K] [LinearOrder K] [FloorRing K]

section

variable {row : List (Extended K)} (h : row.length = o.size)

include h

theorem rowSize_apply : rowSize (o.apply row) = rowSize row := by
  have hperm := (Order.apply_perm h).map Scalar.abs
  rw [rowSize, Extended.maximum?_perm hperm, rowSize]

theorem relativeRhs_apply (b : Extended K) : relativeRhs (o.apply row) b = relativeRhs row b := by
  rw [relativeRhs, rowSize_apply h, relativeRhs]

/-- Rows are degenerate in any order of their coefficients. -/
theorem SystemName.isInfeasible_apply (name : SystemName) :
    name.isInfeasible (o.apply row) = name.isInfeasible row := by
  funext b
  cases name <;> simp only [isInfeasible, relativeRhs_apply h, rowSize_apply h]

theorem SystemName.isTrivial_apply (name : SystemName) :
    name.isTrivial (o.apply row) = name.isTrivial row := by
  funext b
  cases name <;> simp only [isTrivial, relativeRhs_apply h, rowSize_apply h]

end

namespace LinearSystem.Fits

variable {s : LinearSystem (Extended K)} (h : s.Fits o.size)

include h

theorem checked_inOrder (name : SystemName) :
    CheckedSystem.ofSystem name (s.inOrder o) =
      { CheckedSystem.ofSystem name s with
        system := (CheckedSystem.ofSystem name s).system.inOrder o } := by
  have hinfeasible := h.zipWith_inOrder fun _ hrow => SystemName.isInfeasible_apply hrow name
  have htrivial := h.zipWith_inOrder fun _ hrow => SystemName.isTrivial_apply hrow name
  rw [CheckedSystem.ofSystem, hinfeasible, htrivial, LinearSystem.inOrder]
  simp only [CheckedSystem.ofSystem, LinearSystem.inOrder, Mask.select_map]

/-- The same excess over the right-hand sides at the point in the order. -/
theorem excess_inOrder {x : List (Extended K)} (hx : x.length = o.size) :
    (s.inOrder o).excess (o.apply x) = s.excess x := by
  have hx' := Order.length_apply hx
  have hproducts : (s.inOrder o).rows.map (dot · (o.apply x)) = s.rows.map (dot · x) :=
    h.map_inOrder fun row hrow => Extended.dot_apply hrow hx
  rw [excess, excess, h.hasRows_inOrder,
    applyRows_eq fun row hrow => (h.inOrder.length_row row hrow).trans hx'.symm,
    applyRows_eq fun row hrow => (h.length_row row hrow).trans hx.symm, hproducts]
  rfl

/-- The columns of fixed variables that move to the right-hand sides make up the same sums. -/
theorem reducedSystem_inOrder {e : Elimination (Extended K)} (he : e.Fits o.size) :
    (e.inOrder o).reducedSystem (s.inOrder o) = (e.reducedSystem s).inOrder (o.onMarked e.free) := by
  have hfixed : (e.inOrder o).fixed = o.apply e.fixed := Order.others_apply o e.free
  have hvalues : e.fixedValues.length = (o.onMarked e.fixed).size := by
    rw [Order.size_onMarked he.length_fixed, he.2]
  have hrows : (s.inOrder o).rows.map (Mask.select (e.inOrder o).free)
      = (s.rows.map (Mask.select e.free)).map (o.onMarked e.free).apply := by
    rw [List.map_map]
    exact h.map_inOrder fun row hrow => he.select_inOrder hrow
  have hsums : (s.inOrder o).rows.map
      (fun row => dot (Mask.select (e.inOrder o).fixed row) (e.inOrder o).fixedValues)
        = s.rows.map fun row => dot (Mask.select e.fixed row) e.fixedValues := by
    rw [hfixed]
    apply h.map_inOrder
    intro row hrow
    have hselect : (Mask.select e.fixed row).length = (o.onMarked e.fixed).size := by
      rw [Order.size_onMarked he.length_fixed, Mask.length_select (he.length_fixed.trans hrow.symm)]
    show dot (Mask.select (o.apply e.fixed) (o.apply row)) ((o.onMarked e.fixed).apply e.fixedValues) = _
    rw [Order.select_apply he.length_fixed hrow, Extended.dot_apply hselect hvalues]
  rw [Elimination.reducedSystem, hrows, hsums]
  rfl

theorem rescaledSystem_inOrder {r : Rescaling (Extended K)} (hr : r.Fits o.size) :
    (r.inOrder o).rescaledSystem (s.inOrder o) = (r.rescaledSystem s).inOrder o := by
  have hrows : (s.inOrder o).rows.map (fun row => List.zipWith (· * ·) row (r.inOrder o).factor)
      = (s.rows.map fun row => List.zipWith (· * ·) row r.factor).map o.apply := by
    rw [List.map_map]
    exact h.map_inOrder fun row hrow => (Order.apply_zipWith _ (hrow.trans hr.1.symm)).symm
  have hsums : (s.inOrder o).rows.map (dot · (r.inOrder o).shift) = s.rows.map (dot · r.shift) :=
    h.map_inOrder fun row hrow => Extended.dot_apply hrow hr.2
  rw [Rescaling.rescaledSystem, hrows, hsums]
  rfl

end LinearSystem.Fits

section

variable {b : Bounds (Extended K)} (hl : b.lower.length = o.size) (hu : b.upper.length = o.size)

include hl hu

theorem Bounds.restricts_inOrder : (b.inOrder o).restricts = b.restricts := by
  rw [restricts, inOrder, Extended.maximum?_perm (Order.apply_perm hl),
    Extended.minimum?_perm (Order.apply_perm hu), restricts]

theorem Bounds.halfWidth_inOrder : (b.inOrder o).halfWidth = b.halfWidth := by
  have hlen : b.upper.length = b.lower.length := hu.trans hl.symm
  have hwidths : (List.zipWith (· - ·) b.upper b.lower).length = o.size := by simp [hl, hu]
  rw [halfWidth, inOrder, (Order.apply_perm hl).isEmpty_eq,
    entrywise_of_length_eq _ ((Order.length_apply hu).trans (Order.length_apply hl).symm),
    ← Order.apply_zipWith _ hlen, halfWidth, entrywise_of_length_eq _ hlen]
  have hleast := Extended.minimum?_perm (Order.apply_perm hwidths)
  simp only [bind, Except.bind, hleast]

/-- The same excess over the bounds at the point in the order, but in another order. -/
theorem Bounds.excess_inOrder {x : List (Extended K)} (hx : x.length = o.size) :
    ∃ excess excess', b.excess x = .ok excess ∧ (b.inOrder o).excess (o.apply x) = .ok excess' ∧
      excess'.Perm excess := by
  have hx' := Order.length_apply hx
  refine ⟨_, _, excess_eq hl hu hx, excess_eq (Order.length_apply hl) (Order.length_apply hu) hx', ?_⟩
  have hbelow : (List.zipWith (· - ·) b.lower x).length = b.lower.length := by simp [hl, hx]
  have habove : (List.zipWith (· - ·) x b.upper).length = b.upper.length := by simp [hu, hx]
  rw [inOrder, ← Order.apply_zipWith _ (hl.trans hx.symm), ← Order.apply_zipWith _ (hx.trans hu.symm),
    ← Order.apply_map, ← Order.apply_map, ← Order.apply_zipWith _ (by rw [hbelow, List.length_map]),
    ← Order.apply_zipWith _ (by rw [habove, List.length_map])]
  -- the excesses over lower bounds come first, in whatever order, and those over upper ones second
  apply List.Perm.append
  · exact Order.apply_perm (by simp [hl, hx])
  · exact Order.apply_perm (by simp [hu, hx])

end

/-- The facts about constraints go along with an order. -/
theorem Facts.ofConstraints_inOrder {s t : LinearSystem (Extended K)} {b : Bounds (Extended K)}
    {f : Facts (Extended K)} (hs : s.Fits o.size) (ht : t.Fits o.size) (hl : b.lower.length = o.size)
    (hu : b.upper.length = o.size)
    (h : ofConstraints ⟨.ofSystem .inequalities s, .ofSystem .equalities t⟩ b = .ok f) :
    ofConstraints ⟨.ofSystem .inequalities (s.inOrder o), .ofSystem .equalities (t.inOrder o)⟩
      (b.inOrder o) = .ok (f.inOrder o) := by
  have hlen : b.fixed.length = o.size := by simp [Bounds.fixed, hl, hu]
  have hfixed : (b.inOrder o).fixed = o.apply b.fixed := Bounds.fixed_inOrder hl hu
  have hvalues : (b.inOrder o).middles (o.apply b.fixed)
      = .ok ((o.onMarked b.fixed).apply (b.elimination b.fixed).fixedValues) := by
    rw [Bounds.middles_eq (Order.length_apply hl) (Order.length_apply hu) (Order.length_apply hlen),
      Bounds.elimination_inOrder hl hu hlen, Elimination.inOrder, Elimination.fixed,
      Bounds.elimination, Mask.others_others]
  have hinfeasible := Bounds.infeasible_inOrder hl hu
  simp only [ofConstraints, Bounds.middles_eq hl hu hlen, bind_eq_ok, pure_eq_ok, Except.ok.injEq,
    exists_eq_left'] at h
  rw [← h, ofConstraints, hs.checked_inOrder, ht.checked_inOrder, hfixed, hvalues, hinfeasible]
  rfl

/-! ## Problems, exactly -/

namespace Problem.Reorders

variable {p q : Problem (Extended K)} (h : p.Reorders o q) (hp : p.Fits o.size)

include h hp

theorem withoutTrivialRows : p.withoutTrivialRows.Reorders o q.withoutTrivialRows where
  start_eq := h.start_eq
  inequalities_eq := by
    simp only [Problem.withoutTrivialRows, h.inequalities_eq, hp.inequalities.checked_inOrder]
  equalities_eq := by
    simp only [Problem.withoutTrivialRows, h.equalities_eq, hp.equalities.checked_inOrder]
  bounds_eq := h.bounds_eq
  objective := h.objective
  constraints := h.constraints

/-- The kind of a problem does not depend on the order of the variables. -/
theorem kind_eq : q.kind = p.kind := by
  rw [kind, kind, ProblemKind.ofConstraints, ProblemKind.ofConstraints, h.isSome_constraints,
    h.inequalities_eq, h.equalities_eq, h.bounds_eq, hp.inequalities.hasRows_inOrder,
    hp.equalities.hasRows_inOrder, Bounds.restricts_inOrder hp.length_lower hp.length_upper]

theorem halfWidth_eq : q.bounds.halfWidth = p.bounds.halfWidth := by
  rw [h.bounds_eq, Bounds.halfWidth_inOrder hp.length_lower hp.length_upper]

theorem isRevised_eq {x : List (Extended K)} (hx : x.length = o.size) :
    q.isRevised (o.apply x) = p.isRevised x := by
  have hstart := hp.length_start
  have hlen : p.start.length = x.length := hstart.trans hx.symm
  have hdifference : (List.zipWith (· - ·) p.start x).length = o.size := by simp [hstart, hx]
  rw [isRevised, isRevised, h.start_eq, entrywise_of_length_eq _ hlen,
    entrywise_of_length_eq _ ((Order.length_apply hstart).trans (Order.length_apply hx).symm),
    ← Order.apply_zipWith _ hlen]
  exact congrArg Except.ok (Extended.farther_apply hdifference hstart)

/-- The constraints are violated as much at the point in the order. -/
theorem violationAt_eq [Interchange (Extended K)] {x : List (Extended K)} (hx : x.length = o.size) :
    q.violationAt (o.apply x) = p.violationAt x := by
  have hconstraints : constraintExcess q.constraints (o.apply x) = constraintExcess p.constraints x := by
    have hrel := h.constraints
    generalize p.constraints = f?, q.constraints = g? at hrel
    cases hrel with
    | none => rfl
    | some hfg => rw [constraintExcess, hfg x hx, constraintExcess]
  obtain ⟨excess, excess', hexcess, hexcess', hperm⟩ :=
    Bounds.excess_inOrder hp.length_lower hp.length_upper hx
  have hworst (ys : List (Extended K)) : worst (excess' ++ ys) = worst (excess ++ ys) :=
    Extended.worst_perm (hperm.append_right ys)
  simp only [Problem.violationAt, violation, h.bounds_eq, h.inequalities_eq, h.equalities_eq, hexcess,
    hexcess', hp.inequalities.excess_inOrder hx, hp.equalities.excess_inOrder hx, hconstraints,
    List.append_assoc]
  simp only [bind, Except.bind, hworst]

/-- The start that a problem is moved to goes along with the order, unless it has to be searched for. -/
theorem feasibleStart_eq {search : NearestSearch (Extended K)} {kind : ProblemKind}
    (hkind : kind ≠ .linearlyConstrained) :
    q.feasibleStart search kind = (p.feasibleStart search kind).map fun s => (o.apply s.1, s.2) := by
  have hclip := Bounds.clip_inOrder hp.length_lower hp.length_upper hp.length_start
  cases kind with
  | unconstrained | nonlinearlyConstrained =>
    rw [feasibleStart, h.start_eq]
    rfl
  | boundConstrained =>
    rw [feasibleStart, h.bounds_eq, h.start_eq, hclip, feasibleStart]
    cases p.bounds.clip p.start <;> rfl
  | linearlyConstrained => exact absurd rfl hkind

/-- The problem in the free variables goes along with the order that these come in. -/
theorem reducedBy {e : Elimination (Extended K)} (he : e.Fits o.size) :
    (p.reducedBy e).Reorders (o.onMarked e.free) (q.reducedBy (e.inOrder o)) where
  start_eq := by
    rw [Problem.reducedBy, h.start_eq]
    exact he.select_inOrder hp.length_start
  inequalities_eq := by
    rw [Problem.reducedBy, h.inequalities_eq]
    exact hp.inequalities.reducedSystem_inOrder he
  equalities_eq := by
    rw [Problem.reducedBy, h.equalities_eq]
    exact hp.equalities.reducedSystem_inOrder he
  bounds_eq := by
    simp only [Problem.reducedBy, h.bounds_eq, Bounds.inOrder, he.select_inOrder hp.length_lower,
      he.select_inOrder hp.length_upper]
  objective := .some (he.onFree_reorders h.objective)
  constraints := rel_map h.constraints fun _ _ hfg => he.onFree_reorders (.some hfg)

/-- The problem in the canonical variables goes along with the order. -/
theorem rescaledBy {r : Rescaling (Extended K)} (hr : r.Fits o.size) :
    (p.rescaledBy r).Reorders o (q.rescaledBy (r.inOrder o)) where
  start_eq := by
    rw [Problem.rescaledBy, h.start_eq]
    exact hr.toCanonical_inOrder hp.length_start
  inequalities_eq := by
    rw [Problem.rescaledBy, h.inequalities_eq]
    exact hp.inequalities.rescaledSystem_inOrder hr
  equalities_eq := by
    rw [Problem.rescaledBy, h.equalities_eq]
    exact hp.equalities.rescaledSystem_inOrder hr
  bounds_eq := by
    simp only [Problem.rescaledBy, h.bounds_eq, Bounds.inOrder, hr.toCanonical_inOrder hp.length_lower,
      hr.toCanonical_inOrder hp.length_upper]
  objective := .some (hr.onCanonical_reorders h.objective)
  constraints := rel_map h.constraints fun _ _ hfg => hr.onCanonical_reorders (.some hfg)

end Problem.Reorders

theorem Rescaling.Fits.ratio_inOrder {r : Rescaling (Extended K)} (h : r.Fits o.size) :
    (r.inOrder o).ratio = r.ratio := by
  rw [ratio, Rescaling.inOrder, Extended.maximum?_perm (Order.apply_perm h.1),
    Extended.minimum?_perm (Order.apply_perm h.1), ratio]

end

end Presolve
