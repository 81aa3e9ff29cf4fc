import Presolve.Proofs.Linear.Order
import Presolve.Proofs.Number.Extended
import Presolve.Proofs.Transform.Elimination

/-!
# Where the coordinates go

Expanding a point of the free variables scatters its entries over the free places and the values of the
fixed variables over the others. Which entry comes to a place is found by counting: it is the one whose index
is the number of places of the same kind in front (`Order.rank`). These numbers run through all indices in
order (`Order.map_rank_markedPlaces`), so no coordinate is lost, comes twice or changes places with another
one (`Elimination.keeps_coordinates`).

Nothing is calculated on the way. This is about entries of any type, so undefined numbers arrive as they are.
-/

namespace Presolve.Elimination

variable {α : Type} {e : Elimination α} {n : Nat} {x y : List α}

namespace Fits

/-! ## Scattering -/

theorem getElem?_expand (h : e.Fits n) (hy : y.length = e.dimension) {i : Nat}
    (hi : e.free[i]? = some true) :
    (Mask.merge e.free y e.fixedValues)[i]? = y[Order.rank e.free i]? :=
  Order.getElem?_merge hy h.2 hi

theorem getElem?_expand_of_fixed (h : e.Fits n) (hy : y.length = e.dimension) {i : Nat}
    (hi : e.free[i]? = some false) :
    (Mask.merge e.free y e.fixedValues)[i]? = e.fixedValues[Order.rank e.fixed i]? :=
  Order.getElem?_merge_of_unmarked hy h.2 hi

/-- The entries of a point come back from where they were put. -/
theorem restrict_expand (h : e.Fits n) (hy : y.length = e.dimension) :
    e.restrict (Mask.merge e.free y e.fixedValues) = .ok y := by
  rw [h.restrict_eq (h.length_expand hy), Mask.select_merge hy h.2]

/-- A function of the free variables is called with the expanded point. -/
theorem onFree_eq (h : e.Fits n) (hy : y.length = e.dimension) (f : Evaluator α) :
    e.onFree (some f) y = f (Mask.merge e.free y e.fixedValues) := by
  rw [onFree, h.expand_eq hy]
  rfl

/-! ## Gathering -/

/-- A point that is restricted and expanded again keeps its free entries. -/
theorem getElem?_expand_restrict (h : e.Fits n) (hx : x.length = n) {i : Nat}
    (hi : e.free[i]? = some true) :
    (Mask.merge e.free (Mask.select e.free x) e.fixedValues)[i]? = x[i]? :=
  calc (Mask.merge e.free (Mask.select e.free x) e.fixedValues)[i]?
      = (Mask.select e.free x)[Order.rank e.free i]? := h.getElem?_expand (h.length_restrict hx) hi
    _ = x[i]? := Order.getElem?_select (h.1.trans hx.symm) hi

end Fits

/-! ## Both ways -/

/-- Scattering and gathering are exact. A point of the free variables is expanded to one that has its entries
at the free places and the fixed values at the others, each found by counting the places of its kind in
front; restricting gives the point back, and functions are called with the expanded point. A point of all
variables that is restricted and expanded again keeps its free entries and gets the fixed values elsewhere.
Counted in this way, the free places take all indices of the entries of a point, in order, and the fixed ones
all indices of the values. -/
theorem keeps_coordinates (e : Elimination α) (hvalues : e.fixedValues.length = Mask.count e.fixed) :
    (∀ y, y.length = e.dimension → ∃ x, e.expand y = .ok x ∧ x.length = e.fullDimension ∧
      (∀ i : Nat, e.free[i]? = some true → x[i]? = y[Order.rank e.free i]?) ∧
      (∀ i : Nat, e.free[i]? = some false → x[i]? = e.fixedValues[Order.rank e.fixed i]?) ∧
      e.restrict x = .ok y ∧ ∀ f, e.onFree (some f) y = f x) ∧
    (∀ x, x.length = e.fullDimension → ∃ y z, e.restrict x = .ok y ∧ y.length = e.dimension ∧
      e.expand y = .ok z ∧ z.length = e.fullDimension ∧
      (∀ i : Nat, e.free[i]? = some true → z[i]? = x[i]?) ∧
      (∀ i : Nat, e.free[i]? = some false → z[i]? = e.fixedValues[Order.rank e.fixed i]?)) ∧
    (Order.markedPlaces e.free).map (Order.rank e.free) = List.range e.dimension ∧
    (Order.markedPlaces e.fixed).map (Order.rank e.fixed) = List.range e.fixedValues.length := by
  have he : e.Fits e.fullDimension := ⟨rfl, hvalues⟩
  refine ⟨?scattered, ?gathered, ?free, ?fixed⟩
  case scattered =>
    intro y hy
    refine ⟨_, he.expand_eq hy, he.length_expand hy, ?_, ?_, he.restrict_expand hy, he.onFree_eq hy⟩
    · exact fun i hi => he.getElem?_expand hy hi
    · exact fun i hi => he.getElem?_expand_of_fixed hy hi
  case gathered =>
    intro x hx
    have hy := he.length_restrict hx
    refine ⟨_, _, he.restrict_eq hx, hy, he.expand_eq hy, he.length_expand hy, ?_, ?_⟩
    · exact fun i hi => he.getElem?_expand_restrict hx hi
    · exact fun i hi => he.getElem?_expand_of_fixed hy hi
  case free => exact Order.map_rank_markedPlaces e.free
  case fixed =>
    rw [hvalues]
    exact Order.map_rank_markedPlaces e.fixed

open Extended

/-- Six variables of which three are fixed, the first and the last among them. -/
def scatteredVariables : Elimination (Extended ℚ) where
  free := [false, true, true, false, true, false]
  fixedValues := [finite 7, finite (-1), finite 5]

/-- The fourth variable gets the second of the values and the fifth the third entry of a point, which is
undefined. A point of all variables keeps its fifth entry and loses the fourth one. -/
theorem keeps_coordinates_scatteredVariables :
    scatteredVariables.fixedValues.length = Mask.count scatteredVariables.fixed ∧
      (∃ x, scatteredVariables.expand [finite (1 / 4), top, undefined] = .ok x ∧ x.length = 6 ∧
        x[3]? = some (finite (-1 : ℚ)) ∧ x[4]? = some undefined ∧
        scatteredVariables.restrict x = .ok [finite (1 / 4), top, undefined]) ∧
      ∃ y z, scatteredVariables.restrict
          [finite 10, finite 11, finite 12, finite 13, finite 14, finite 15] = .ok y ∧
        scatteredVariables.expand y = .ok z ∧ z[3]? = some (finite (-1 : ℚ)) ∧
        z[4]? = some (finite (14 : ℚ)) := by
  have hvalues : scatteredVariables.fixedValues.length = Mask.count scatteredVariables.fixed := rfl
  obtain ⟨hscattered, hgathered, -, -⟩ := keeps_coordinates scatteredVariables hvalues
  obtain ⟨x, hx, hlen, hfree, hfixed, hback, -⟩ := hscattered [finite (1 / 4), top, undefined] rfl
  obtain ⟨y, z, hy, -, hz, -, hkept, hgiven⟩ :=
    hgathered [finite 10, finite 11, finite 12, finite 13, finite 14, finite 15] rfl
  exact ⟨hvalues, ⟨x, hx, hlen, hfixed 3 rfl, hfree 4 rfl, hback⟩, y, z, hy, hz, hgiven 3 rfl, hkept 4 rfl⟩

end Presolve.Elimination
