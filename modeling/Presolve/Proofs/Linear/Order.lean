import Mathlib.Data.List.Perm.Basic
import Presolve.Proofs.Linear.Mask

/-!
# Vectors in another order

An order lists the places of a vector, each of them once; `apply` puts the entries of a vector into it. An
operation that goes entry by entry commutes with that, and one that does not depend on the order at all
gives the same result (`apply_perm`).

A mask needs an order of its own on each side. If a vector is put into an order and so is the mask, the
marked entries come in the order `onMarked`, which ranks the marked places among each other.
-/

namespace Presolve

variable {α β γ : Type}

/-- All places of a vector in some order. -/
@[ext]
structure Order where
  places : List Nat
  perm : places.Perm (List.range places.length)

namespace Order

/-- The number of entries of the vectors that the order is for. -/
def size (o : Order) : Nat := o.places.length

/-- The entries of a vector in the order. -/
def apply (o : Order) (xs : List α) : List α := o.places.filterMap (xs[·]?)

variable {o : Order} {xs : List α} {ys : List β} {m : List Bool}

theorem lt_size {i : Nat} (h : i ∈ o.places) : i < o.size := by
  have hi : i ∈ List.range o.places.length := o.perm.mem_iff.1 h
  exact List.mem_range.1 hi

/-! ## Entries -/

theorem apply_map (f : α → β) : o.apply (xs.map f) = (o.apply xs).map f := by
  rw [apply, apply, List.map_filterMap]
  simp only [List.getElem?_map]

theorem apply_zipWith (f : α → β → γ) (h : xs.length = ys.length) :
    o.apply (List.zipWith f xs ys) = List.zipWith f (o.apply xs) (o.apply ys) := by
  unfold apply
  induction o.places with
  | nil => rfl
  | cons i places ih =>
    by_cases hi : i < xs.length
    · have hy : i < ys.length := h ▸ hi
      have hz : i < (List.zipWith f xs ys).length := by
        rw [List.length_zipWith]
        omega
      simp [List.getElem?_eq_getElem hi, List.getElem?_eq_getElem hy, List.getElem?_eq_getElem hz, ih]
    · have hx : xs[i]? = none := List.getElem?_eq_none (by omega)
      have hz : (List.zipWith f xs ys)[i]? = none :=
        List.getElem?_eq_none (by rw [List.length_zipWith]; omega)
      have hy : ys[i]? = none := List.getElem?_eq_none (by omega)
      simp only [List.filterMap_cons, hx, hy, hz, ih]

/-- The order in which the places are listed anyway. -/
theorem filterMap_range (xs : List α) : (List.range xs.length).filterMap (xs[·]?) = xs := by
  induction xs with
  | nil => rfl
  | cons x xs ih =>
    rw [List.length_cons, List.range_succ_eq_map, List.filterMap_cons, List.filterMap_map]
    simpa [Function.comp_def] using ih

/-- In an order there are the same entries. -/
theorem apply_perm (h : xs.length = o.size) : (o.apply xs).Perm xs := by
  have hplaces := o.perm.filterMap (xs[·]?)
  have hall := filterMap_range xs
  rw [h] at hall
  exact hplaces.trans (.of_eq hall)

theorem length_apply (h : xs.length = o.size) : (o.apply xs).length = o.size :=
  (apply_perm h).length_eq.trans h

theorem apply_zip (h : xs.length = ys.length) :
    o.apply (List.zip xs ys) = List.zip (o.apply xs) (o.apply ys) := apply_zipWith Prod.mk h

/-! ## Masks in an order -/

theorem any_apply (h : m.length = o.size) : (o.apply m).any id = m.any id := (apply_perm h).any_eq

theorem all_apply (h : m.length = o.size) : (o.apply m).all id = m.all id := (apply_perm h).all_eq

theorem count_apply (h : m.length = o.size) : Mask.count (o.apply m) = Mask.count m :=
  (apply_perm h).count_eq true

theorem others_apply (o : Order) (m : List Bool) : Mask.others (o.apply m) = o.apply (Mask.others m) :=
  (apply_map not).symm

/-! ## Marked entries -/

/-- The number of marked places before a place. -/
def rank (m : List Bool) (i : Nat) : Nat := Mask.count (m.take i)

/-- The marked places of a vector are ranked by the numbers up to how many there are. -/
theorem map_rank_range (m : List Bool) (n : Nat) :
    ((List.range n).filter fun i => m[i]?.getD false).map (rank m)
      = List.range (Mask.count (m.take n)) := by
  induction n with
  | zero => rfl
  | succ n ih =>
    rw [List.range_succ, List.filter_append, List.map_append, ih, List.take_add_one, Mask.count, Mask.count,
      List.count_append]
    cases h : m[n]? with
    | none => simp [h]
    | some b =>
      cases b with
      | true => simp [h, List.range_succ, rank, Mask.count]
      | false => simp [h]

/-- The places that a mask marks, in order. -/
def markedPlaces (m : List Bool) : List Nat := (List.range m.length).filter fun i => m[i]?.getD false

/-- They are ranked one after the other. -/
theorem map_rank_markedPlaces (m : List Bool) :
    (markedPlaces m).map (rank m) = List.range (Mask.count m) := by
  rw [markedPlaces, map_rank_range, List.take_length]

/-- The order that the marked entries of a vector come in, if both the vector and the mask are put into an
order. -/
def onMarked (o : Order) (m : List Bool) : Order where
  places := (o.places.filter fun i => m[i]?.getD false).map (rank m)
  perm := by
    have hranks := (o.perm.filter fun i => m[i]?.getD false).map (rank m)
    rw [map_rank_range] at hranks
    have hlen := hranks.length_eq
    rw [List.length_range] at hlen
    rwa [hlen]

theorem size_onMarked (h : m.length = o.size) : (o.onMarked m).size = Mask.count m := by
  have hranks := (o.perm.filter fun i => m[i]?.getD false).map (rank m)
  have hall : m.take o.places.length = m := List.take_of_length_le h.le
  rw [map_rank_range, hall] at hranks
  exact hranks.length_eq.trans List.length_range

/-- A marked entry is found among the marked ones at its rank. -/
theorem getElem?_select (h : m.length = xs.length) {i : Nat} (hi : m[i]? = some true) :
    (Mask.select m xs)[rank m i]? = xs[i]? := by
  induction m generalizing xs i with
  | nil => simp at hi
  | cons b m ih =>
    cases xs with
    | nil => simp at h
    | cons x xs =>
      have hlen : m.length = xs.length := by simpa using h
      cases i with
      | zero =>
        obtain rfl : b = true := by simpa using hi
        rfl
      | succ i =>
        have ih := ih hlen (i := i) (by simpa using hi)
        -- a first entry that is marked shifts the ranks of the others by one
        cases b with
        | true => simpa [Mask.select, rank, Mask.count] using ih
        | false => simpa [Mask.select, rank, Mask.count] using ih

/-- At a marked place, two vectors put together have the entry of the first one at its rank. -/
theorem getElem?_merge {xs ys : List α} (hx : xs.length = Mask.count m)
    (hy : ys.length = Mask.count (Mask.others m)) {i : Nat} (hi : m[i]? = some true) :
    (Mask.merge m xs ys)[i]? = xs[rank m i]? := by
  have hselect := getElem?_select (Mask.length_merge hx hy).symm hi
  rw [Mask.select_merge hx hy] at hselect
  exact hselect.symm

/-- At any other place they have the entry of the second one at its rank among those places. -/
theorem getElem?_merge_of_unmarked {xs ys : List α} (hx : xs.length = Mask.count m)
    (hy : ys.length = Mask.count (Mask.others m)) {i : Nat} (hi : m[i]? = some false) :
    (Mask.merge m xs ys)[i]? = ys[rank (Mask.others m) i]? := by
  have hother : (Mask.others m)[i]? = some true := by simp [Mask.others, hi]
  rw [← Mask.merge_others]
  exact getElem?_merge hy (by rwa [Mask.others_others]) hother

/-- The marked entries of a vector in an order. -/
theorem select_apply (hm : m.length = o.size) (hx : xs.length = o.size) :
    Mask.select (o.apply m) (o.apply xs) = (o.onMarked m).apply (Mask.select m xs) := by
  have hlen : m.length = xs.length := hm.trans hx.symm
  -- place by place, so over any places that the vector has
  have hplaces : ∀ places : List Nat, (∀ i ∈ places, i < m.length) →
      Mask.select (places.filterMap (m[·]?)) (places.filterMap (xs[·]?))
        = ((places.filter fun i => m[i]?.getD false).map (rank m)).filterMap
          ((Mask.select m xs)[·]?) := by
    intro places hlt
    induction places with
    | nil => rfl
    | cons i places ih =>
      have hi : i < m.length := hlt i List.mem_cons_self
      have hix : i < xs.length := hlen ▸ hi
      have ih := ih fun i hi => hlt i (List.mem_cons_of_mem _ hi)
      have hmi := List.getElem?_eq_getElem hi
      have hxi := List.getElem?_eq_getElem hix
      cases hb : m[i] with
      | true =>
        rw [hb] at hmi
        have hselect := getElem?_select hlen hmi
        rw [hxi] at hselect
        simp only [List.filterMap_cons, hmi, hxi, List.filter_cons, Option.getD_some, if_true,
          List.map_cons, hselect, Mask.select]
        rw [ih]
      | false =>
        rw [hb] at hmi
        simp only [List.filterMap_cons, hmi, hxi, List.filter_cons, Option.getD_some,
          Bool.false_eq_true, if_false, Mask.select]
        rw [ih]
  exact hplaces o.places fun i hi => hm ▸ lt_size hi

/-- Two vectors in their orders are put together in the order of the whole. -/
theorem merge_apply {xs ys : List α} (hm : m.length = o.size) (hx : xs.length = Mask.count m)
    (hy : ys.length = Mask.count (Mask.others m)) :
    Mask.merge (o.apply m) ((o.onMarked m).apply xs) ((o.onMarked (Mask.others m)).apply ys)
      = o.apply (Mask.merge m xs ys) := by
  have hlen : (Mask.merge m xs ys).length = o.size := (Mask.length_merge hx hy).trans hm
  have hothers : (Mask.others m).length = o.size := by rw [Mask.length_others, hm]
  -- each part is what its mask selects from the whole
  have hmarked := select_apply hm hlen
  have hrest := select_apply hothers hlen
  rw [Mask.select_merge hx hy] at hmarked
  rw [Mask.select_others_merge hx hy] at hrest
  rw [← hmarked, ← hrest, ← others_apply]
  exact Mask.merge_select ((length_apply hm).trans (length_apply hlen).symm)

/-- If every place is marked, the order stays. -/
theorem onMarked_of_all (hm : m.length = o.size) (h : m.all id = true) : o.onMarked m = o := by
  have hmark : ∀ i ∈ o.places, m[i]?.getD false = true := by
    intro i hi
    have hlt : i < m.length := hm ▸ lt_size hi
    rw [List.getElem?_eq_getElem hlt]
    exact List.all_eq_true.1 h _ (List.getElem_mem hlt)
  have hrank : ∀ i ∈ o.places, rank m i = i := by
    intro i hi
    have hlt : i < m.length := hm ▸ lt_size hi
    have hall : (m.take i).all id = true := by
      rw [List.all_eq_true]
      exact fun b hb => List.all_eq_true.1 h b (List.mem_of_mem_take hb)
    rw [rank, Mask.count_of_all hall, List.length_take]
    omega
  have hplaces : (o.places.filter fun i => m[i]?.getD false).map (rank m) = o.places := by
    rw [List.filter_eq_self.2 hmark, List.map_congr_left hrank, List.map_id']
  exact Order.ext hplaces

end Order
end Presolve
