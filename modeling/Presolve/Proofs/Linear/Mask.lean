import Mathlib.Data.Bool.Count
import Mathlib.Data.List.Count
import Mathlib.Data.List.Forall2
import Presolve.Linear.Mask

/-!
# Laws of masks

Taking the marked entries out of a vector and putting two vectors together undo each other. Most
statements below are about both parts of a vector at once: the entries that a mask `m` marks,
`select m`, and those that it leaves, `select (others m)`.
-/

namespace Presolve.Mask

variable {α β γ : Type}

@[simp] theorem length_others (m : List Bool) : (others m).length = m.length := by simp [others]

@[simp] theorem others_others (m : List Bool) : others (others m) = m := by
  simp [others, Function.comp_def]

@[simp] theorem others_cons (b : Bool) (m : List Bool) : others (b :: m) = (!b) :: others m := rfl

/-- Some place is marked if not all of the other mask's are. -/
theorem count_others_pos {m : List Bool} (h : m.all id = false) : 0 < count (others m) := by
  rw [count, List.count_pos_iff]
  obtain ⟨b, hb, hfalse⟩ := List.all_eq_false.1 h
  have : b = false := by simpa using hfalse
  exact List.mem_map.2 ⟨b, hb, by simp [this]⟩

/-- Every place is marked in a mask or in the other one. -/
theorem count_others (m : List Bool) : count (others m) = m.length - count m := by
  have hunmarked : count (others m) = m.count false :=
    List.count_map_of_injective m not (fun _ _ => Bool.not_inj) false
  have htotal : m.count false + m.count true = m.length := List.count_false_add_count_true m
  rw [hunmarked, count]
  omega

theorem count_of_all {m : List Bool} (h : m.all id = true) : count m = m.length := by
  rw [count, List.count_eq_length]
  intro b hb
  exact (List.all_eq_true.1 h b hb).symm

/-! ## Selecting -/

theorem pick_eq {m : List Bool} {xs : List α} (h : m.length = xs.length) :
    pick m xs = .ok (select m xs) := by
  simp [pick, h]

theorem mem_of_mem_select {m : List Bool} {xs : List α} {x : α} (h : x ∈ select m xs) :
    x ∈ xs := by
  induction m generalizing xs with
  | nil => simp [select] at h
  | cons b m ih =>
    cases xs with
    | nil => cases b <;> simp [select] at h
    | cons y ys =>
      cases b with
      | true =>
        rcases List.mem_cons.1 h with rfl | h
        · exact List.mem_cons_self
        · exact List.mem_cons_of_mem _ (ih h)
      | false => exact List.mem_cons_of_mem _ (ih h)

theorem select_map (f : α → β) (m : List Bool) (xs : List α) :
    select m (xs.map f) = (select m xs).map f := by
  induction m generalizing xs with
  | nil => simp [select]
  | cons b m ih => cases xs <;> cases b <;> simp [select, ih]

theorem select_zipWith (f : α → β → γ) (m : List Bool) (xs : List α) (ys : List β) :
    select m (List.zipWith f xs ys) = List.zipWith f (select m xs) (select m ys) := by
  induction m generalizing xs ys with
  | nil => simp [select]
  | cons b m ih => cases xs <;> cases ys <;> cases b <;> simp [select, ih]

/-- No entry of a mask is marked where the mask does not mark it. -/
theorem any_select_others_self (m : List Bool) : (select (others m) m).any id = false := by
  induction m with
  | nil => rfl
  | cons b m ih => cases b <;> simpa [select] using ih

theorem any_select {m xs : List Bool} (h : xs.any id = false) : (select m xs).any id = false := by
  rw [List.any_eq_false] at h ⊢
  exact fun x hx => h x (mem_of_mem_select hx)

/-- Where everything is marked nothing is left out. -/
theorem select_of_all {m : List Bool} {xs : List α} (hlen : m.length = xs.length) (h : m.all id = true) :
    select m xs = xs := by
  induction m generalizing xs with
  | nil => exact (List.length_eq_zero_iff.1 hlen.symm).symm
  | cons b m ih =>
    cases xs with
    | nil => cases hlen
    | cons x xs =>
      obtain ⟨rfl, hm⟩ : b = true ∧ m.all id = true := by simpa using h
      rw [select, ih (Nat.succ.inj hlen) hm]

/-- Leaving out the places that one test marks loses no flag of another test, if no place passes both. -/
theorem any_select_others_zipWith {f g : α → β → Bool} (h : ∀ x y, f x y = true → g x y = false)
    (xs : List α) (ys : List β) :
    (select (others (List.zipWith f xs ys)) (List.zipWith g xs ys)).any id
      = (List.zipWith g xs ys).any id := by
  induction xs generalizing ys with
  | nil => rfl
  | cons x xs ih =>
    cases ys with
    | nil => rfl
    | cons y ys =>
      rw [List.zipWith_cons_cons, List.zipWith_cons_cons, others_cons, List.any_cons, ← ih ys]
      cases hxy : f x y with
      | true => simp [select, h x y hxy]
      | false => simp [select]

/-- What holds of the pairs of entries holds of those that are marked. -/
theorem forall₂_select {R : α → β → Prop} {xs : List α} {ys : List β} (m : List Bool)
    (h : List.Forall₂ R xs ys) : List.Forall₂ R (select m xs) (select m ys) := by
  induction h generalizing m with
  | nil =>
    rcases m with _ | ⟨_ | _, _⟩ <;> exact List.Forall₂.nil
  | cons hxy _ ih =>
    rcases m with _ | ⟨_ | _, m⟩
    · exact List.Forall₂.nil
    · exact ih m
    · exact List.Forall₂.cons hxy (ih m)

/-- The entries marked by a test of pairs pass it. -/
theorem forall₂_select_zipWith (t : α → β → Bool) (xs : List α) (ys : List β) :
    List.Forall₂ (fun x y => t x y = true) (select (List.zipWith t xs ys) xs)
      (select (List.zipWith t xs ys) ys) := by
  induction xs generalizing ys with
  | nil => exact List.Forall₂.nil
  | cons x xs ih =>
    cases ys with
    | nil => exact List.Forall₂.nil
    | cons y ys =>
      rw [List.zipWith_cons_cons]
      -- the first pair is among the marked ones exactly if it passes
      cases h : t x y
      · exact ih ys
      · exact List.Forall₂.cons h (ih ys)

/-- Entries that satisfy a relation in any case may be left out of a test of it. -/
theorem forall₂_select_others_zipWith {R : α → β → Prop} {t : α → β → Bool} {xs : List α}
    {ys : List β} (hlen : xs.length = ys.length) (ht : ∀ x ∈ xs, ∀ y, t x y = true → R x y) :
    List.Forall₂ R (select (others (List.zipWith t xs ys)) xs)
        (select (others (List.zipWith t xs ys)) ys) ↔ List.Forall₂ R xs ys := by
  induction xs generalizing ys with
  | nil =>
    cases ys with
    | nil => exact Iff.rfl
    | cons y ys => simp at hlen
  | cons x xs ih =>
    cases ys with
    | nil => simp at hlen
    | cons y ys =>
      have hrest : xs.length = ys.length := by simpa using hlen
      have ih := ih hrest fun x' hx' => ht x' (List.mem_cons_of_mem x hx')
      rw [List.zipWith_cons_cons, others_cons, List.forall₂_cons]
      cases h : t x y with
      | true =>
        -- the pair is left out on the one side and holds in any case on the other
        have hxy := ht x List.mem_cons_self y h
        exact ih.trans (and_iff_right hxy).symm
      | false => exact List.forall₂_cons.trans (and_congr_right fun _ => ih)

/-- Of a constant vector only the number of marked entries matters. -/
theorem select_replicate {m : List Bool} {n : Nat} (h : m.length = n) (x : α) :
    select m (List.replicate n x) = List.replicate (count m) x := by
  subst h
  induction m with
  | nil => rfl
  | cons b m ih => cases b <;> simpa [select, count, List.replicate_succ] using ih

/-! ## Merging -/

section

variable {m : List Bool} {xs ys zs : List α}

theorem length_merge (hx : xs.length = count m) (hy : ys.length = count (others m)) :
    (merge m xs ys).length = m.length := by
  -- each place takes an entry from the vector that it belongs to, so both vectors vary
  induction m generalizing xs ys with
  | nil => rfl
  | cons b m ih =>
    cases b with
    | true =>
      cases xs with
      | nil => simp [count] at hx
      | cons x xs => simpa [merge] using ih (by simpa [count] using hx) (by simpa [count] using hy)
    | false =>
      cases ys with
      | nil => simp [count] at hy
      | cons y ys => simpa [merge] using ih (by simpa [count] using hx) (by simpa [count] using hy)

theorem merge_map (f : α → β) : ∀ (m : List Bool) (xs ys : List α),
    merge m (xs.map f) (ys.map f) = (merge m xs ys).map f
  | [], _, _ => rfl
  | true :: _, [], _ => rfl
  | true :: m, x :: xs, ys => by simp [merge, ← merge_map f m xs ys]
  | false :: _, _, [] => by simp [merge]
  | false :: m, xs, y :: ys => by simp [merge, ← merge_map f m xs ys]

theorem mem_of_mem_merge {z : α} (h : z ∈ merge m xs ys) : z ∈ xs ∨ z ∈ ys := by
  induction m generalizing xs ys with
  | nil => simp [merge] at h
  | cons b m ih =>
    cases b with
    | true =>
      cases xs with
      | nil => simp [merge] at h
      | cons x xs =>
        rcases List.mem_cons.1 h with rfl | h
        · exact .inl List.mem_cons_self
        · exact (ih h).imp_left (List.mem_cons_of_mem x)
    | false =>
      cases ys with
      | nil => simp [merge] at h
      | cons y ys =>
        rcases List.mem_cons.1 h with rfl | h
        · exact .inr List.mem_cons_self
        · exact (ih h).imp_right (List.mem_cons_of_mem y)

/-- Filling the marked places of any vector and reading them gives the same entries back. -/
theorem select_merge (hx : xs.length = count m) (hy : ys.length = count (others m)) :
    select m (merge m xs ys) = xs := by
  induction m generalizing xs ys with
  | nil => simpa [count, merge, select, eq_comm] using hx
  | cons b m ih =>
    cases b with
    | true =>
      cases xs with
      | nil => simp [count] at hx
      | cons x xs =>
        simpa [merge, select] using ih (by simpa [count] using hx) (by simpa [count] using hy)
    | false =>
      cases ys with
      | nil => simp [count] at hy
      | cons y ys =>
        simpa [merge, select] using ih (by simpa [count] using hx) (by simpa [count] using hy)

/-- A vector is put together from the entries that a mask marks and the others. -/
theorem merge_select (h : m.length = zs.length) :
    merge m (select m zs) (select (others m) zs) = zs := by
  induction m generalizing zs with
  | nil =>
    have hzs : zs = [] := by simpa [eq_comm] using h
    rw [hzs]
    rfl
  | cons b m ih =>
    cases zs with
    | nil => simp at h
    | cons z zs =>
      have ih : merge m (select m zs) (select (others m) zs) = zs := ih (by simpa using h)
      cases b with
      | true => simpa [select, merge] using ih
      | false => simpa [select, merge] using ih

/-- The two parts of a vector may change places together with the mask. -/
theorem merge_others : ∀ (m : List Bool) (xs ys : List α), merge (others m) ys xs = merge m xs ys
  | [], _, _ => rfl
  | true :: _, [], _ => by simp [merge]
  | true :: m, x :: xs, ys => by simp [merge, merge_others m xs ys]
  | false :: _, _, [] => by simp [merge]
  | false :: m, xs, y :: ys => by simp [merge, merge_others m xs ys]

theorem select_others_merge (hx : xs.length = count m) (hy : ys.length = count (others m)) :
    select (others m) (merge m xs ys) = ys := by
  rw [← merge_others]
  exact select_merge hy (by simpa using hx)

/-- Entries made from the marked pairs, and those of a third vector elsewhere, are a choice entry by
entry. -/
theorem merge_zipWith {δ : Type} (t : α → β → Bool) (f : α → β → δ) {xs : List α} {ys : List β}
    {zs : List δ} (hy : ys.length = xs.length) (hz : zs.length = xs.length) :
    merge (List.zipWith t xs ys)
        (List.zipWith f (select (List.zipWith t xs ys) xs) (select (List.zipWith t xs ys) ys))
        (select (others (List.zipWith t xs ys)) zs) =
      List.zipWith (fun p z => if t p.1 p.2 then f p.1 p.2 else z) (List.zip xs ys) zs := by
  induction xs generalizing ys zs with
  | nil => simp [merge]
  | cons x xs ih =>
    rcases ys with _ | ⟨y, ys⟩
    · simp at hy
    rcases zs with _ | ⟨z, zs⟩
    · simp at hz
    have hy : ys.length = xs.length := by simpa using hy
    have hz : zs.length = xs.length := by simpa using hz
    have ih := ih hy hz
    cases ht : t x y <;> simpa [ht, select, merge] using ih

/-- A relation holds of every entry if and only if it holds of the marked and of the other ones. -/
theorem forall₂_iff_select {R : α → β → Prop} {us : List β} (hz : m.length = zs.length)
    (hu : m.length = us.length) :
    List.Forall₂ R zs us ↔ List.Forall₂ R (select m zs) (select m us) ∧
      List.Forall₂ R (select (others m) zs) (select (others m) us) := by
  refine ⟨fun h => ⟨forall₂_select m h, forall₂_select (others m) h⟩, ?_⟩
  -- backwards each place finds its pair at the head of one of the two parts
  induction m generalizing zs us with
  | nil =>
    have hz : zs = [] := by simpa [eq_comm] using hz
    have hu : us = [] := by simpa [eq_comm] using hu
    simp [hz, hu]
  | cons b m ih =>
    rcases zs with _ | ⟨z, zs⟩
    · simp at hz
    rcases us with _ | ⟨u, us⟩
    · simp at hu
    rintro ⟨hm, ho⟩
    have hz : m.length = zs.length := by simpa using hz
    have hu : m.length = us.length := by simpa using hu
    have ih := ih hz hu
    cases b with
    | true =>
      obtain ⟨hzu, hm⟩ := List.forall₂_cons.1 hm
      exact List.Forall₂.cons hzu (ih ⟨hm, ho⟩)
    | false =>
      obtain ⟨hzu, ho⟩ := List.forall₂_cons.1 ho
      exact List.Forall₂.cons hzu (ih ⟨hm, ho⟩)

end

/-! ## Two masks -/

/-- The places that are marked in both of two masks. -/
def inter (m k : List Bool) : List Bool := List.zipWith (· && ·) m k

/-- The places that are marked in one of two masks or in both. -/
def union (m k : List Bool) : List Bool := List.zipWith (· || ·) m k

section

variable (m k : List Bool) {xs zs : List α}

/-- Selecting by a mask, and then by what the first selection leaves of another one. -/
theorem select_select (xs : List α) : select (select m k) (select m xs) = select (inter m k) xs := by
  induction m generalizing k xs with
  | nil => simp [select, inter]
  | cons b m ih =>
    rcases k with _ | ⟨c, k⟩ <;> rcases xs with _ | ⟨x, xs⟩ <;> cases b
    case cons.cons.true => cases c <;> simpa [select, inter] using ih k xs
    case cons.cons.false => simpa [select, inter] using ih k xs
    all_goals simp [select, inter]

theorem count_select : count (select m k) = count (inter m k) := by
  induction m generalizing k with
  | nil => rfl
  | cons b m ih =>
    rcases k with _ | ⟨c, k⟩
    · cases b <;> rfl
    · have ih : (select m k).count true = (List.zipWith (· && ·) m k).count true := ih k
      cases b <;> cases c <;> simp [select, inter, count, ih]

theorem others_select : others (select m k) = select m (others k) := (select_map not m k).symm

theorem others_union : others (union m k) = inter (others m) (others k) := by
  simp [others, union, inter, List.map_zipWith, List.zipWith_map]

/-- The places of a union that are not in its first part. -/
theorem inter_union_others : inter (union m k) (others m) = inter (others m) k := by
  induction m generalizing k with
  | nil => rfl
  | cons b m ih =>
    rcases k with _ | ⟨c, k⟩
    · rfl
    · have ih : List.zipWith (· && ·) (List.zipWith (· || ·) m k) (List.map not m)
          = List.zipWith (· && ·) (List.map not m) k := ih k
      cases b <;> simp [union, inter, others, ih]

variable {m k}

theorem inter_union_self (h : k.length = m.length) : inter (union m k) m = m := by
  induction m generalizing k with
  | nil => rw [List.length_eq_zero_iff.1 h]; rfl
  | cons b m ih =>
    rcases k with _ | ⟨c, k⟩
    · simp at h
    · have ih : List.zipWith (· && ·) (List.zipWith (· || ·) m k) m = m := ih (by simpa using h)
      cases b <;> simp [union, inter, ih]

/-- Filling what a mask leaves by another one, and then the rest, is filling by both at once. -/
theorem merge_merge (hk : k.length = m.length) (hz : zs.length = m.length)
    (hx : xs.length = count (others (union m k))) :
    merge (others m) (merge (others (select (others m) k)) xs
        (select (select (others m) k) (select (others m) zs))) (select m zs)
      = merge (others (union m k)) xs (select (union m k) zs) := by
  have hu : (union m k).length = m.length := by simp [union, hk]
  have hrest : (select (union m k) zs).length = count (others (others (union m k))) := by
    rw [others_others]
    exact length_select (hu.trans hz.symm)
  -- both sides are the vector `w` on the right
  generalize hw : merge (others (union m k)) xs (select (union m k) zs) = w
  have hlen : w.length = m.length := by
    rw [← hw, length_merge hx hrest, length_others, hu]
  have hfree : select (others (union m k)) w = xs := by
    rw [← hw]
    exact select_merge hx hrest
  have hsame : select (union m k) w = select (union m k) zs := by
    have h := select_others_merge hx hrest
    rwa [others_others, hw] at h
  -- the two vectors agree at each place of the union
  have hfirst : select m w = select m zs := by
    have h := congrArg (select (select (union m k) m)) hsame
    rwa [select_select, select_select, inter_union_self hk] at h
  have hsecond : select (select (others m) k) (select (others m) w)
      = select (select (others m) k) (select (others m) zs) := by
    have h := congrArg (select (select (union m k) (others m))) hsame
    rwa [select_select, select_select, inter_union_others, ← select_select, ← select_select] at h
  have hinner : select (others (select (others m) k)) (select (others m) w) = xs := by
    rw [others_select, select_select, ← others_union, hfree]
  have hlen' : (select (others m) k).length = (select (others m) w).length := by
    rw [length_select (by rw [length_others, hk]), length_select (by rw [length_others, hlen])]
  calc merge (others m) (merge (others (select (others m) k)) xs
          (select (select (others m) k) (select (others m) zs))) (select m zs)
      = merge (others m) (select (others m) w) (select m w) := by
        rw [← hsecond, ← hfirst, ← hinner, merge_others (select (others m) k), merge_select hlen']
    _ = w := by rw [merge_others, merge_select hlen.symm]

end

/-- Filling with vectors that fit is merging them. -/
theorem fill_eq {m : List Bool} {xs ys : List α} (hx : xs.length = count m)
    (hy : ys.length = count (others m)) : fill m xs ys = .ok (merge m xs ys) := by
  simp [fill, spread, hx, hy, bind, Except.bind, pure, Except.pure]

end Presolve.Mask
