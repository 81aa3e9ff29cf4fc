import Mathlib.Data.List.Forall2
import Presolve.Linear.System
import Presolve.Proofs.Outcome

/-!
# Vectors of one length

Vectors that a preparation combines have one length, and then no operation on them fails. This file
says what the operations of `Linear` give in that case.
-/

namespace Presolve

variable {α β γ : Type}

/-- A function is applied to every entry, and all of the results are there. -/
theorem mapM_eq_ok {ε : Type} {f : α → Except ε β} {xs : List α} {ys : List β} :
    xs.mapM f = .ok ys ↔ List.Forall₂ (fun x y => f x = .ok y) xs ys := by
  induction xs generalizing ys with
  | nil => rw [List.mapM_nil, pure_eq_ok, List.forall₂_nil_left_iff, eq_comm]
  | cons x xs ih =>
    simp only [List.mapM_cons, bind_eq_ok, pure_eq_ok, ih, List.forall₂_cons_left_iff]
    constructor
    · rintro ⟨y, hy, ys', hys, rfl⟩
      exact ⟨y, ys', hy, hys, rfl⟩
    · rintro ⟨y, ys', hy, hys, rfl⟩
      exact ⟨y, hy, ys', hys, rfl⟩

theorem length_of_mapM {ε : Type} {f : α → Except ε β} {xs : List α} {ys : List β}
    (h : xs.mapM f = .ok ys) : ys.length = xs.length :=
  (mapM_eq_ok.1 h).length_eq.symm

/-- Where a function does not fail, applying it to every entry is a map. -/
theorem mapM_of_forall {ε : Type} {f : α → Except ε β} {g : α → β} {xs : List α}
    (h : ∀ x ∈ xs, f x = .ok (g x)) : xs.mapM f = .ok (xs.map g) := by
  rw [mapM_eq_ok, List.forall₂_map_right_iff, List.forall₂_same]
  exact h

/-- Every result is that of an entry. -/
theorem exists_of_mem_of_mapM {ε : Type} {f : α → Except ε β} {xs : List α} {ys : List β}
    (h : xs.mapM f = .ok ys) {y : β} (hy : y ∈ ys) : ∃ x ∈ xs, f x = .ok y := by
  induction mapM_eq_ok.1 h with
  | nil => cases hy
  | cons hxy hrest ih =>
    rcases List.mem_cons.1 hy with rfl | hy
    · exact ⟨_, List.mem_cons_self, hxy⟩
    · obtain ⟨x, hx, hfx⟩ := ih (mapM_eq_ok.2 hrest) hy
      exact ⟨x, List.mem_cons_of_mem _ hx, hfx⟩

/-- Applying a function to every entry fails where it fails for the first time. -/
theorem mapM_eq_error {ε : Type} {f : α → Except ε β} {xs : List α} {e : ε} :
    xs.mapM f = .error e ↔ ∃ before x after, xs = before ++ x :: after ∧
      (∀ b ∈ before, ∃ y, f b = .ok y) ∧ f x = .error e := by
  induction xs with
  | nil => simp [pure, Except.pure]
  | cons x xs ih =>
    rw [List.mapM_cons, bind_eq_error]
    constructor
    · rintro (h | ⟨y, hy, h⟩)
      · exact ⟨[], x, xs, rfl, List.forall_mem_nil _, h⟩
      · rcases bind_eq_error.1 h with h | ⟨ys, -, h⟩
        · obtain ⟨before, z, after, rfl, hbefore, hz⟩ := ih.1 h
          exact ⟨x :: before, z, after, rfl, List.forall_mem_cons.2 ⟨⟨y, hy⟩, hbefore⟩, hz⟩
        · cases h
    · rintro ⟨_ | ⟨b, before⟩, z, after, hxs, hbefore, hz⟩
      · obtain ⟨rfl, rfl⟩ := List.cons.inj hxs
        exact .inl hz
      · obtain ⟨rfl, hrest⟩ := List.cons.inj hxs
        obtain ⟨⟨y, hy⟩, hbefore⟩ := List.forall_mem_cons.1 hbefore
        exact .inr ⟨y, hy, bind_eq_error.2 (.inl (ih.2 ⟨before, z, after, hrest, hbefore, hz⟩))⟩

/-- A function can be applied to all entries exactly if it has a result for each. -/
theorem exists_mapM_iff {ε : Type} {f : α → Except ε β} {xs : List α} :
    (∃ ys, xs.mapM f = .ok ys) ↔ ∀ x ∈ xs, ∃ y, f x = .ok y := by
  induction xs with
  | nil => exact iff_of_true ⟨[], rfl⟩ (by simp)
  | cons x xs ih =>
    simp only [List.mapM_cons, bind_eq_ok, pure_eq_ok, List.forall_mem_cons, ← ih]
    constructor
    · rintro ⟨_, y, hy, ys, hys, -⟩
      exact ⟨⟨y, hy⟩, ys, hys⟩
    · rintro ⟨⟨y, hy⟩, ys, hys⟩
      exact ⟨y :: ys, y, hy, ys, hys, rfl⟩

/-- An entry of a combination of two vectors is made from an entry of each. -/
theorem exists_of_mem_zipWith {f : α → β → γ} {xs : List α} {ys : List β} {z : γ}
    (h : z ∈ List.zipWith f xs ys) : ∃ x ∈ xs, ∃ y ∈ ys, f x y = z := by
  obtain ⟨i, hi, rfl⟩ := List.getElem_of_mem h
  rw [List.length_zipWith] at hi
  exact ⟨xs[i], List.getElem_mem _, ys[i], List.getElem_mem _, List.getElem_zipWith.symm⟩

/-- The entries of a combination of two vectors are those of their pairs. -/
theorem mem_zipWith_iff {f : α → β → γ} {xs : List α} {ys : List β} {z : γ} :
    z ∈ List.zipWith f xs ys ↔ ∃ p ∈ List.zip xs ys, f p.1 p.2 = z := by
  rw [← List.map_uncurry_zip_eq_zipWith, List.mem_map]
  rfl

/-- A combination of two vectors that is combined once more with one of them. -/
theorem zipWith_zipWith_map_right {δ ε : Type} (f : γ → δ → ε) (g : α → β → γ) (h : β → δ) (xs : List α)
    (ys : List β) :
    List.zipWith f (List.zipWith g xs ys) (ys.map h) = List.zipWith (fun x y => f (g x y) (h y)) xs ys := by
  induction xs generalizing ys with
  | nil => rfl
  | cons x xs ih => cases ys <;> simp [ih]

theorem zipWith_zipWith_map_left {δ ε : Type} (f : γ → δ → ε) (g : α → β → γ) (h : α → δ) (xs : List α)
    (ys : List β) :
    List.zipWith f (List.zipWith g xs ys) (xs.map h) = List.zipWith (fun x y => f (g x y) (h x)) xs ys := by
  induction xs generalizing ys with
  | nil => rfl
  | cons x xs ih => cases ys <;> simp [ih]

/-- What holds of every entry of a combination holds of the pairs of entries. -/
theorem forall_mem_zipWith_iff {f : α → β → γ} {P : γ → Prop} {xs : List α} {ys : List β}
    (hlen : xs.length = ys.length) :
    (∀ z ∈ List.zipWith f xs ys, P z) ↔ List.Forall₂ (fun x y => P (f x y)) xs ys := by
  rw [List.forall₂_iff_zip, and_iff_right hlen]
  constructor
  · intro h x y hpair
    exact h _ (mem_zipWith_iff.2 ⟨(x, y), hpair, rfl⟩)
  · intro h z hz
    obtain ⟨p, hpair, rfl⟩ := mem_zipWith_iff.1 hz
    exact h hpair

/-- A relation between two vectors matters only for entries of them. -/
theorem forall₂_congr_mem {R S : α → β → Prop} {xs : List α} {ys : List β}
    (h : ∀ x ∈ xs, ∀ y ∈ ys, (R x y ↔ S x y)) : List.Forall₂ R xs ys ↔ List.Forall₂ S xs ys := by
  rw [List.forall₂_iff_zip, List.forall₂_iff_zip]
  refine and_congr_right fun _ => ?_
  constructor
  · intro hR x y hpair
    exact (h x (List.of_mem_zip hpair).1 y (List.of_mem_zip hpair).2).1 (hR hpair)
  · intro hS x y hpair
    exact (h x (List.of_mem_zip hpair).1 y (List.of_mem_zip hpair).2).2 (hS hpair)

/-- Relations between vectors of one length are equivalent if they are for every entry. -/
theorem forall₂_congr_getElem {δ : Type} {R : α → β → Prop} {S : γ → δ → Prop} {xs : List α}
    {ys : List β} {us : List γ} {vs : List δ} {n : Nat} (hx : xs.length = n) (hy : ys.length = n)
    (hu : us.length = n) (hv : vs.length = n)
    (h : ∀ (m : Nat) (hm : m < n), R xs[m] ys[m] ↔ S us[m] vs[m]) :
    List.Forall₂ R xs ys ↔ List.Forall₂ S us vs := by
  rw [List.forall₂_iff_get, List.forall₂_iff_get]
  constructor
  · rintro ⟨-, hR⟩
    refine ⟨hu.trans hv.symm, ?_⟩
    intro m hmu hmv
    exact (h m (hu ▸ hmu)).1 (hR m (by omega) (by omega))
  · rintro ⟨-, hS⟩
    refine ⟨hx.trans hy.symm, ?_⟩
    intro m hmx hmy
    exact (h m (hx ▸ hmx)).2 (hS m (by omega) (by omega))

/-- The products with rows of the length of the vector. -/
theorem applyRows_eq [Scalar α] {rows : List (List α)} {x : List α}
    (h : ∀ row ∈ rows, row.length = x.length) : applyRows rows x = .ok (rows.map (dot · x)) := by
  have h : (rows.all fun row => row.length == x.length) = true := by simpa using h
  simp [applyRows, h]

end Presolve
