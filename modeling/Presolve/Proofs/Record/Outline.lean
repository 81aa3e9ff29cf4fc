import Presolve.Proofs.Linear.Vector
import Presolve.Proofs.Value.Sound
import Presolve.Record.Outline

/-!
# Outlines and records

An outline stands in for a record: its data have the same keys as those of a record
(`Outline.keys_toJson`, `Record.keys_toJson`), and it maps points in the way of a record that was neither
reduced nor scaled. Its two maps are one, the identity on the numbers that a value holds, wherever both
give something (`restore_eq_ok`, `canonicalPoint_eq_ok`).
-/

namespace Presolve

variable {α : Type} [Scalar α] [Interchange α]

/-! ## Keys -/

/-- The keys of a record in data. -/
def Record.keys : List String :=
  ["invoker", "facts", "infeasible", "nofreex", "constrv_fixedx", "raw_dim", "raw_type", "refined_dim",
   "refined_type", "reduced", "free", "scaled", "scaling_factor", "shift", "solver", "warnings",
   "raw_data", "refined_data"]

theorem Record.keys_toJson {r : Record α} {data : Json α} (h : r.toJson = .ok data) :
    ∃ fields, data = .object fields ∧ fields.map Prod.fst = Record.keys.map Text.ofString := by
  unfold toJson at h
  dsimp only at h
  split at h
  all_goals
    obtain ⟨input, -, h⟩ := bind_eq_ok.1 h
    cases h
    exact ⟨_, rfl, rfl⟩

namespace Outline

variable {o : Outline α} {x : Value α} {y : List α}

omit [Scalar α] [Interchange α] in
/-- The fields that are written as plain values come under their names. -/
theorem keys_mapM {f : String → Except Fault (Json α)} {names : List String}
    {fields : List (Text × Json α)}
    (h : (names.mapM fun name => do return ((name : Text), ← f name)) = .ok fields) :
    fields.map Prod.fst = names.map Text.ofString := by
  induction mapM_eq_ok.1 h with
  | nil => rfl
  | cons hfield hrest ih =>
    obtain ⟨json, -, hfield⟩ := bind_eq_ok.1 hfield
    cases hfield
    rw [List.map_cons, List.map_cons, ih (mapM_eq_ok.2 hrest)]

/-- The data of an outline have the keys of a record. -/
theorem keys_toJson {data : Json α} (h : o.toJson = .ok data) :
    ∃ fields, data = .object fields ∧ (fields.map Prod.fst).Perm (Record.keys.map Text.ofString) := by
  unfold toJson at h
  simp only [bind_eq_ok, pure_eq_ok] at h
  obtain ⟨-, -, -, -, -, -, -, -, invoker, -, raw, -, refined, -, plain, hplain, rfl⟩ := h
  refine ⟨_, rfl, ?_⟩
  rw [List.map_append, keys_mapM hplain]
  have hkeys : (["invoker", "facts", "free", "scaling_factor", "shift", "warnings", "raw_data",
      "refined_data"] ++ ["infeasible", "nofreex", "constrv_fixedx", "raw_dim", "raw_type", "refined_dim",
      "refined_type", "reduced", "scaled", "solver"]).Perm Record.keys := by decide
  exact hkeys.map Text.ofString

/-! ## Points -/

omit [Interchange α] in
/-- No map may have been applied. -/
theorem refuse_eq_ok {name : String} : o.refuse name = .ok () ↔ (o.get name).holds = .ok false := by
  unfold refuse
  cases (o.get name).holds with
  | error f => simp [bind, Except.bind]
  | ok b => cases b <;> simp [bind, Except.bind, throw, throwThe, MonadExceptOf.throw, pure, Except.pure]

/-- A point of the canonical space is the point itself, unless a map was applied. -/
theorem canonicalPoint_eq_ok : o.canonicalPoint x = .ok y ↔ x.flatReals = .ok y ∧
    (o.get "reduced").holds = .ok false ∧ (o.get "scaled").holds = .ok false := by
  simp only [canonicalPoint, bind_eq_ok, pure_eq_ok, ← refuse_eq_ok]
  constructor
  · rintro ⟨_, hx, _, hreduced, _, hscaled, rfl⟩
    exact ⟨hx, hreduced, hscaled⟩
  · rintro ⟨hx, hreduced, hscaled⟩
    exact ⟨y, hx, (), hreduced, (), hscaled, rfl⟩

/-- The way back is the same map, but for outlines without a free variable that hold facts. -/
theorem restore_eq_ok : o.restore x = .ok y ↔ o.canonicalPoint x = .ok y ∧
    ∃ fixed, (o.get "nofreex").holds = .ok fixed ∧ (fixed = true → (o.get "facts").isAbsent = true) := by
  rw [canonicalPoint_eq_ok]
  unfold restore
  cases hfixed : (o.get "nofreex").holds with
  | error f => simp [bind, Except.bind]
  | ok fixed =>
    have hexists : (∃ b, Except.ok fixed = (.ok b : Except Fault Bool) ∧
        (b = true → (o.get "facts").isAbsent = true)) ↔
          (fixed && !(o.get "facts").isAbsent) = false := by
      cases fixed <;> simp
    rw [hexists]
    cases hguard : fixed && !(o.get "facts").isAbsent with
    | true =>
      show (if (fixed && !(o.get "facts").isAbsent) = true then _ else _) = _ ↔ _
      rw [if_pos hguard]
      simp [bind, Except.bind, throw, throwThe, MonadExceptOf.throw]
    | false =>
      show (if (fixed && !(o.get "facts").isAbsent) = true then _ else _) = _ ↔ _
      rw [if_neg (by simp [hguard])]
      simp only [bind_eq_ok, pure_eq_ok, ← refuse_eq_ok]
      constructor
      · rintro ⟨_, hx, _, hscaled, _, hreduced, rfl⟩
        exact ⟨⟨hx, hreduced, hscaled⟩, trivial⟩
      · rintro ⟨⟨hx, hreduced, hscaled⟩, -⟩
        exact ⟨y, hx, (), hscaled, (), hreduced, rfl⟩

/-- Points are mapped to themselves in both directions, and again. -/
theorem restore_again (h : o.restore x = .ok y) :
    o.canonicalPoint (.ofList y) = .ok y ∧ o.restore (.ofList y) = .ok y := by
  obtain ⟨hpoint, hfixed⟩ := restore_eq_ok.1 h
  have hagain : o.canonicalPoint (.ofList y) = .ok y :=
    canonicalPoint_eq_ok.2 ⟨Value.flatReals_ofList y, (canonicalPoint_eq_ok.1 hpoint).2⟩
  exact ⟨hagain, restore_eq_ok.2 ⟨hagain, hfixed⟩⟩

end Outline
end Presolve
