import Presolve.Linear.Mask
import Presolve.Linear.System
import Presolve.Proofs.Outcome
import Presolve.Value.Shape
import Presolve.Value.Text

/-!
# Refusals

A solver *refuses* a problem of a kind that it does not handle. No other complaint and no other fault is a
refusal. This file shows that reading numbers and computing with vectors never ends in one, so that a
refusal can only come from the comparison of a solver with a kind.
-/

namespace Presolve

variable {β γ δ : Type}

/-- Is it the complaint that a solver does not handle a kind of problems? -/
def Fault.IsRefusal (x : Fault) : Prop := x.report?.map (·.1) = some .problemKind

namespace Fault

theorem isRefusal_kindNotSolved (kind : ProblemKind) (invoker : String) :
    (invalid (.kindNotSolved kind) invoker).IsRefusal := rfl

theorem not_isRefusal_invalid {c : Complaint} (h : c.errorClass ≠ .problemKind) (invoker : String) :
    ¬(invalid c invoker).IsRefusal := fun hc => h (Option.some.inj hc)

theorem not_isRefusal_of_report? {x : Fault} (h : x.report? = none) : ¬x.IsRefusal := by
  rw [IsRefusal, h]
  exact fun hc => nomatch hc

theorem not_isRefusal_defect (d : Defect) : ¬(defect d).IsRefusal := fun hc => nomatch hc

end Fault

/-- A computation does not end in a refusal. -/
def NeverRefuses (x : Except Fault β) : Prop := ∀ y, x = .error y → ¬y.IsRefusal

namespace NeverRefuses

variable {x : Except Fault β} {f : β → Except Fault γ}

theorem ok (b : β) : NeverRefuses (.ok b) := FaultsOnly.ok b

theorem error {y : Fault} (h : ¬y.IsRefusal) : NeverRefuses (.error y : Except Fault β) :=
  FaultsOnly.error h

theorem bind (hx : NeverRefuses x) (hf : ∀ b, NeverRefuses (f b)) : NeverRefuses (x >>= f) :=
  FaultsOnly.bind hx fun b _ => hf b

theorem map (hx : NeverRefuses x) (g : β → γ) : NeverRefuses (x.map g) := FaultsOnly.map hx g

theorem mapM {xs : List δ} {g : δ → Except Fault β} (hg : ∀ d, NeverRefuses (g d)) :
    NeverRefuses (xs.mapM g) := by
  induction xs with
  | nil => exact ok []
  | cons d xs ih =>
    rw [List.mapM_cons]
    exact (hg d).bind fun b => ih.bind fun bs => ok (b :: bs)

end NeverRefuses

/-! ## Vectors -/

section

variable {α : Type}

theorem entrywise_neverRefuses (f : α → β → γ) (xs : List α) (ys : List β) :
    NeverRefuses (entrywise f xs ys) := by
  unfold entrywise
  split
  · exact .ok _
  · split
    · exact .ok _
    · exact .ok _
    · exact .error (Fault.not_isRefusal_of_report? rfl)

theorem spread_neverRefuses (count : Nat) (xs : List α) : NeverRefuses (spread count xs) := by
  unfold spread
  split
  · exact .ok _
  · split
    · exact .ok _
    · exact .error (Fault.not_isRefusal_of_report? rfl)

theorem Mask.pick_neverRefuses (m : List Bool) (xs : List α) : NeverRefuses (pick m xs) := by
  unfold pick
  split
  · exact .ok _
  · exact .error (Fault.not_isRefusal_of_report? rfl)

theorem Mask.fill_neverRefuses (m : List Bool) (xs ys : List α) : NeverRefuses (fill m xs ys) :=
  (spread_neverRefuses _ xs).bind fun _ => (spread_neverRefuses _ ys).bind fun _ => .ok _

theorem applyRows_neverRefuses [Scalar α] (rows : List (List α)) (x : List α) :
    NeverRefuses (applyRows rows x) := by
  unfold applyRows
  split
  · exact .ok _
  · exact .error (Fault.not_isRefusal_of_report? rfl)

/-! ## Values -/

variable [Scalar α] [Interchange α]

omit [Interchange α] in
theorem realOfInt_neverRefuses (i : Int) : NeverRefuses (realOfInt i : Except Fault α) := by
  unfold realOfInt
  split
  · exact .ok _
  · exact .error (Fault.not_isRefusal_of_report? rfl)

omit [Scalar α] in
theorem realOfText_neverRefuses (t : Text) : NeverRefuses (realOfText t : Except Fault α) := by
  unfold realOfText
  split
  · exact .ok _
  · exact .error (Fault.not_isRefusal_of_report? rfl)

omit [Scalar α] in
theorem realOfBytes_neverRefuses (bs : List UInt8) :
    NeverRefuses (realOfBytes bs : Except Fault α) := by
  unfold realOfBytes
  split
  · exact realOfText_neverRefuses _
  · exact .error (Fault.not_isRefusal_of_report? rfl)

theorem Cell.toReal_neverRefuses (c : Cell α) : NeverRefuses c.toReal := by
  cases c with
  | int i =>
    rw [toReal]
    exact realOfInt_neverRefuses i
  | text s =>
    rw [toReal]
    exact realOfText_neverRefuses s
  | bytes bs =>
    rw [toReal]
    exact realOfBytes_neverRefuses bs
  | opaqueItem => exact .error (Fault.not_isRefusal_of_report? rfl)
  | bool _ | real _ | complex _ _ | absent => exact .ok _

omit [Scalar α] in
theorem Value.toText_neverRefuses (v : Value α) : NeverRefuses v.toText := by
  unfold toText
  split
  · exact .ok _
  · exact .error (Fault.not_isRefusal_of_report? rfl)

theorem Value.realScalar?_neverRefuses (v : Value α) : NeverRefuses v.realScalar? := by
  unfold realScalar?
  split
  · exact .ok _
  · exact (Cell.toReal_neverRefuses _).map _

theorem Value.integerScalar?_neverRefuses (v : Value α) : NeverRefuses v.integerScalar? :=
  v.realScalar?_neverRefuses.map _

theorem Value.flag?_neverRefuses (v : Value α) : NeverRefuses v.flag? := by
  unfold flag?
  have hnumber := v.realScalar?_neverRefuses
  split
  · exact .ok _
  · exact .ok _
  · split
    · exact .ok _
    · exact hnumber.map _
  · exact hnumber.map _

end

end Presolve
