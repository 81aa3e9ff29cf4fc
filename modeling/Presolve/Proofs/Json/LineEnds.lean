import Presolve.Proofs.Json.Grammar
import Presolve.Text.Lines

/-!
# Line ends in canonical texts

A file is read with one form of line ends for all. That changes nothing in a canonical text: its lines end in
line feeds, and a carriage return within a string is written as an escape
(`AllNumbers.unifyLineEnds_render`).
-/

namespace Presolve

/-- Without carriage returns the ends of lines are in one form. -/
theorem Text.unifyLineEnds_eq_self {s : List Char} (h : '\r' ∉ s) : unifyLineEnds s = s := by
  induction s with
  | nil => rfl
  | cons c rest ih =>
    have hc : c ≠ '\r' := fun hc => h (hc ▸ List.mem_cons_self)
    have hrest : '\r' ∉ rest := fun hmem => h (List.mem_cons_of_mem c hmem)
    rw [unifyLineEnds.eq_3 c rest (fun _ hreturn _ => hc hreturn) hc, ih hrest]

namespace Json

/-! ## Characters of the grammar -/

theorem IsDigits.return_not_mem {s : List Char} (h : IsDigits s) : '\r' ∉ s :=
  fun hmem => absurd (h.2 _ hmem) (by decide)

theorem IsWhole.return_not_mem {s : List Char} (h : IsWhole s) : '\r' ∉ s := by
  cases h with
  | zero => decide
  | digits h _ => exact h.return_not_mem

theorem IsFraction.return_not_mem {s : List Char} (h : IsFraction s) : '\r' ∉ s := by
  cases h with
  | absent => decide
  | digits h => simpa using h.return_not_mem

theorem IsExponent.return_not_mem {s : List Char} (h : IsExponent s) : '\r' ∉ s := by
  cases h with
  | absent => decide
  | digits hletter hsign h =>
    rcases hletter with rfl | rfl <;> rcases hsign with rfl | rfl | rfl <;>
      simpa using h.return_not_mem

theorem IsNumber.return_not_mem {s : List Char} (h : IsNumber s) : '\r' ∉ s := by
  have hmagnitude {s : List Char} (h : IsMagnitude s) : '\r' ∉ s := by
    obtain ⟨hwhole, hfraction, hexponent⟩ := h
    simpa using
      ⟨hwhole.return_not_mem, hfraction.return_not_mem, hexponent.return_not_mem⟩
  cases h with
  | unsigned h => exact hmagnitude h
  | negative h => simpa using hmagnitude h

theorem IsEscape.return_not_mem {s : List Char} (h : IsEscape s) : '\r' ∉ s := by
  cases h with
  | plain _ _ hcontrol =>
    rw [List.mem_singleton]
    rintro rfl
    exact absurd hcontrol (by decide)
  | @letter c h =>
    have hc : c ≠ '\r' := by
      rintro rfl
      exact absurd h (by decide)
    simpa using hc.symm
  | @unit a b c d h =>
    have hdigits (x : Char) (hx : x ∈ [a, b, c, d]) : x ≠ '\r' := by
      rintro rfl
      exact absurd (h _ hx) (by decide)
    intro hmem
    rcases List.mem_cons.1 hmem with hbackslash | hmem
    · cases hbackslash
    · rcases List.mem_cons.1 hmem with hletter | hmem
      · cases hletter
      · exact hdigits _ hmem rfl

theorem IsString.return_not_mem {s : List Char} (h : IsString s) : '\r' ∉ s := by
  obtain ⟨h⟩ := h
  suffices hescapes : ∀ {s : List Char}, IsEscapes s → '\r' ∉ s by simpa using hescapes h
  intro s h
  induction h with
  | nil => exact List.not_mem_nil
  | cons h _ ih => simpa using ⟨h.return_not_mem, ih⟩

/-! ## Characters of what is written -/

variable {ν : Type} {I : Int → Prop} {R : ν → Prop} {number : ν → String} {j : Json ν} (layout : Layout)

theorem return_not_mem_separator (level : Nat) : '\r' ∉ layout.separator level := by
  cases layout with
  | compact => exact List.not_mem_nil
  | lines indent => simp [Layout.separator]

theorem return_not_mem_afterColon : '\r' ∉ layout.afterColon := by
  cases layout <;> simp [Layout.afterColon]

theorem return_not_mem_quoted (s : Text) : '\r' ∉ quoted s := (isString_quoted s).return_not_mem

theorem return_not_mem_writeItems (level : Nat) {items : List (Json ν)}
    (h : ∀ item ∈ items, ∀ level, '\r' ∉ item.write number layout level) :
    '\r' ∉ writeItems number layout level items := by
  induction items with
  | nil => exact List.not_mem_nil
  | cons item rest ih =>
    obtain ⟨hitem, hrest⟩ := List.forall_mem_cons.1 h
    simpa [writeItems] using ⟨return_not_mem_separator layout level, hitem _, ih hrest⟩

theorem return_not_mem_writeFields (level : Nat) {fields : List (Text × Json ν)}
    (h : ∀ field ∈ fields, ∀ level, '\r' ∉ field.2.write number layout level) :
    '\r' ∉ writeFields number layout level fields := by
  induction fields with
  | nil => exact List.not_mem_nil
  | cons field rest ih =>
    obtain ⟨hfield, hrest⟩ := List.forall_mem_cons.1 h
    simpa [writeFields] using ⟨return_not_mem_separator layout level, return_not_mem_quoted field.1,
      return_not_mem_afterColon layout, hfield _, ih hrest⟩

theorem AllNumbers.return_not_mem_write (hR : ∀ x, R x → IsNumber (number x).toList)
    (h : j.AllNumbers I R) : ∀ level, '\r' ∉ j.write number layout level := by
  induction h with
  | null =>
    intro level
    rw [write]
    decide
  | bool b =>
    intro level
    cases b <;> rw [write] <;> decide
  | int _ => exact fun _ => (isNumber_toString _).return_not_mem
  | real h => exact fun _ => (hR _ h).return_not_mem
  | text s => exact fun _ => return_not_mem_quoted s
  | @array items _ ih =>
    intro level
    cases items with
    | nil =>
      rw [write]
      decide
    | cons item others =>
      obtain ⟨hitem, hothers⟩ := List.forall_mem_cons.1 ih
      simpa [write] using ⟨return_not_mem_separator layout level, hitem _,
        return_not_mem_writeItems layout level hothers, return_not_mem_separator layout _⟩
  | @object fields _ ih =>
    intro level
    cases fields with
    | nil =>
      rw [write]
      decide
    | cons field others =>
      obtain ⟨key, value⟩ := field
      obtain ⟨hvalue, hothers⟩ := List.forall_mem_cons.1 ih
      simpa [write] using ⟨return_not_mem_separator layout level, return_not_mem_quoted key,
        return_not_mem_afterColon layout, hvalue _, return_not_mem_writeFields layout level hothers,
        return_not_mem_separator layout _⟩

/-- The ends of the lines of a canonical text are in one form. -/
theorem AllNumbers.unifyLineEnds_render (hR : ∀ x, R x → IsNumber (number x).toList) (h : j.AllNumbers I R) :
    Text.unifyLineEnds (j.render number layout).toList = (j.render number layout).toList := by
  rw [render, String.toList_ofList]
  exact Text.unifyLineEnds_eq_self (h.sorted.return_not_mem_write layout hR 1)

end Json
end Presolve
