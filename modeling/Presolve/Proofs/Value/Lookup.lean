import Presolve.Solver.Option
import Presolve.Value.Key
import Presolve.Value.Shape
import Presolve.Value.Text

/-!
# Looking up entries

What a dictionary holds under a text after an entry was written, appended or left out. A text is one key
with the same text only, whatever the type of the other key.
-/

namespace Presolve.Value

variable {α : Type}

/-! ## Texts as keys -/

theorem sameKey_text [Scalar α] (key : Value α) (t : Text) :
    key.sameKey (.text t) = (key.text? == some t) := by
  cases key with
  | text s => simp [sameKey, number?, toCell, text?, bytes?]
  | entry type cell => cases cell <;> simp [sameKey, number?, toCell, text?, bytes?]
  | _ => simp [sameKey, number?, toCell, text?, bytes?]

section

variable {key : Value α} {t : Text}

theorem isWritable_of_text? (h : key.text? = some t) : key.isWritable = true := by
  cases key with
  | text s => rfl
  | entry type cell =>
    cases cell with
    | text s => rfl
    | _ => cases h
  | _ => cases h

/-- The text of a text is itself. -/
theorem toText_of_text? [Interchange α] (h : key.text? = some t) : key.toText = .ok t := by
  rw [toText, if_pos (isWritable_of_text? h)]
  cases key with
  | text s =>
    cases h
    rfl
  | entry type cell =>
    cases cell with
    | text s =>
      cases h
      rfl
    | _ => cases h
  | _ => cases h

end

variable {entries : List (Value α × Value α)} {key other : Text} {value : Value α}

theorem lookup?_cons (entry : Value α × Value α) (entries : List (Value α × Value α)) (key : Text) :
    lookup? key (entry :: entries)
      = if entry.1.text? = some key then some entry.2 else lookup? key entries := by
  by_cases h : entry.1.text? = some key
  · simp [lookup?, h]
  · simp [lookup?, h]

/-- A text is no key of the dictionary. -/
theorem lookup?_eq_none_iff :
    lookup? key entries = none ↔ ∀ entry ∈ entries, entry.1.text? ≠ some key := by
  simp [lookup?]

/-! ## Entries that are left out -/

theorem lookup?_filter_eq_none (keep : Value α × Value α → Bool) (h : lookup? key entries = none) :
    lookup? key (entries.filter keep) = none := by
  rw [lookup?_eq_none_iff] at h ⊢
  intro entry hentry
  exact h entry (List.mem_filter.1 hentry).1

/-! ## Entries that are appended -/

theorem lookup?_append_of_ne (h : other ≠ key) :
    lookup? key (entries ++ [(.text other, value)]) = lookup? key entries := by
  induction entries with
  | nil => simp [lookup?, text?, h]
  | cons entry entries ih => rw [List.cons_append, lookup?_cons, lookup?_cons, ih]

theorem lookup?_append_self (h : lookup? key entries = none) :
    lookup? key (entries ++ [(.text key, value)]) = some value := by
  induction entries with
  | nil => simp [lookup?, text?]
  | cons entry entries ih =>
    have hentry : entry.1.text? ≠ some key :=
      lookup?_eq_none_iff.1 h entry (List.mem_cons_self ..)
    rw [lookup?_cons, if_neg hentry] at h
    rw [List.cons_append, lookup?_cons, if_neg hentry, ih h]

/-- An entry under a new key is written at the end. -/
theorem setEntry_of_lookup?_eq_none [Scalar α] (h : lookup? key entries = none) :
    setEntry (.text key) value entries = entries ++ [(.text key, value)] := by
  induction entries with
  | nil => rfl
  | cons entry entries ih =>
    have hentry : entry.1.text? ≠ some key :=
      lookup?_eq_none_iff.1 h entry (List.mem_cons_self ..)
    rw [lookup?_cons, if_neg hentry] at h
    rw [setEntry, sameKey_text, if_neg (by simpa using hentry), ih h, List.cons_append]

end Presolve.Value
