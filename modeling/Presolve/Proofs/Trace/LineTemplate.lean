import Presolve.Trace.LineTemplate

/-!
# Templates that make lines

A template may be accepted and still make no line. It has to be well formed to the end, which nobody
looks at when it is accepted, and each field has to be one of the entry, by a letter that can write what
the field holds. The fields that are up to the program are texts and the number of a level; what the
other fields hold, and how it can be written, is left to the surroundings.
-/

namespace Presolve.Trace

/-! ## Standard fields -/

/-- The fields that are up to the program. -/
def ownFields : List String := ["name", "message", "levelname", "levelno"]

/-- The fields about where and when an entry was written, and the parts that it was made from. -/
def surroundingFields : List String :=
  ["msg", "args", "pathname", "filename", "module", "funcName", "lineno", "created", "msecs",
   "relativeCreated", "asctime", "thread", "threadName", "process", "processName", "exc_info",
   "exc_text", "stack_info"]

/-- Is a part of a template a character, or a field that every entry has? -/
def Piece.isStandard : Piece → Bool
  | text _ => true
  | field key _ _ => key.isAmong (ownFields ++ surroundingFields)

/-- Does a template ask only for fields that every entry has? -/
def LineTemplate.isStandard (t : LineTemplate) : Bool :=
  t.parts?.any fun parts => parts.all Piece.isStandard

/-! ## Letters that can write a field -/

/-- The letters that write any text. -/
def textLetters : List Char := ['s', 'r', 'a']

/-- The letters that write any integer. -/
def intLetters : List Char := ['s', 'r', 'a', 'd', 'i', 'u', 'o', 'x', 'X']

/-- The letters that write any fraction. -/
def fractionLetters : List Char := ['e', 'E', 'f', 'F', 'g', 'G']

/-- Can a letter write a text? Any text can be written as it is or in quotes, and a text of one code
point also as that. -/
def suitsText (letter : Char) (t : Text) : Bool :=
  textLetters.contains letter || letter == 'c' && t.length == 1

/-- Can a letter write an integer? Any integer can be written as a text or by its digits, the number of
a code point also as that, and an integer in the range of doubles also as a fraction. -/
def suitsInt (letter : Char) (i : Int) : Bool :=
  intLetters.contains letter || letter == 'c' && decide (0 ≤ i ∧ i < 0x110000) ||
    fractionLetters.contains letter && (Binary64.ofInt i.natAbs).isFinite

/-- Can a field be written by a letter, for an entry in its surroundings? -/
def Entry.suits (e : Entry) (around : Surroundings) (key : Text) (layout : FieldLayout) (letter : Char) :
    Bool :=
  match e.own? key with
  | some (.text t) => suitsText letter t
  | some (.level level) => suitsInt letter level.number
  | none => (around key layout letter).isSome

/-- Can a part of a template be written, for an entry in its surroundings? -/
def Piece.suits (around : Surroundings) (e : Entry) : Piece → Bool
  | text _ => true
  | field key layout (.char letter) => e.suits around key layout letter
  | field _ _ (.half _) => false

/-- Is a template well formed, and can all of its parts be written for an entry in its surroundings? -/
def LineTemplate.suits (t : LineTemplate) (around : Surroundings) (e : Entry) : Bool :=
  t.parts?.any fun parts => parts.all (·.suits around e)

/-- The parts of the standard template. -/
theorem LineTemplate.parts?_standard :
    let field (key : String) : Piece := .field key ⟨[], 0, none⟩ (.char 's')
    standard.parts? = some [.text (.char '['), field "levelname", .text (.char ']'), .text (.char ' '),
      field "name", .text (.char ':'), .text (.char ' '), field "message"] := by decide +kernel

/-- The standard template suits every entry. -/
theorem LineTemplate.suits_standard (around : Surroundings) (e : Entry) :
    standard.suits around e = true := by
  simp [suits, parts?_standard, Piece.suits, Entry.suits, Entry.own?, suitsText, textLetters]

/-! ## Rendering -/

namespace FieldLayout

variable (l : FieldLayout) {letter : Char}

theorem isSome_ofText? {t : Text} (h : suitsText letter t = true) : (l.ofText? letter t).isSome := by
  rw [suitsText, Bool.or_eq_true, List.contains_iff_mem] at h
  rcases h with hquoted | hcode
  · simp only [textLetters, List.mem_cons, List.not_mem_nil, or_false] at hquoted
    rcases hquoted with rfl | rfl | rfl <;> rfl
  · obtain ⟨rfl, hlength⟩ := by simpa using hcode
    simp [ofText?, hlength]

theorem isSome_ofReal? (h : letter ∈ fractionLetters) {i : Int}
    (hfinite : (Binary64.ofInt i.natAbs).isFinite = true) : (l.ofReal? letter i).isSome := by
  have hdigits (digits : List Char) :
      (if (Binary64.ofInt i.natAbs).isFinite then some (l.ofNumber (i < 0) [] digits)
        else none).isSome := by
    rw [if_pos hfinite]
    rfl
  simp only [fractionLetters, List.mem_cons, List.not_mem_nil, or_false] at h
  rcases h with rfl | rfl | rfl | rfl | rfl | rfl <;> exact hdigits _

theorem isSome_ofLevel? {level : Level} (h : suitsInt letter level.number = true) :
    (l.ofLevel? letter level).isSome := by
  rw [suitsInt, Bool.or_eq_true, Bool.or_eq_true, List.contains_iff_mem, Bool.and_eq_true,
    Bool.and_eq_true, List.contains_iff_mem] at h
  rcases h with (hdigits | ⟨hcode, hrange⟩) | ⟨hfraction, hfinite⟩
  · simp only [intLetters, List.mem_cons, List.not_mem_nil, or_false] at hdigits
    rcases hdigits with rfl | rfl | rfl | rfl | rfl | rfl | rfl | rfl | rfl <;> rfl
  · obtain rfl := beq_iff_eq.1 hcode
    simp [ofLevel?, ofCode?, of_decide_eq_true hrange]
  · have hreal := l.isSome_ofReal? hfraction hfinite
    unfold ofLevel?
    split
    · rfl
    · rfl
    · rfl
    · exact absurd hfraction (by decide)
    · rw [Option.isSome_or, hreal, Bool.or_true]

end FieldLayout

variable {around : Surroundings} {e : Entry}

/-- A field is written by a letter that suits it. -/
theorem Entry.isSome_field? {key : Text} {layout : FieldLayout} {letter : Char}
    (h : e.suits around key layout letter = true) : (e.field? around key layout letter).isSome := by
  unfold suits at h
  unfold field?
  cases hown : e.own? key with
  | none =>
    rw [hown] at h
    exact h
  | some own =>
    rw [hown] at h
    cases own with
    | text t => exact layout.isSome_ofText? h
    | level level => exact layout.isSome_ofLevel? h

theorem Piece.isSome_render? {p : Piece} (h : p.suits around e = true) :
    (p.render? around e).isSome := by
  cases p with
  | text c => rfl
  | field key layout letter =>
    cases letter with
    | char letter => exact Entry.isSome_field? h
    | half _ => cases h

/-- The parts of a list are all written if each of them can be. -/
theorem exists_mapM_render? {parts : List Piece} (h : ∀ p ∈ parts, p.suits around e = true) :
    ∃ lines, parts.mapM (·.render? around e) = some lines := by
  induction parts with
  | nil => exact ⟨[], rfl⟩
  | cons p parts ih =>
    obtain ⟨text, htext⟩ := Option.isSome_iff_exists.1 (Piece.isSome_render? (h p List.mem_cons_self))
    obtain ⟨lines, hlines⟩ := ih fun q hq => h q (List.mem_cons_of_mem p hq)
    exact ⟨text :: lines, by simp [List.mapM_cons, htext, hlines]⟩

/-- A template makes a line of every entry that it suits. -/
theorem LineTemplate.exists_line? {t : LineTemplate} (h : t.suits around e = true) :
    ∃ line, t.line? around e = some line := by
  obtain ⟨parts, hparts, hall⟩ := (Option.any_eq_true _ _).1 h
  obtain ⟨lines, hlines⟩ := exists_mapM_render? (List.all_eq_true.1 hall)
  exact ⟨Text.join "" lines, by simp [line?, hparts, hlines]⟩

end Presolve.Trace
