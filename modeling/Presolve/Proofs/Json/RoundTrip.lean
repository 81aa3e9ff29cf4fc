import Presolve.Proofs.Json.Numbers
import Presolve.Proofs.Json.Sorted
import Presolve.Proofs.Json.Strings

/-!
# Texts read back

The reader undoes the writer. Within a text a value is followed by an end (`EndsValue`), and a text of `n`
characters is deep enough for the fuel if this is at least `n`, so that both survive the step from an array
or an object to what is in it (`IsReadable.readsAsWritten`). What is read from the canonical text of some data
are the data with their fields in order (`parse_render`); so the text tells apart what is not the same.
-/

namespace Presolve.Json

open Reader

/-- The text of a double reads back as the double. -/
def ReadsBack (text : Float → String) (x : Float) : Prop :=
  number (text x).toList = .ok (.real x, [])

variable {lenient : Bool} {text : Float → String} {layout : Layout} {j : Json Float} {level fuel : Nat}
  {rest tail : List Char}

/-! ## Blanks -/

theorem skipBlanks_cons {c : Char} (h : isBlank c = false) (s : List Char) :
    skipBlanks (c :: s) = c :: s := by
  rw [skipBlanks, List.dropWhile_cons_of_neg (by simp [h])]

theorem skipBlanks_append {blanks : List Char} (h : ∀ c ∈ blanks, isBlank c = true) (s : List Char) :
    skipBlanks (blanks ++ s) = skipBlanks s :=
  List.dropWhile_append_of_pos h

theorem skipBlanks_separator (s : List Char) :
    skipBlanks (layout.separator level ++ s) = skipBlanks s := by
  apply skipBlanks_append
  intro c hc
  cases layout with
  | compact => exact nomatch hc
  | lines indent =>
    rcases List.mem_cons.1 hc with rfl | hspace
    · rfl
    · rw [List.eq_of_mem_replicate hspace]
      rfl

theorem skipBlanks_afterColon (s : List Char) : skipBlanks (layout.afterColon ++ s) = skipBlanks s := by
  apply skipBlanks_append
  cases layout with
  | compact => exact fun c hc => nomatch hc
  | lines indent => simp [Layout.afterColon, isBlank]

/-- A separator in front of an end is an end. -/
theorem endsValue_separator {c : Char} (h : c ∈ enders) (s : List Char) :
    EndsValue (layout.separator level ++ c :: s) := by
  cases layout with
  | compact => exact endsValue_cons h s
  | lines indent => exact endsValue_cons (by decide) _

theorem skipBlanks_quoted (key : Text) (s : List Char) :
    skipBlanks (quoted key ++ s) = quoted key ++ s := skipBlanks_cons rfl _

/-! ## Steps of the reader -/

theorem items_last {s : List Char} {item : Json Float} (hitem : value lenient fuel s = .ok (item, rest))
    (hend : skipBlanks rest = ']' :: tail) : items lenient (fuel + 1) s = .ok ([item], tail) := by
  rw [items.eq_2, hitem]
  simp only [bind, Except.bind, hend]

theorem items_more {s left : List Char} {item : Json Float} {others : List (Json Float)}
    (hitem : value lenient fuel s = .ok (item, rest)) (hcomma : skipBlanks rest = ',' :: tail)
    (hothers : items lenient fuel (skipBlanks tail) = .ok (others, left)) :
    items lenient (fuel + 1) s = .ok (item :: others, left) := by
  rw [items.eq_2, hitem]
  simp only [bind, Except.bind, hcomma, hothers]

theorem quoted_append (key : Text) (s : List Char) :
    quoted key ++ s = '"' :: (key.codes.flatMap escapeCode ++ '"' :: s) := by
  rw [quoted, List.cons_append, List.cons_append, List.append_assoc]
  rfl

theorem fields_last {s t : List Char} {key : Text} {item : Json Float} (hkey : key.IsJoined)
    (hblank : skipBlanks s = t) (hitem : value lenient fuel t = .ok (item, rest))
    (hend : skipBlanks rest = '\x7d' :: tail) :
    fields lenient (fuel + 1) (quoted key ++ ':' :: s) = .ok ([(key, item)], tail) := by
  have hcolon : skipBlanks (':' :: s) = ':' :: s := skipBlanks_cons rfl s
  rw [quoted_append, fields.eq_2, string_flatMap_escapeCode _ hkey]
  simp only [bind, Except.bind, hcolon, hblank, hitem, hend]

theorem fields_more {s t left : List Char} {key : Text} {item : Json Float}
    {others : List (Text × Json Float)} (hkey : key.IsJoined) (hblank : skipBlanks s = t)
    (hitem : value lenient fuel t = .ok (item, rest)) (hcomma : skipBlanks rest = ',' :: tail)
    (hothers : fields lenient fuel (skipBlanks tail) = .ok (others, left)) :
    fields lenient (fuel + 1) (quoted key ++ ':' :: s) = .ok ((key, item) :: others, left) := by
  have hcolon : skipBlanks (':' :: s) = ':' :: s := skipBlanks_cons rfl s
  rw [quoted_append, fields.eq_2, string_flatMap_escapeCode _ hkey]
  simp only [bind, Except.bind, hcolon, hblank, hitem, hcomma, hothers]

theorem value_array {s t left : List Char} {items : List (Json Float)} (hblank : skipBlanks s = t)
    (hne : ∀ u, t ≠ ']' :: u) (hitems : Reader.items lenient fuel t = .ok (items, left)) :
    value lenient (fuel + 1) ('[' :: s) = .ok (.array items, left) := by
  rw [value.eq_3, hblank]
  split
  · next u => exact absurd rfl (hne u)
  · rw [hitems]
    rfl

theorem value_object {s t left : List Char} {fields : List (Text × Json Float)}
    (hblank : skipBlanks s = t) (hne : ∀ u, t ≠ '\x7d' :: u)
    (hfields : Reader.fields lenient fuel t = .ok (fields, left)) :
    value lenient (fuel + 1) ('\x7b' :: s) = .ok (ofFields fields, left) := by
  rw [value.eq_4, hblank]
  split
  · next u => exact absurd rfl (hne u)
  · rw [hfields]
    rfl

/-! ## Words and numbers -/

/-- No word of either dialect stands in front of a number. -/
theorem not_isPrefixOf_number {s : List Char} (h : number s = .ok (j, []))
    {word : List Char × Json Float} (hword : word ∈ words lenient) (rest : List Char) :
    word.1.isPrefixOf (s ++ rest) = false := by
  obtain ⟨c, t, rfl, hc⟩ := number_head h
  have hother (d : Char) (letters : List Char) (hd : c ≠ d) :
      (d :: letters).isPrefixOf ((c :: t) ++ rest) = false := by
    rw [List.cons_append, List.isPrefixOf, beq_false_of_ne hd.symm, Bool.false_and]
  have hne {d : Char} (hd : d ≠ '-') (hdigit : d.isDigit = false) : c ≠ d :=
    ne_of_number_head hc hd hdigit
  have hstrict (hmem : word ∈ words false) : word.1.isPrefixOf ((c :: t) ++ rest) = false := by
    simp only [words, Bool.false_eq_true, if_false, List.append_nil, List.mem_cons, List.not_mem_nil,
      or_false] at hmem
    rcases hmem with rfl | rfl | rfl
    · exact hother 'n' ['u', 'l', 'l'] (hne (by decide) rfl)
    · exact hother 't' ['r', 'u', 'e'] (hne (by decide) rfl)
    · exact hother 'f' ['a', 'l', 's', 'e'] (hne (by decide) rfl)
  cases lenient with
  | false => exact hstrict hword
  | true =>
    rcases List.mem_append.1 hword with hmem | hmem
    · exact hstrict (List.mem_append_left _ hmem)
    · simp only [if_true, List.mem_cons, List.not_mem_nil, or_false] at hmem
      let letters := ['n', 'f', 'i', 'n', 'i', 't', 'y']
      rcases hmem with rfl | rfl | rfl
      · exact hother 'N' ['a', 'N'] (hne (by decide) rfl)
      · exact hother 'I' letters (hne (by decide) rfl)
      · -- behind the sign of a number there is a digit
        by_cases hminus : c = '-'
        · subst hminus
          obtain ⟨d, u, rfl, hd⟩ := number_minus_head h
          have hletter : d ≠ 'I' := by
            rintro rfl
            cases hd
          have hsecond : ('-' :: 'I' :: letters).isPrefixOf (('-' :: d :: u) ++ rest) = false := by
            rw [List.cons_append, List.cons_append, List.isPrefixOf, List.isPrefixOf,
              beq_false_of_ne hletter.symm, Bool.false_and, Bool.and_false]
          exact hsecond
        · exact hother '-' ('I' :: letters) hminus

theorem value_number {s : List Char} (h : number s = .ok (j, [])) (hrest : EndsValue rest)
    (hfuel : 0 < fuel) : value lenient fuel (s ++ rest) = .ok (j, rest) := by
  have hwords : (words lenient).find? (fun word => word.1.isPrefixOf (s ++ rest)) = none := by
    rw [List.find?_eq_none]
    intro word hword
    rw [not_isPrefixOf_number h hword]
    exact Bool.false_ne_true
  obtain ⟨c, t, rfl, hc⟩ := number_head h
  obtain ⟨fuel, rfl⟩ : ∃ n, fuel = n + 1 := ⟨fuel - 1, by omega⟩
  have hne {d : Char} (hd : d ≠ '-') (hdigit : d.isDigit = false) : c ≠ d :=
    ne_of_number_head hc hd hdigit
  have hatom : value lenient (fuel + 1) (c :: (t ++ rest)) = atom lenient (c :: (t ++ rest)) := by
    apply value.eq_5
    · exact fun s hs => hne (by decide) rfl (List.cons.inj hs).1
    · exact fun s hs => hne (by decide) rfl (List.cons.inj hs).1
    · exact fun s hs => hne (by decide) rfl (List.cons.inj hs).1
  rw [List.cons_append] at hwords ⊢
  rw [hatom, atom, hwords]
  exact number_append hrest h

/-! ## Values -/

/-- A character that the reader does not skip in front of a value, and that is neither the end of an array
nor a byte order mark. -/
def OpensValue (c : Char) : Prop := isBlank c = false ∧ c ≠ ']' ∧ c ≠ '\uFEFF'

/-- The text of a value is never nothing. -/
theorem IsReadable.write_head (h : j.IsReadable (ReadsBack text)) (layout : Layout) (level : Nat) :
    ∃ c t, j.write text layout level = c :: t ∧ OpensValue c := by
  have hnumber {s : List Char} {k : Json Float} (hs : number s = .ok (k, [])) :
      ∃ c t, s = c :: t ∧ OpensValue c := by
    obtain ⟨c, t, rfl, hc⟩ := number_head hs
    have hne {d : Char} (hd : d ≠ '-') (hdigit : d.isDigit = false) : c ≠ d :=
      ne_of_number_head hc hd hdigit
    have hblank : isBlank c = false := by
      simp only [isBlank, Bool.or_eq_false_iff, beq_eq_false_iff_ne]
      exact ⟨⟨⟨hne (by decide) rfl, hne (by decide) rfl⟩, hne (by decide) rfl⟩, hne (by decide) rfl⟩
    exact ⟨c, t, rfl, hblank, hne (by decide) rfl, hne (by decide) rfl⟩
  have hopens {c : Char} (h : c ∈ ['n', 't', 'f', '"', '[', '\x7b']) : OpensValue c := by
    simp only [List.mem_cons, List.not_mem_nil, or_false] at h
    rcases h with rfl | rfl | rfl | rfl | rfl | rfl <;> exact ⟨rfl, by decide, by decide⟩
  cases h with
  | null => exact ⟨'n', _, rfl, hopens (by decide)⟩
  | bool b =>
    cases b with
    | true => exact ⟨'t', _, rfl, hopens (by decide)⟩
    | false => exact ⟨'f', _, rfl, hopens (by decide)⟩
  | int hi => exact hnumber (number_toString hi)
  | real hx => exact hnumber hx
  | text _ => exact ⟨'"', _, rfl, hopens (by decide)⟩
  | @array items _ =>
    cases items with
    | nil => exact ⟨'[', _, rfl, hopens (by decide)⟩
    | cons item items => exact ⟨'[', _, rfl, hopens (by decide)⟩
  | @object fields _ _ _ =>
    cases fields with
    | nil => exact ⟨'\x7b', _, rfl, hopens (by decide)⟩
    | cons field fields => exact ⟨'\x7b', _, rfl, hopens (by decide)⟩

/-- The reader takes the value off the front of its text, as deep as the text may be, and leaves what
stands behind it. -/
def ReadsAsWritten (lenient : Bool) (text : Float → String) (layout : Layout) (j : Json Float) : Prop :=
  ∀ level fuel rest, EndsValue rest → (j.write text layout level).length ≤ fuel →
    value lenient fuel (j.write text layout level ++ rest) = .ok (j, rest)

theorem skipBlanks_write (h : j.IsReadable (ReadsBack text)) (level : Nat) (s : List Char) :
    skipBlanks (j.write text layout level ++ s) = j.write text layout level ++ s := by
  obtain ⟨c, t, ht, hc⟩ := h.write_head layout level
  rw [ht, List.cons_append, skipBlanks_cons hc.1]

/-- Items that are read as they are written are read in turn. -/
theorem items_write (fuel level : Nat) (tail : List Char) {item : Json Float} {others : List (Json Float)}
    (hread : ∀ k ∈ item :: others, k.IsReadable (ReadsBack text))
    (ih : ∀ k ∈ item :: others, ReadsAsWritten lenient text layout k)
    (hfuel : (item.write text layout (level + 1)).length
      + (writeItems text layout level others).length < fuel) :
    items lenient fuel (item.write text layout (level + 1) ++ (writeItems text layout level others
        ++ (layout.separator (level - 1) ++ ']' :: tail)))
      = .ok (item :: others, tail) := by
  induction others generalizing item fuel with
  | nil =>
    obtain ⟨fuel, rfl⟩ : ∃ n, fuel = n + 1 := ⟨fuel - 1, by omega⟩
    have hitem := ih item List.mem_cons_self (level + 1) fuel
      (layout.separator (level - 1) ++ ']' :: tail) (endsValue_separator (by decide) tail) (by omega)
    exact items_last hitem (skipBlanks_separator _)
  | cons next others ihs =>
    obtain ⟨fuel, rfl⟩ : ∃ n, fuel = n + 1 := ⟨fuel - 1, by omega⟩
    rw [writeItems] at hfuel ⊢
    simp only [List.cons_append, List.append_assoc, List.length_cons, List.length_append] at hfuel ⊢
    have hitem := ih item List.mem_cons_self (level + 1) fuel
      (',' :: (layout.separator level ++ (next.write text layout (level + 1)
        ++ (writeItems text layout level others ++ (layout.separator (level - 1) ++ ']' :: tail)))))
      (endsValue_cons (by decide) _) (by omega)
    apply items_more hitem (skipBlanks_cons rfl _)
    rw [skipBlanks_separator, skipBlanks_write (hread next (by simp))]
    exact ihs fuel (fun k hk => hread k (List.mem_cons_of_mem _ hk))
      (fun k hk => ih k (List.mem_cons_of_mem _ hk)) (by omega)

/-- Fields whose values are read as they are written are read in turn. -/
theorem fields_write (fuel level : Nat) (tail : List Char) {key : Text} {item : Json Float}
    {others : List (Text × Json Float)}
    (hjoined : ∀ field ∈ (key, item) :: others, field.1.IsJoined)
    (hread : ∀ field ∈ (key, item) :: others, field.2.IsReadable (ReadsBack text))
    (ih : ∀ field ∈ (key, item) :: others, ReadsAsWritten lenient text layout field.2)
    (hfuel : (item.write text layout (level + 1)).length
      + (writeFields text layout level others).length < fuel) :
    fields lenient fuel (quoted key ++ ':' :: (layout.afterColon ++ (item.write text layout (level + 1)
        ++ (writeFields text layout level others ++ (layout.separator (level - 1) ++ '\x7d' :: tail)))))
      = .ok ((key, item) :: others, tail) := by
  induction others generalizing key item fuel with
  | nil =>
    obtain ⟨fuel, rfl⟩ : ∃ n, fuel = n + 1 := ⟨fuel - 1, by omega⟩
    have hwritten : ReadsAsWritten lenient text layout item := ih _ List.mem_cons_self
    have hitem := hwritten (level + 1) fuel (layout.separator (level - 1) ++ '\x7d' :: tail)
      (endsValue_separator (by decide) tail) (by omega)
    have hend : skipBlanks (layout.separator (level - 1) ++ '\x7d' :: tail) = '\x7d' :: tail :=
      skipBlanks_separator _
    refine fields_last (hjoined _ List.mem_cons_self) ?_ hitem hend
    rw [skipBlanks_afterColon, skipBlanks_write (hread _ List.mem_cons_self)]
    rfl
  | cons next others ihs =>
    obtain ⟨fuel, rfl⟩ : ∃ n, fuel = n + 1 := ⟨fuel - 1, by omega⟩
    obtain ⟨nextKey, next⟩ := next
    rw [writeFields] at hfuel ⊢
    simp only [List.cons_append, List.append_assoc, List.length_cons, List.length_append] at hfuel ⊢
    have hwritten : ReadsAsWritten lenient text layout item := ih _ List.mem_cons_self
    have hitem := hwritten (level + 1) fuel
      (',' :: (layout.separator level ++ (quoted nextKey ++ ':' :: (layout.afterColon
        ++ (next.write text layout (level + 1) ++ (writeFields text layout level others
          ++ (layout.separator (level - 1) ++ '\x7d' :: tail)))))))
      (endsValue_cons (by decide) _) (by omega)
    have hothers := ihs fuel (fun field hfield => hjoined field (List.mem_cons_of_mem _ hfield))
      (fun field hfield => hread field (List.mem_cons_of_mem _ hfield))
      (fun field hfield => ih field (List.mem_cons_of_mem _ hfield)) (by omega)
    refine fields_more (hjoined _ List.mem_cons_self) ?_ hitem (skipBlanks_cons rfl _) ?_
    · rw [skipBlanks_afterColon, skipBlanks_write (hread _ List.mem_cons_self)]
    · rw [skipBlanks_separator, skipBlanks_quoted]
      exact hothers

/-- What is written is never nothing, so there is no need for a text that no fuel is left for. -/
theorem IsReadable.readsAsWritten_of_succ (h : j.IsReadable (ReadsBack text))
    (hread : ∀ level fuel rest, EndsValue rest → (j.write text layout level).length ≤ fuel + 1 →
      value lenient (fuel + 1) (j.write text layout level ++ rest) = .ok (j, rest)) :
    ReadsAsWritten lenient text layout j := by
  intro level fuel rest hrest hfuel
  obtain ⟨c, t, ht, -⟩ := h.write_head layout level
  have hlen : 0 < (j.write text layout level).length := by simp [ht]
  obtain ⟨fuel, rfl⟩ : ∃ n, fuel = n + 1 := ⟨fuel - 1, by omega⟩
  exact hread level fuel rest hrest hfuel

/-- The reader undoes the writer. -/
theorem IsReadable.readsAsWritten (h : j.IsReadable (ReadsBack text)) :
    ReadsAsWritten lenient text layout j := by
  refine h.readsAsWritten_of_succ ?_
  induction h with
  | null => exact fun _ _ _ _ _ => rfl
  | bool b =>
    cases b with
    | true => exact fun _ _ _ _ _ => rfl
    | false => exact fun _ _ _ _ _ => rfl
  | int hi => exact fun _ _ _ hrest _ => value_number (number_toString hi) hrest (Nat.succ_pos _)
  | real hx => exact fun _ _ _ hrest _ => value_number hx hrest (Nat.succ_pos _)
  | text ht =>
    intro level fuel rest _ _
    rw [write, quoted_append, value.eq_2, string_flatMap_escapeCode _ ht]
    rfl
  | @array items hread ih =>
    intro level fuel rest _ hfuel
    match items with
    | [] => rfl
    | item :: others =>
      have hwritten (k : Json Float) (hk : k ∈ item :: others) : ReadsAsWritten lenient text layout k :=
        (hread k hk).readsAsWritten_of_succ (ih k hk)
      rw [write] at hfuel ⊢
      simp only [List.cons_append, List.append_assoc, List.nil_append, List.length_cons,
        List.length_append] at hfuel ⊢
      have hitems := items_write fuel level rest hread hwritten (by omega)
      refine value_array ?_ ?_ hitems
      · rw [skipBlanks_separator, skipBlanks_write (hread item List.mem_cons_self)]
      · obtain ⟨c, t, ht, hc⟩ := (hread item List.mem_cons_self).write_head layout (level + 1)
        rw [ht]
        exact fun u hu => hc.2.1 (List.cons.inj hu).1
  | @object fields hkeys hjoined hread ih =>
    intro level fuel rest _ hfuel
    match fields with
    | [] => rfl
    | (key, item) :: others =>
      have hwritten (field : Text × Json Float) (hfield : field ∈ (key, item) :: others) :
          ReadsAsWritten lenient text layout field.2 :=
        (hread field hfield).readsAsWritten_of_succ (ih field hfield)
      rw [write] at hfuel ⊢
      simp only [List.cons_append, List.append_assoc, List.nil_append, List.length_cons,
        List.length_append] at hfuel ⊢
      have hfields := fields_write fuel level rest hjoined hread hwritten (by omega)
      rw [← ofFields_of_nodup hkeys]
      refine value_object ?_ ?_ hfields
      · rw [skipBlanks_separator, skipBlanks_quoted]
      · exact fun u hu => absurd (List.cons.inj hu).1 (by decide)

/-! ## Texts -/

/-- A reader of either dialect takes the whole of a canonical text. -/
theorem IsReadable.document_render (h : j.IsReadable (ReadsBack text)) (layout : Layout) (lenient : Bool) :
    document lenient (j.render text layout).toList = .ok j.sorted := by
  obtain ⟨c, t, ht, hblank, -, hmark⟩ := h.sorted.write_head layout 1
  have hread : value lenient (2 * (j.sorted.write text layout 1).length + 1)
      (j.sorted.write text layout 1 ++ []) = .ok (j.sorted, []) :=
    h.sorted.readsAsWritten 1 _ [] endsValue_nil (by omega)
  rw [List.append_nil, ht] at hread
  rw [render, String.toList_ofList, ht, document.eq_2 _ _ fun u hu => hmark (List.cons.inj hu).1,
    skipBlanks_cons hblank, hread]
  rfl

/-- What is read from the canonical text are the data with their fields in order. -/
theorem IsReadable.parse_render (h : j.IsReadable (ReadsBack text)) (layout : Layout) :
    parse (j.render text layout) = .ok j.sorted := by
  rw [parse, h.document_render layout]
  rfl

theorem IsReadable.parseLenient_render (h : j.IsReadable (ReadsBack text)) (layout : Layout) :
    parseLenient (j.render text layout) = .ok j.sorted := by
  rw [parseLenient, h.document_render layout]
  rfl

/-- The data that are read from the canonical text are the same. -/
theorem IsReadable.parse_render_same (h : j.IsReadable (ReadsBack text)) (layout : Layout) :
    ∃ k, parse (j.render text layout) = .ok k ∧ k.Same j :=
  ⟨j.sorted, h.parse_render layout, h.sorted_same⟩

/-- In one layout two data have one text if and only if they are the same. -/
theorem IsReadable.render_eq_iff {k : Json Float} (hj : j.IsReadable (ReadsBack text))
    (hk : k.IsReadable (ReadsBack text)) (layout : Layout) :
    j.render text layout = k.render text layout ↔ j.Same k := by
  rw [hj.same_iff hk]
  constructor
  · intro htext
    have hparse := hj.parse_render layout
    rw [htext, hk.parse_render layout] at hparse
    exact (Except.ok.inj hparse).symm
  · intro hsorted
    rw [render, render, hsorted]

end Presolve.Json
