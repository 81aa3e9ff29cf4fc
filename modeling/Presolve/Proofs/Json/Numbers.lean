import Presolve.Json.Reader

/-!
# Numbers read back

A number ends where no character can continue it, so it is read in the same way whatever stands behind it, as
long as this is nothing or what stands behind a value of a text (`number_append`). An integer is written by
its digits, and no integer but zero starts with a zero (`number_toString`).
-/

namespace Presolve.Json

open Reader

/-! ## What stands behind a value -/

/-- The characters right behind a value within a text: a comma, the end of what the value is in, or the
line break in front of that end. -/
def enders : List Char := [',', ']', '\x7d', '\n']

theorem forall_mem_enders {P : Char → Prop} :
    (∀ c ∈ enders, P c) ↔ P ',' ∧ P ']' ∧ P '\x7d' ∧ P '\n' := by simp [enders]

/-- A text that may stand behind a value. -/
def EndsValue (rest : List Char) : Prop := ∀ c ∈ rest.head?, c ∈ enders

variable {rest : List Char}

theorem endsValue_nil : EndsValue [] := by simp [EndsValue]

theorem endsValue_cons {c : Char} (h : c ∈ enders) (rest : List Char) : EndsValue (c :: rest) := by
  simpa [EndsValue] using h

/-- Any other character is one of the text in front. -/
theorem EndsValue.exists_cons (h : EndsValue rest) {c : Char} (hc : c ∉ enders) {s t : List Char}
    (heq : s ++ rest = c :: t) : ∃ t, s = c :: t := by
  match s with
  | [] =>
    have hend : c ∈ enders := h c (by rw [← List.nil_append rest, heq]; rfl)
    exact absurd hend hc
  | d :: s => exact ⟨s, by rw [(List.cons.inj heq).1]⟩

theorem isDigit_of_mem_enders {c : Char} (h : c ∈ enders) : c.isDigit = false := by
  have hall : ∀ c ∈ enders, c.isDigit = false := forall_mem_enders.2 ⟨rfl, rfl, rfl, rfl⟩
  exact hall c h

/-- The digits at the front of a text are the same with an end behind it. -/
theorem EndsValue.takeWhile_append (h : EndsValue rest) (s : List Char) :
    (s ++ rest).takeWhile Char.isDigit = s.takeWhile Char.isDigit := by
  have hrest : rest.takeWhile Char.isDigit = [] := by
    match rest with
    | [] => rfl
    | c :: rest => rw [List.takeWhile_cons, isDigit_of_mem_enders (h c rfl)]; rfl
  rw [List.takeWhile_append, hrest, List.append_nil]
  split
  · next hall => exact ((List.takeWhile_prefix _).eq_of_length hall).symm
  · rfl

theorem drop_takeWhile_append (s rest : List Char) :
    (s ++ rest).drop (s.takeWhile Char.isDigit).length
      = s.drop (s.takeWhile Char.isDigit).length ++ rest :=
  List.drop_append_of_le_length (List.takeWhile_prefix _).length_le

/-! ## The parts of a number -/

/-- The same result with more text behind what is left. -/
def leave {β : Type} (rest : List Char) (p : β × List Char) : β × List Char := (p.1, p.2 ++ rest)

/-- A part that is a run of digits is read in the same way with an end behind the text. -/
theorem EndsValue.digits_append {β : Type} (h : EndsValue rest) (s : List Char) (f : List Char → β) :
    (if ((s ++ rest).takeWhile Char.isDigit).isEmpty then none
      else some (f ((s ++ rest).takeWhile Char.isDigit),
        (s ++ rest).drop ((s ++ rest).takeWhile Char.isDigit).length))
      = (if (s.takeWhile Char.isDigit).isEmpty then none
          else some (f (s.takeWhile Char.isDigit), s.drop (s.takeWhile Char.isDigit).length)).map
        (leave rest) := by
  rw [h.takeWhile_append, drop_takeWhile_append]
  by_cases hnone : (s.takeWhile Char.isDigit).isEmpty = true
  · rw [if_pos hnone, if_pos hnone, Option.map_none]
  · rw [if_neg hnone, if_neg hnone, Option.map_some, leave]

theorem whole?_append (h : EndsValue rest) (s : List Char) :
    whole? (s ++ rest) = (whole? s).map (leave rest) := by
  by_cases hzero : ∃ t, s = '0' :: t
  · obtain ⟨t, rfl⟩ := hzero
    rfl
  · have hzero' : ∀ t, s ++ rest = '0' :: t → False := fun t ht => hzero (h.exists_cons (by decide) ht)
    rw [whole?.eq_2 _ hzero', whole?.eq_2 _ fun t ht => hzero ⟨t, ht⟩]
    exact h.digits_append s id

theorem fraction?_append (h : EndsValue rest) (s : List Char) :
    fraction? (s ++ rest) = (fraction? s).map (leave rest) := by
  by_cases hpoint : ∃ t, s = '.' :: t
  · obtain ⟨t, rfl⟩ := hpoint
    exact h.digits_append t id
  · have hpoint' : ∀ t, s ++ rest = '.' :: t → False := fun t ht => hpoint (h.exists_cons (by decide) ht)
    rw [fraction?.eq_2 _ hpoint', fraction?.eq_2 _ fun t ht => hpoint ⟨t, ht⟩, Option.map_none]

theorem exponent?_of_ne {c : Char} (h : ¬(c = 'e' ∨ c = 'E')) (s : List Char) :
    exponent? (c :: s) = none := by
  rw [exponent?.eq_def]
  exact if_neg h

theorem exponent?_append (h : EndsValue rest) (s : List Char) :
    exponent? (s ++ rest) = (exponent? s).map (leave rest) := by
  match s with
  | [] =>
    match rest with
    | [] => rfl
    | c :: rest =>
      have hall : ∀ c ∈ enders, ¬(c = 'e' ∨ c = 'E') := forall_mem_enders.2 (by decide)
      exact exponent?_of_ne (hall c (h c rfl)) rest
  | c :: s =>
    by_cases hletter : c = 'e' ∨ c = 'E'
    · -- what is left behind the sign is a run of digits
      have hdigits (negative : Bool) (s : List Char) := h.digits_append s fun digits =>
        if negative then -(digitsValue digits : Int) else digitsValue digits
      by_cases hplus : ∃ t, s = '+' :: t
      · obtain ⟨t, rfl⟩ := hplus
        rw [List.cons_append, List.cons_append, exponent?, exponent?, if_pos hletter, if_pos hletter]
        exact hdigits false t
      by_cases hminus : ∃ t, s = '-' :: t
      · obtain ⟨t, rfl⟩ := hminus
        rw [List.cons_append, List.cons_append, exponent?, exponent?, if_pos hletter, if_pos hletter]
        exact hdigits true t
      · rw [List.cons_append,
          exponent?.eq_3 _ _ (fun t ht => hplus (h.exists_cons (by decide) ht))
            (fun t ht => hminus (h.exists_cons (by decide) ht)),
          exponent?.eq_3 _ _ (fun t ht => hplus ⟨t, ht⟩) (fun t ht => hminus ⟨t, ht⟩),
          if_pos hletter, if_pos hletter]
        exact hdigits false s
    · rw [List.cons_append, exponent?_of_ne hletter, exponent?_of_ne hletter, Option.map_none]

/-! ## Numbers -/

/-- A number is read in the same way with an end behind it, once its sign is read. -/
theorem unsigned_append (h : EndsValue rest) {negative : Bool} {s start start' : List Char}
    {j : Json Float} (hs : unsigned negative start s = .ok (j, [])) :
    unsigned negative start' (s ++ rest) = .ok (j, rest) := by
  rw [unsigned] at hs ⊢
  rw [whole?_append h]
  match hwhole : whole? s with
  | none => rw [hwhole] at hs; exact nomatch hs
  | some (whole, s') =>
    have hplaces : ((fraction? s').map (leave rest)).getD ([], s' ++ rest)
        = leave rest ((fraction? s').getD ([], s')) := Option.getD_map (leave rest) ([], s') _
    have hpower (r : List Char) : ((exponent? r).map (leave rest)).getD (0, r ++ rest)
        = leave rest ((exponent? r).getD (0, r)) := Option.getD_map (leave rest) (0, r) _
    simp only [hwhole, Option.map_some, leave, fraction?_append h, hplaces, exponent?_append h, hpower,
      Option.isSome_map] at hs ⊢
    split at hs
    · obtain ⟨hj, hend⟩ := Prod.mk.inj (Except.ok.inj hs)
      rw [hend, ← hj]
      rfl
    · by_cases hlong : Decimal.maxDigits < whole.length
      · rw [if_pos hlong] at hs
        exact nomatch hs
      · rw [if_neg hlong] at hs ⊢
        obtain ⟨hj, hend⟩ := Prod.mk.inj (Except.ok.inj hs)
        rw [hend, ← hj]
        rfl

/-- A number is read in the same way with an end behind it. -/
theorem number_append (h : EndsValue rest) {s : List Char} {j : Json Float}
    (hs : number s = .ok (j, [])) : number (s ++ rest) = .ok (j, rest) := by
  by_cases hminus : ∃ t, s = '-' :: t
  · obtain ⟨t, rfl⟩ := hminus
    exact unsigned_append h hs
  · have hminus' : ∀ t, s ++ rest = '-' :: t → False :=
      fun t ht => hminus (h.exists_cons (by decide) ht)
    rw [number.eq_2 _ fun t ht => hminus ⟨t, ht⟩] at hs
    rw [number.eq_2 _ hminus']
    exact unsigned_append h hs

theorem whole?_head {s : List Char} {p : List Char × List Char} (h : whole? s = some p) :
    ∃ c t, s = c :: t ∧ c.isDigit = true := by
  by_cases hzero : ∃ t, s = '0' :: t
  · obtain ⟨t, rfl⟩ := hzero
    exact ⟨'0', t, rfl, rfl⟩
  · rw [whole?.eq_2 _ fun t ht => hzero ⟨t, ht⟩] at h
    match s with
    | [] => exact nomatch h
    | c :: t =>
      by_cases hc : c.isDigit = true
      · exact ⟨c, t, rfl, hc⟩
      · rw [List.takeWhile_cons_of_neg hc] at h
        exact nomatch h

/-- A number begins with a sign or a digit. -/
theorem number_head {s rest : List Char} {j : Json Float} (h : number s = .ok (j, rest)) :
    ∃ c t, s = c :: t ∧ (c = '-' ∨ c.isDigit = true) := by
  by_cases hminus : ∃ t, s = '-' :: t
  · obtain ⟨t, rfl⟩ := hminus
    exact ⟨'-', t, rfl, .inl rfl⟩
  · rw [number.eq_2 _ fun t ht => hminus ⟨t, ht⟩, unsigned] at h
    match hwhole : whole? s with
    | none => rw [hwhole] at h; exact nomatch h
    | some p =>
      obtain ⟨c, t, hs, hc⟩ := whole?_head hwhole
      exact ⟨c, t, hs, .inr hc⟩

/-- Behind the sign of a number there is a digit. -/
theorem number_minus_head {s rest : List Char} {j : Json Float} (h : number ('-' :: s) = .ok (j, rest)) :
    ∃ c t, s = c :: t ∧ c.isDigit = true := by
  rw [number.eq_1, unsigned] at h
  match hwhole : whole? s with
  | none => rw [hwhole] at h; exact nomatch h
  | some p => exact whole?_head hwhole

theorem ne_of_number_head {c d : Char} (hc : c = '-' ∨ c.isDigit = true) (hd : d ≠ '-')
    (hdigit : d.isDigit = false) : c ≠ d := by
  rintro rfl
  rcases hc with hc | hc
  · exact hd hc
  · rw [hdigit] at hc
    exact nomatch hc

/-! ## Integers -/

/-- No number but zero starts with a zero. -/
theorem toDigits_ne_zero_cons {n : Nat} (h : 0 < n) (t : List Char) : Nat.toDigits 10 n ≠ '0' :: t := by
  induction n using Nat.strongRecOn generalizing t with
  | ind n ih =>
    by_cases hsmall : n < 10
    · rw [Nat.toDigits_of_lt_base hsmall]
      intro heq
      have hzero : n = 0 := Nat.digitChar_eq_zero.1 (List.cons.inj heq).1
      omega
    · rw [Nat.toDigits_of_base_le (by decide) (by omega)]
      match hdigits : Nat.toDigits 10 (n / 10) with
      | [] => exact absurd hdigits Nat.toDigits_ne_nil
      | c :: s =>
        intro heq
        have hc : c = '0' := (List.cons.inj heq).1
        exact ih (n / 10) (by omega) (by omega) s (by rw [hdigits, hc])

theorem whole?_toDigits (n : Nat) : whole? (Nat.toDigits 10 n) = some (Nat.toDigits 10 n, []) := by
  by_cases hzero : n = 0
  · rw [hzero]
    rfl
  · have hall : ∀ c ∈ Nat.toDigits 10 n, c.isDigit = true :=
      fun c hc => Nat.isDigit_of_mem_toDigits (by decide) (by decide) hc
    have hrun : (Nat.toDigits 10 n).takeWhile Char.isDigit = Nat.toDigits 10 n := by
      have happend := @List.takeWhile_append_of_pos _ _ _ [] hall
      rwa [List.takeWhile_nil, List.append_nil] at happend
    rw [whole?.eq_2 _ (toDigits_ne_zero_cons (by omega)), hrun, List.drop_length]
    exact if_neg (by simp [Nat.toDigits_ne_nil])

theorem digitsValue_toDigits (n : Nat) : digitsValue (Nat.toDigits 10 n) = n :=
  Nat.ofDigitChars_ten_toDigits

theorem unsigned_toDigits {n : Nat} (h : Decimal.length n ≤ Decimal.maxDigits) (negative : Bool)
    (start : List Char) : unsigned negative start (Nat.toDigits 10 n)
      = .ok (.int (if negative then -(n : Int) else n), []) := by
  have hshort : ¬Decimal.maxDigits < (Nat.toDigits 10 n).length := Nat.not_lt.2 h
  rw [unsigned, whole?_toDigits]
  show (if Decimal.maxDigits < (Nat.toDigits 10 n).length then _ else _) = _
  rw [if_neg hshort, digitsValue_toDigits]

theorem toList_toString_ofNat (n : Nat) : (toString (Int.ofNat n)).toList = Nat.toDigits 10 n :=
  Nat.toList_repr

theorem toList_toString_negSucc (n : Nat) :
    (toString (Int.negSucc n)).toList = '-' :: Nat.toDigits 10 (n + 1) := by
  show ("-" ++ (n + 1).repr).toList = _
  rw [String.toList_append, Nat.toList_repr]
  rfl

/-- An integer that is not too long is read from its digits. -/
theorem number_toString {i : Int} (h : Decimal.isWritable i = true) :
    number (toString i).toList = .ok (.int i, []) := by
  rw [Decimal.isWritable_iff] at h
  match i with
  | .ofNat n =>
    have hminus : ∀ t, Nat.toDigits 10 n ≠ '-' :: t := by
      intro t ht
      have hdigit : ('-').isDigit = true :=
        Nat.isDigit_of_mem_toDigits (n := n) (b := 10) (by decide) (by decide) (by simp [ht])
      exact absurd hdigit (by decide)
    rw [toList_toString_ofNat, number.eq_2 _ hminus]
    exact unsigned_toDigits h false _
  | .negSucc n =>
    rw [toList_toString_negSucc]
    exact unsigned_toDigits h true _

end Presolve.Json
