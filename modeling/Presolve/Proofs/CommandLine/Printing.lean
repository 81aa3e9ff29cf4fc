import Presolve.CommandLine.Session
import Presolve.Proofs.CommandLine.FileInput
import Presolve.Proofs.Preparation.Additions

/-!
# Lines that can be printed

A line with the half of a pair cannot be printed. The lines of a report are made of characters but for the
diagnostics that name unknown keys, for a key can be any text (`Anomaly.holdsHalf_text`). So all of them can be
printed exactly if no key of the problem, and none of its options, has a half in it
(`exists_unprintable_iff`). Entries that are empty do not count, since their keys are not named.
-/

namespace Presolve

/-! ## Texts with halves -/

namespace Text

/-- A code point of the text is the half of a pair. -/
def HoldsHalf (t : Text) : Prop := ∃ h, CodePoint.half h ∈ t.codes

theorem string?_eq_none {t : Text} : t.string? = none ↔ t.HoldsHalf := by
  obtain ⟨codes⟩ := t
  rw [string?, Option.map_eq_none_iff, HoldsHalf]
  induction codes with
  | nil => simp
  | cons code codes ih =>
    rw [List.mapM_cons]
    cases code with
    | half h => simp [CodePoint.char?]
    | char c =>
      cases hrest : codes.mapM CodePoint.char? with
      | none => simpa [CodePoint.char?, hrest] using ih
      | some cs => simpa [CodePoint.char?, hrest] using ih

@[simp] theorem not_holdsHalf_ofString (s : String) : ¬(ofString s).HoldsHalf := by
  rw [← string?_eq_none, string?_ofString]
  exact Option.some_ne_none s

@[simp] theorem holdsHalf_append {s t : Text} : (s ++ t).HoldsHalf ↔ s.HoldsHalf ∨ t.HoldsHalf := by
  simp only [HoldsHalf, codes_append, List.mem_append, exists_or]

/-- Between texts stand only separators. -/
theorem holdsHalf_join {separator : Text} (h : ¬separator.HoldsHalf) (texts : List Text) :
    (join separator texts).HoldsHalf ↔ ∃ t ∈ texts, t.HoldsHalf := by
  induction texts with
  | nil => simp [join, HoldsHalf]
  | cons t rest ih =>
    cases rest with
    | nil => simp [join, HoldsHalf]
    | cons u rest =>
      have hjoin : join separator (t :: u :: rest) = t ++ (separator ++ join separator (u :: rest)) :=
        ext_codes (by simp [join])
      rw [hjoin, holdsHalf_append, holdsHalf_append, ih, or_iff_right h]
      simp

/-- Names are made of characters. -/
theorem not_holdsHalf_of_isAmong {names : List String} {t : Text} (h : t.isAmong names = true) :
    ¬t.HoldsHalf := by
  obtain ⟨name, -, hname⟩ := List.any_eq_true.1 h
  rw [← beq_iff_eq.1 hname]
  exact not_holdsHalf_ofString name

end Text

/-! ## Diagnostics -/

section

variable {α : Type}

/-- The texts of the caller that an anomaly shows: the keys that name nothing. -/
def Anomaly.keys : Anomaly α → List Text
  | unknownFields names | unknownOptions names => names
  | _ => []

theorem Anomaly.keys_eq_nil {a : Anomaly α} (h : a.namesUnknown = false) : a.keys = [] := by
  cases a with
  | unknownFields _ | unknownOptions _ => cases h
  | _ => rfl

/-- Everything else in a diagnostic are characters. -/
theorem Anomaly.holdsHalf_text [Interchange α] (source : String) (a : Anomaly α) :
    (a.text source).HoldsHalf ↔ ∃ key ∈ a.keys, key.HoldsHalf := by
  have hnames (names : List Text) := Text.holdsHalf_join (Text.not_holdsHalf_ofString ", ") names
  cases a with
  | unknownFields names | unknownOptions names =>
    match names with
    | [] => simp [text, keys, hnames]
    | [name] => simp [text, keys]
    | _ :: _ :: _ => simp [text, keys, hnames]
  | _ => simp [text, keys]

theorem Diagnostic.holdsHalf_message [Interchange α] (d : Diagnostic α) :
    d.message.HoldsHalf ↔ ∃ key ∈ d.anomaly.keys, key.HoldsHalf := by
  rw [message, Text.holdsHalf_append, Text.holdsHalf_append, d.anomaly.holdsHalf_text]
  simp

/-- A key among some anomalies has a half. -/
def Anomaly.AnyHoldsHalf (log : List (Anomaly α)) : Prop := ∃ a ∈ log, ∃ key ∈ a.keys, key.HoldsHalf

theorem Anomaly.anyHoldsHalf_append {log log' : List (Anomaly α)} :
    AnyHoldsHalf (log ++ log') ↔ AnyHoldsHalf log ∨ AnyHoldsHalf log' := by
  simp only [AnyHoldsHalf, List.mem_append, or_and_right, exists_or]

theorem Anomaly.not_anyHoldsHalf {log : List (Anomaly α)} (h : ∀ a ∈ log, a.namesUnknown = false) :
    ¬AnyHoldsHalf log := by
  rintro ⟨a, ha, key, hkey, -⟩
  rw [keys_eq_nil (h a ha)] at hkey
  cases hkey

/-- Some of the reported keys has a half if one of the unknown keys has. -/
theorem anyHoldsHalf_report {report : List Text → Anomaly α} (hreport : ∀ names, (report names).keys = names)
    (texts : List Text) :
    Anomaly.AnyHoldsHalf (if texts.isEmpty then [] else [report (texts.mergeSort fun a b => decide (a ≤ b))])
      ↔ ∃ t ∈ texts, t.HoldsHalf := by
  cases texts with
  | nil => simp [Anomaly.AnyHoldsHalf]
  | cons t rest =>
    rw [List.isEmpty_cons, if_neg Bool.false_ne_true, Anomaly.AnyHoldsHalf]
    simp only [List.mem_singleton, exists_eq_left, hreport, List.mem_mergeSort]

/-! ## Keys of dictionaries -/

/-- The key of an entry that counts has a half. -/
def Entries.HasHalfKey (m : Entries α) : Prop :=
  ∃ entry ∈ m.kept, ∃ key, entry.1.text? = some key ∧ key.HoldsHalf

/-- A key with a half is never known. -/
theorem Entries.exists_unknown_iff (m : Entries α) (names : List String) :
    (∃ t ∈ m.kept.unknown (Text.isAmong names), t.HoldsHalf) ↔ m.HasHalfKey := by
  constructor
  · rintro ⟨t, ht, hhalf⟩
    obtain ⟨⟨key, value⟩, hentry, rfl⟩ := List.mem_map.1 (List.mem_filter.1 ht).1
    obtain ⟨entry, hentry, htext, -⟩ := mem_byText.1 hentry
    exact ⟨entry, hentry, key, htext, hhalf⟩
  · rintro ⟨entry, hentry, key, htext, hhalf⟩
    refine ⟨key, List.mem_filter.2 ⟨List.mem_map.2 ⟨(key, entry.2), ?_, rfl⟩, ?_⟩, hhalf⟩
    · exact mem_byText.2 ⟨entry, hentry, htext, rfl⟩
    · rw [Bool.not_eq_true', Bool.eq_false_iff]
      exact fun hknown => Text.not_holdsHalf_of_isAmong hknown hhalf

end

namespace CommandLine

open Value

/-! ## Printing -/

theorem printed_eq_error_iff (lines : List Text) :
    (printed lines).2 = .error .unencodable ↔ ∃ line ∈ lines, line.HoldsHalf := by
  induction lines with
  | nil => simp [printed]
  | cons line rest ih =>
    rw [printed]
    split
    · next hnone =>
      exact iff_of_true rfl ⟨line, List.mem_cons_self, Text.string?_eq_none.1 hnone⟩
    · next string hsome =>
      have hline : ¬line.HoldsHalf := by simp [← Text.string?_eq_none, hsome]
      simpa [hline] using ih

theorem printed_eq_ok_iff (lines : List Text) :
    (printed lines).2 = .ok () ↔ ∀ line ∈ lines, ¬line.HoldsHalf := by
  induction lines with
  | nil => simp [printed]
  | cons line rest ih =>
    rw [printed, List.forall_mem_cons, ← Text.string?_eq_none]
    split
    · next hnone => exact iff_of_false nofun fun h => h.1 hnone
    · next string hsome => simpa [hsome] using ih

/-! ## Diagnostics of a problem file -/

variable {path text : String} {p : ProblemFile} {search : NearestSearch Float} {invoker : Invoker}

/-- A key of the problem or of its options has a half. -/
def HasHalfKey (p : ProblemFile) (i : Input Float) : Prop :=
  Entries.HasHalfKey (fieldEntries (readValues p)) ∨ ∃ m, i.options.dictionary? = some m ∧ m.HasHalfKey

/-- What reading a problem file reports. -/
theorem anyHoldsHalf_of_readFields (hp : ProblemFile.read path text = .ok p) {source : String}
    {i : Input Float} {j : Journal Float}
    (hread : (readFields source p.toValue).outcome none {} = (.ok i, j)) :
    ∃ log, j.log.entries = log.map (Diagnostic.mk source) ∧
      (Anomaly.AnyHoldsHalf log ↔ Entries.HasHalfKey (fieldEntries (readValues p))) := by
  rw [toValue_eq, Value.ofFields] at hread
  have hdict := isDictionary_of_read hp
  have hstart := isNone_start_of_readFields hdict hread
  obtain ⟨k, hk, hentries⟩ := readFields_results hdict source hstart {}
  obtain ⟨-, rfl⟩ := Prod.mk.inj (hread.symm.trans hk)
  refine ⟨_, hentries, ?_⟩
  rw [Anomaly.anyHoldsHalf_append, or_iff_right]
  · exact (anyHoldsHalf_report (fun _ => rfl) _).trans (Entries.exists_unknown_iff _ fieldKeys)
  · refine Anomaly.not_anyHoldsHalf fun a ha => ?_
    split at ha
    · rw [List.mem_singleton.1 ha]
      rfl
    · cases ha

/-- What a preparation of data reports. -/
theorem anyHoldsHalf_of_prepare {i : Input Float} (hi : IsDatum i.options) {j k : Journal Float}
    {r : Record Float} (hprepare : (prepare search invoker i).outcome none j = (.ok r, k)) :
    ∃ log, r.diagnostics = j.log.entries ++ log.map (Diagnostic.mk invoker.name) ∧
      (Anomaly.AnyHoldsHalf log ↔ ∃ m, i.options.dictionary? = some m ∧ m.HasHalfKey) := by
  obtain ⟨n, bounds, s, before, added, after, hothers, -, hresolve, hagain⟩ := prepare_results hprepare
  obtain ⟨l, hl, -⟩ := hresolve {}
  obtain ⟨entries, _, hread, hsettings⟩ := Prep.outcome_bind_eq_ok.1 hl
  obtain ⟨hentries, rfl⟩ := Prod.mk.inj ((Prep.outcome_lift _).symm.trans hread)
  obtain ⟨m, hm, rfl⟩ := hi.exists_dictionary hentries
  have hdict := hi.isDictionary_of_dictionary? hm
  obtain ⟨front, back, hsilent, hresults⟩ := Resolution.settings_results hdict.kept hsettings
  have hrecord := hagain i.options _ (.bind_of_ok hentries hresults) j
  rw [hprepare] at hrecord
  refine ⟨_, congrArg Record.diagnostics (Except.ok.inj hrecord), ?_⟩
  have hbefore : ¬Anomaly.AnyHoldsHalf before :=
    Anomaly.not_anyHoldsHalf fun a ha => hothers a (List.mem_append_left _ ha)
  have hafter : ¬Anomaly.AnyHoldsHalf after :=
    Anomaly.not_anyHoldsHalf fun a ha => hothers a (List.mem_append_right _ ha)
  have hfront : ¬Anomaly.AnyHoldsHalf front :=
    Anomaly.not_anyHoldsHalf fun a ha => hsilent a (List.mem_append_left _ ha)
  have hback : ¬Anomaly.AnyHoldsHalf back :=
    Anomaly.not_anyHoldsHalf fun a ha => hsilent a (List.mem_append_right _ ha)
  simp only [Anomaly.anyHoldsHalf_append, hbefore, hafter, hfront, hback, false_or, or_false, hm,
    Option.some.injEq, exists_eq_left']
  exact (anyHoldsHalf_report (fun _ => rfl) _).trans (m.exists_unknown_iff _)

/-- A diagnostic of a prepared problem file cannot be printed exactly if a key has a half. -/
theorem exists_unprintable_iff (hp : ProblemFile.read path text = .ok p) {i : Input Float}
    (hi : (Prep.run none (readFields invoker.name p.toValue)).1 = .ok i) {r : Record Float}
    (hr : (Prep.run none (prepareFields search invoker p.toValue)).1 = .ok r) :
    (∃ d ∈ r.diagnostics, d.message.HoldsHalf) ↔ HasHalfKey p i := by
  obtain ⟨i', j, hread, hprepare⟩ := Prep.outcome_bind_eq_ok.1 (Prod.ext hr rfl :
    (prepareFields search invoker p.toValue).outcome none {} = (.ok r, _))
  obtain rfl : i = i' := Except.ok.inj (hi.symm.trans (congrArg Prod.fst hread))
  obtain ⟨log, hlog, hfields⟩ := anyHoldsHalf_of_readFields hp hread
  obtain ⟨log', hdiagnostics, hoptions⟩ :=
    anyHoldsHalf_of_prepare (isFromFile_of_readFields hp (Prep.yields_of_outcome hread)).options hprepare
  rw [HasHalfKey, ← hfields, ← hoptions, ← Anomaly.anyHoldsHalf_append, hdiagnostics, hlog, ← List.map_append,
    exists_mem_map_iff]
  exact exists_congr fun a => and_congr_right fun _ => Diagnostic.holdsHalf_message _

end CommandLine
end Presolve
