import Presolve.Proofs.CommandLine.Printing
import Presolve.Proofs.CommandLine.Unforeseen
import Presolve.Transform.NearestPoint

/-!
# How an inspection ends

An inspection ends with the exit code zero if its problem could be read and prepared, and with one if not. In
the latter case it says why in one line and keeps no file. It ends in a fault only on input that nobody
foresaw (`Unforeseen`): data that no field is expected to hold, an option of the solver that is an integer
too large for a double, a key that cannot be printed where it is reported, or a problem of so many variables
that their number is not written.
-/

namespace Presolve

/-- Prepares a problem given as a dictionary without its options. -/
def prepareWithoutOptions {α : Type} [Scalar α] [Interchange α] (search : NearestSearch α)
    (invoker : Invoker) (v : Value α) : Prep α (Record α) := do
  let i ← readFields invoker.name v
  prepare search invoker { i with options := .absent }

namespace CommandLine

/-- Input on which an inspection ends in a fault. The data of a field are not expected; or the problem could
be prepared without its options, and one that the solver has is too large; or it is prepared, but a key that
counts has a half; or no key has, but an integer of the record has too many digits. -/
inductive Unforeseen (search : NearestSearch Float) (files : Files) (path : String) :
    Option Invoker → Fault → Prop where
  | field {invoker? : Option Invoker} {text : String} {f : Fault} (hread : files.read path = .ok text)
    (h : UnforeseenText text f) : Unforeseen search files path invoker? f
  | option {invoker : Invoker} {p : ProblemFile} {i : Input Float} (hload : load files path = .ok p)
    (hread : (Prep.run none (readFields invoker.name p.toValue)).1 = .ok i)
    (hhuge : i.options.HoldsHuge invoker)
    (hother : ∃ r, (Prep.run none (prepareWithoutOptions search invoker p.toValue)).1 = .ok r) :
    Unforeseen search files path (some invoker) .overflow
  | key {invoker : Invoker} {p : ProblemFile} {i : Input Float} {r : Record Float}
    (hload : load files path = .ok p) (hread : (Prep.run none (readFields invoker.name p.toValue)).1 = .ok i)
    (hprepared : (Prep.run none (prepareFields search invoker p.toValue)).1 = .ok r)
    (hhalf : HasHalfKey p i) : Unforeseen search files path (some invoker) .unencodable
  | record {invoker : Invoker} {p : ProblemFile} {i : Input Float} {r : Record Float}
    (hload : load files path = .ok p) (hread : (Prep.run none (readFields invoker.name p.toValue)).1 = .ok i)
    (hprepared : (Prep.run none (prepareFields search invoker p.toValue)).1 = .ok r)
    (hwhole : ¬HasHalfKey p i) (hlong : r.HasLongInteger) :
    Unforeseen search files path (some invoker) .tooManyDigits

variable {search : NearestSearch Float} {files : Files} {path : String} {invoker? : Option Invoker}
  {output : Option String} {p : ProblemFile} {f : Fault}

/-! ## Reading the file -/

theorem load_eq_error_iff (hf : fileComplaint? f = none) :
    load files path = .error f ↔ ∃ text, files.read path = .ok text ∧ UnforeseenText text f := by
  unfold load
  cases hread : files.read path with
  | error e =>
    refine iff_of_false (fun h => ?_) (by simp)
    cases h
    cases hf
  | ok text =>
    simp only [Except.ok.injEq, exists_eq_left']
    exact readFile_eq_error_iff hf path text

theorem exists_read_of_load (h : load files path = .ok p) :
    ∃ text, ProblemFile.read path text = .ok p := by
  obtain ⟨text, -, h⟩ := bind_eq_ok.1 h
  exact ⟨text, h⟩

/-! ## Preparing the problem -/

/-- The keys of a problem file are texts, so they can all be written. -/
theorem readFields_failsOnly_of_file (p : ProblemFile) (source : String) :
    Prep.FailsOnly Fault.IsComplaint (readFields source p.toValue) := by
  refine readFields_failsOnly source fun entry hentry => ?_
  obtain ⟨field, -, rfl⟩ := List.mem_map.1 hentry
  rfl

theorem prepareFields_failsOnly (hkeeps : search.KeepsDimension) (hsearch : search.Returns)
    (hload : load files path = .ok p) (invoker : Invoker) :
    Prep.FailsOnly (fun x => x.IsComplaint ∨ x = .overflow) (prepareFields search invoker p.toValue) := by
  obtain ⟨text, hp⟩ := exists_read_of_load hload
  refine Prep.FailsOnly.bind (fun j x hx => .inl (readFields_failsOnly_of_file p _ j x hx)) fun i hi => ?_
  have hi := isFromFile_of_readFields hp hi
  exact prepare_failsOnly_overflow hkeeps hsearch hi.sound hi.returns hi.textKeys

theorem prepareFields_overflow_iff (hkeeps : search.KeepsDimension) (hsearch : search.Returns)
    (hload : load files path = .ok p) (invoker : Invoker) :
    (Prep.run none (prepareFields search invoker p.toValue)).1 = .error .overflow ↔
      ∃ i, (Prep.run none (readFields invoker.name p.toValue)).1 = .ok i ∧
        i.options.HoldsHuge invoker ∧
        ∃ r, (Prep.run none (prepareWithoutOptions search invoker p.toValue)).1 = .ok r := by
  obtain ⟨text, hp⟩ := exists_read_of_load hload
  show ((prepareFields search invoker p.toValue).outcome none {}).1 = _ ↔
    ∃ i, ((readFields invoker.name p.toValue).outcome none {}).1 = .ok i ∧ _ ∧
      ∃ r, ((prepareWithoutOptions search invoker p.toValue).outcome none {}).1 = .ok r
  rcases hread : (readFields invoker.name p.toValue).outcome none {} with ⟨x | i, j⟩
  · rw [prepareFields, Prep.outcome_bind_of_error hread]
    refine iff_of_false (fun h => ?_) ?_
    · obtain rfl := Except.error.inj h
      obtain ⟨_, _, hcomplaint⟩ := Fault.isComplaint_iff.1
        (readFields_failsOnly_of_file p invoker.name {} .overflow (by rw [hread]))
      cases hcomplaint
    · rintro ⟨_, hi, -⟩
      cases hi
  · have hi := isFromFile_of_readFields hp (Prep.yields_of_outcome hread)
    rw [prepareFields, prepareWithoutOptions, Prep.outcome_bind_of_ok hread, Prep.outcome_bind_of_ok hread]
    simp only [Except.ok.injEq, exists_eq_left']
    exact prepare_overflow_iff hkeeps hsearch hi.sound hi.returns hi.textKeys j

/-- Whatever goes wrong in a preparation is reported, unless a number is too large. -/
theorem exists_problemComplaint (hkeeps : search.KeepsDimension) (hsearch : search.Returns)
    (hload : load files path = .ok p) {x : Fault}
    (h : (Prep.run none (prepareFile search invoker? p)).1 = .error x) :
    (∃ line, problemComplaint? x = some line) ∨ x = .overflow := by
  cases invoker? with
  | none =>
    obtain rfl : .defect .unknownInvoker = x := Except.error.inj h
    exact .inl ⟨_, rfl⟩
  | some invoker =>
    rcases prepareFields_failsOnly hkeeps hsearch hload invoker {} x h with hx | hx
    · obtain ⟨complaint, source, rfl⟩ := Fault.isComplaint_iff.1 hx
      exact .inl ⟨_, rfl⟩
    · exact .inr hx

/-- A record of a problem from a file has data, which can be written unless an integer of its own is too
long. -/
theorem exists_toJson {invoker : Invoker} (hload : load files path = .ok p) {r : Record Float}
    (h : (Prep.run none (prepareFields search invoker p.toValue)).1 = .ok r) :
    ∃ info, r.toJson = .ok info ∧ (info.isWritable = true ↔ ¬r.HasLongInteger) := by
  obtain ⟨text, hp⟩ := exists_read_of_load hload
  obtain ⟨i, j, hi, hr⟩ := Prep.outcome_bind_eq_ok.1 (Prod.ext h rfl :
    (prepareFields search invoker p.toValue).outcome none {} = (.ok r, _))
  obtain ⟨data, hdata, hwritable⟩ := (isFromFile_of_readFields hp (Prep.yields_of_outcome hi)).hasData
  have hgood : ¬(i.LacksData ∨ i.HasLongInteger) :=
    Input.not_lacksData (by simp [hdata, Except.toOption, hwritable])
  have hkept : ∀ given ∈ r.input, ¬(given.LacksData ∨ given.HasLongInteger) := by
    rw [(prepare_keeps hr).2]
    intro given hgiven
    split at hgiven
    · cases hgiven
      exact hgood
    · cases hgiven
  have hdata : ¬∃ given ∈ r.input, given.LacksData := by
    rintro ⟨given, hgiven, hbad⟩
    exact hkept given hgiven (.inl hbad)
  obtain ⟨info, hinfo, -⟩ := r.toJson_settles.returns hdata
  refine ⟨info, hinfo, ?_⟩
  rw [Record.isWritable_iff_of_toJson hinfo, or_iff_left]
  rintro ⟨given, hgiven, hlong⟩
  exact hkept given hgiven (.inr hlong)

/-! ## Reports -/

/-- The lines of a report can be printed if the diagnostics can. -/
theorem exists_unprintable_line_iff (r : Record Float) :
    (∃ line ∈ (Report.ofRecord path r).lines, line.HoldsHalf)
      ↔ ∃ d ∈ r.diagnostics, d.message.HoldsHalf := by
  have hlines : (Report.ofRecord path r).lines = (summaryLines path r).map Text.ofString ++ warningLines r ∨
      ∃ digest, (Report.ofRecord path r).lines = (summaryLines path r).map Text.ofString ++ warningLines r
        ++ ["", "Fingerprint: " ++ digest].map Text.ofString := by
    unfold Report.ofRecord
    dsimp only
    split
    · exact .inl rfl
    · exact .inr ⟨_, rfl⟩
  rcases hlines with h | ⟨digest, h⟩ <;>
    simp only [h, warningLines, List.mem_append, or_and_right, exists_or, exists_mem_map_iff,
      Text.not_holdsHalf_ofString, and_false, exists_false, Text.holdsHalf_append, false_or, or_false]

/-- What is kept of a record that can be written can be written. -/
theorem exists_data_of_isWritable (path : String) {r : Record Float} {info : Json Float}
    (hinfo : r.toJson = .ok info) (hwritable : info.isWritable = true) (hshort : ¬r.HasLongInteger) :
    ∃ data text, (Report.ofRecord path r).data = .ok data ∧ keptText data = .ok text := by
  have hsettings : r.settings.toJson.isWritable = true := by
    have hintegers : ∀ i ∈ r.integers, Decimal.isWritable i = true := by
      simpa [Record.HasLongInteger] using hshort
    obtain ⟨-, -, -, hnpt, hmaxfun⟩ := Record.forall_mem_integers.1 hintegers
    exact (Json.isWritable_iff _).2 (((Settings.hasNumbers_toJson r.settings).2 ⟨hnpt, hmaxfun⟩).mono
      (fun _ h => h) fun _ _ => trivial)
  have hdigest : fingerprint info = .ok (Sha256.hexDigest (info.render shortestText .compact)) := by
    rw [fingerprint, canonicalText, if_pos hwritable]
    rfl
  simp only [Report.ofRecord, hinfo, hdigest, bind, Except.bind, pure, Except.pure]
  refine ⟨_, _, rfl, if_pos ?_⟩
  simp [Json.isWritable, Json.areWritableFields, hwritable, hsettings]

theorem data_of_not_isWritable (path : String) {r : Record Float} {info : Json Float}
    (hinfo : r.toJson = .ok info) (hlong : info.isWritable = false) :
    (Report.ofRecord path r).data = .error .tooManyDigits := by
  have hdigest : fingerprint info = .error .tooManyDigits := by
    rw [fingerprint, canonicalText, hlong]
    rfl
  simp only [Report.ofRecord, hinfo, hdigest, bind, Except.bind]

/-! ## Sessions -/

/-- A line about an error. -/
def IsErrorLine (line : String) : Prop := ∃ reason, line = "Error" ++ reason

theorem isErrorLine_of_fileComplaint? {line : String} (h : fileComplaint? f = some line) :
    IsErrorLine line := by
  have hprefix (s : String) : "Error: " ++ s = "Error" ++ (": " ++ s) := by
    rw [← String.append_assoc]
    rfl
  cases f with
  | file _ _ | badValue _ | missingKey _ =>
    cases h
    exact ⟨_, hprefix _⟩
  | _ => cases h

theorem isErrorLine_of_problemComplaint? {line : String} (h : problemComplaint? f = some line) :
    IsErrorLine line := by
  obtain ⟨⟨_, message, id⟩, -, rfl⟩ := Option.map_eq_some_iff.1 h
  refine ⟨" [" ++ id ++ "]: " ++ message, ?_⟩
  simp only [← String.append_assoc]
  rfl

/-- A session that did what it was asked for, and keeps a file at the path that it was given, if any. -/
structure Outcome.Succeeds (o : Outcome) (output : Option String) : Prop where
  exit_eq : o.exit = .ok 0
  kept_eq : o.kept.map (·.1) = output

/-- A session that says in one line what is wrong, and keeps no file. -/
structure Outcome.Fails (o : Outcome) : Prop where
  exit_eq : o.exit = .ok 1
  output_eq : ∃ line, o.output = [line] ∧ IsErrorLine line
  kept_eq : o.kept = none

/-- A session that a fault ends. -/
structure Outcome.Breaks (o : Outcome) (f : Fault) : Prop where
  exit_eq : o.exit = .error f
  kept_eq : o.kept = none

/-- The problem in the file can be read and prepared. -/
def Prepares (search : NearestSearch Float) (files : Files) (path : String) (invoker? : Option Invoker) :
    Prop :=
  ∃ p r, load files path = .ok p ∧ (Prep.run none (prepareFile search invoker? p)).1 = .ok r

/-- A report that can be printed and written. -/
theorem report_succeeds {r : Record Float}
    (houtput : ∀ target, output = some target → files.create target = .ok ())
    (hprint : ∀ line ∈ (Report.ofRecord path r).lines, ¬line.HoldsHalf) {data : Json Float} {text : String}
    (hdata : (Report.ofRecord path r).data = .ok data) (htext : keptText data = .ok text) :
    (report files path r output).Succeeds output := by
  have hlines := (printed_eq_ok_iff _).2 hprint
  rcases hprinted : printed (Report.ofRecord path r).lines with ⟨lines, result⟩
  obtain rfl : result = .ok () := by rw [← hlines, hprinted]
  cases output with
  | none =>
    simp only [report, hprinted, hdata]
    exact ⟨rfl, rfl⟩
  | some target =>
    simp only [report, hprinted, hdata, houtput target rfl, htext]
    exact ⟨rfl, rfl⟩

/-- A line with a half is not printed. -/
theorem report_breaks_of_half (files : Files) (output : Option String) {r : Record Float}
    (h : ∃ line ∈ (Report.ofRecord path r).lines, line.HoldsHalf) :
    (report files path r output).Breaks .unencodable := by
  have hfault := (printed_eq_error_iff _).2 h
  rcases hprinted : printed (Report.ofRecord path r).lines with ⟨lines, result⟩
  obtain rfl : result = .error .unencodable := by rw [← hfault, hprinted]
  simp only [report, hprinted]
  exact ⟨rfl, rfl⟩

/-- Data that cannot be written have no fingerprint. -/
theorem report_breaks_of_data (files : Files) (output : Option String) {r : Record Float}
    (hprint : ∀ line ∈ (Report.ofRecord path r).lines, ¬line.HoldsHalf)
    (hdata : (Report.ofRecord path r).data = .error f) : (report files path r output).Breaks f := by
  have hlines := (printed_eq_ok_iff _).2 hprint
  rcases hprinted : printed (Report.ofRecord path r).lines with ⟨lines, result⟩
  obtain rfl : result = .ok () := by rw [← hlines, hprinted]
  simp only [report, hprinted, hdata]
  exact ⟨rfl, rfl⟩

/-- But for the trace, the inspection of a problem that is prepared is the report on its record. -/
theorem exists_inspect_eq_report (invoker? : Option Invoker) (output : Option String)
    (hload : load files path = .ok p) {r : Record Float}
    (hr : (Prep.run none (prepareFile search invoker? p)).1 = .ok r) :
    ∃ trace, inspect search files path invoker? output = { report files path r output with trace } := by
  rcases hrun : Prep.run none (prepareFile search invoker? p) with ⟨result, journal⟩
  rw [hrun] at hr
  obtain rfl : result = .ok r := hr
  simp only [inspect, hload, hrun]
  exact ⟨_, rfl⟩

/-- The lines of a report on a problem file can be printed exactly if no key has a half. -/
theorem exists_unprintable_line_iff_hasHalfKey {invoker : Invoker} (hload : load files path = .ok p)
    {i : Input Float} (hi : (Prep.run none (readFields invoker.name p.toValue)).1 = .ok i) {r : Record Float}
    (hr : (Prep.run none (prepareFields search invoker p.toValue)).1 = .ok r) :
    (∃ line ∈ (Report.ofRecord path r).lines, line.HoldsHalf) ↔ HasHalfKey p i := by
  obtain ⟨text, hp⟩ := exists_read_of_load hload
  exact (exists_unprintable_line_iff r).trans (exists_unprintable_iff hp hi hr)

theorem inspect_of_prepares (houtput : ∀ target, output = some target → files.create target = .ok ())
    (hforeseen : ∀ f, ¬Unforeseen search files path invoker? f) (h : Prepares search files path invoker?) :
    (inspect search files path invoker? output).Succeeds output := by
  obtain ⟨p, r, hload, hr⟩ := h
  cases invoker? with
  | none => cases hr
  | some invoker =>
    obtain ⟨i, j, hread, -⟩ := Prep.outcome_bind_eq_ok.1 (Prod.ext hr rfl :
      (prepareFields search invoker p.toValue).outcome none {} = (.ok r, _))
    have hi : (Prep.run none (readFields invoker.name p.toValue)).1 = .ok i := congrArg Prod.fst hread
    have hwhole : ¬HasHalfKey p i := fun hhalf => hforeseen _ (.key hload hi hr hhalf)
    have hshort : ¬r.HasLongInteger := fun hlong => hforeseen _ (.record hload hi hr hwhole hlong)
    obtain ⟨info, hinfo, hwritable⟩ := exists_toJson hload hr
    obtain ⟨data, text, hdata, htext⟩ :=
      exists_data_of_isWritable path hinfo (hwritable.2 hshort) hshort
    obtain ⟨trace, hinspect⟩ := exists_inspect_eq_report (some invoker) output hload hr
    have hprint : ∀ line ∈ (Report.ofRecord path r).lines, ¬line.HoldsHalf := by
      simpa using mt (exists_unprintable_line_iff_hasHalfKey hload hi hr).1 hwhole
    obtain ⟨hexit, hkept⟩ := report_succeeds houtput hprint hdata htext
    rw [hinspect]
    exact ⟨hexit, hkept⟩

theorem inspect_of_unforeseen (hkeeps : search.KeepsDimension) (hsearch : search.Returns)
    (output : Option String) (h : Unforeseen search files path invoker? f) :
    (inspect search files path invoker? output).Breaks f := by
  cases h with
  | field hread h =>
    have hf := h.isUnforeseen.fileComplaint?_eq_none
    have hload : load files path = .error f := (load_eq_error_iff hf).2 ⟨_, hread, h⟩
    simp only [inspect, hload, hf]
    exact ⟨rfl, rfl⟩
  | @option invoker p i hload hread hhuge hother =>
    have hfault := (prepareFields_overflow_iff hkeeps hsearch hload invoker).2 ⟨i, hread, hhuge, hother⟩
    rcases hrun : Prep.run none (prepareFile search (some invoker) p) with ⟨result, journal⟩
    have hresult : result = .error .overflow := by
      rw [← hfault, ← show _ = result from congrArg Prod.fst hrun]
      rfl
    subst hresult
    simp only [inspect, hload, hrun]
    exact ⟨rfl, rfl⟩
  | @key invoker _ _ _ hload hread hprepared hhalf =>
    obtain ⟨trace, hinspect⟩ := exists_inspect_eq_report (some invoker) output hload hprepared
    obtain ⟨hexit, hkept⟩ := report_breaks_of_half files output
      ((exists_unprintable_line_iff_hasHalfKey hload hread hprepared).2 hhalf)
    rw [hinspect]
    exact ⟨hexit, hkept⟩
  | @record invoker p i r hload hread hprepared hwhole hlong =>
    obtain ⟨trace, hinspect⟩ := exists_inspect_eq_report (some invoker) output hload hprepared
    obtain ⟨info, hinfo, hwritable⟩ := exists_toJson hload hprepared
    have hdata := data_of_not_isWritable path hinfo
      (Bool.eq_false_iff.2 fun h => hwritable.1 h hlong)
    have hprint : ∀ line ∈ (Report.ofRecord path r).lines, ¬line.HoldsHalf := by
      simpa using mt (exists_unprintable_line_iff_hasHalfKey hload hread hprepared).1 hwhole
    obtain ⟨hexit, hkept⟩ := report_breaks_of_data files output hprint hdata
    rw [hinspect]
    exact ⟨hexit, hkept⟩

theorem inspect_of_not_prepares (hkeeps : search.KeepsDimension) (hsearch : search.Returns)
    (output : Option String) (hforeseen : ∀ f, ¬Unforeseen search files path invoker? f)
    (h : ¬Prepares search files path invoker?) :
    (inspect search files path invoker? output).Fails := by
  cases hload : load files path with
  | error f =>
    cases hline : fileComplaint? f with
    | none =>
      obtain ⟨text, hread, htext⟩ := (load_eq_error_iff hline).1 hload
      exact absurd (.field hread htext) (hforeseen f)
    | some line =>
      simp only [inspect, hload, hline]
      exact ⟨rfl, ⟨line, rfl, isErrorLine_of_fileComplaint? hline⟩, rfl⟩
  | ok p =>
    rcases hrun : Prep.run none (prepareFile search invoker? p) with ⟨x | r, journal⟩
    · have hfault : (Prep.run none (prepareFile search invoker? p)).1 = .error x := by rw [hrun]
      rcases exists_problemComplaint hkeeps hsearch hload hfault with ⟨line, hline⟩ | rfl
      · simp only [inspect, hload, hrun, hline]
        exact ⟨rfl, ⟨line, rfl, isErrorLine_of_problemComplaint? hline⟩, rfl⟩
      · cases invoker? with
        | none => cases hfault
        | some invoker =>
          obtain ⟨i, hread, hhuge, hother⟩ :=
            (prepareFields_overflow_iff hkeeps hsearch hload invoker).1 hfault
          exact absurd (.option hload hread hhuge hother) (hforeseen _)
    · exact absurd ⟨p, r, hload, by rw [hrun]⟩ h

/-- The problem cannot be read and prepared if the file cannot be read, or the problem not be prepared. -/
theorem not_prepares_iff : ¬Prepares search files path invoker? ↔
    (∃ f, load files path = .error f) ∨
      ∃ p f, load files path = .ok p ∧ (Prep.run none (prepareFile search invoker? p)).1 = .error f := by
  unfold Prepares
  cases hload : load files path with
  | error f => simp
  | ok p => cases hrun : (Prep.run none (prepareFile search invoker? p)).1 <;> simp [hrun]

/-- A session of an inspection breaks, succeeds or fails, and it is known when. -/
theorem run_inspect_cases (hkeeps : search.KeepsDimension) (hsearch : search.Returns)
    {texts : List String} {verbose : Bool}
    (htexts : Arguments.ofTexts texts = .ok ⟨verbose, some (.inspect path invoker? output)⟩)
    (houtput : ∀ target, output = some target → files.create target = .ok ()) :
    (∃ f, Unforeseen search files path invoker? f) ∧
      (∀ f, Unforeseen search files path invoker? f → (run search files texts).Breaks f) ∨
    (∀ f, ¬Unforeseen search files path invoker? f) ∧
      (Prepares search files path invoker? ∧ (run search files texts).Succeeds output ∨
        ¬Prepares search files path invoker? ∧ (run search files texts).Fails) := by
  -- but for the trace, a session is the inspection
  obtain ⟨trace, hrun⟩ : ∃ trace, run search files texts
      = { inspect search files path invoker? output with trace } := by
    rw [run, htexts]
    cases verbose with
    | true => exact ⟨_, rfl⟩
    | false => exact ⟨[], rfl⟩
  rw [hrun]
  by_cases hunforeseen : ∃ f, Unforeseen search files path invoker? f
  · refine .inl ⟨hunforeseen, fun f hf => ?_⟩
    obtain ⟨hexit, hkept⟩ := inspect_of_unforeseen hkeeps hsearch output hf
    exact ⟨hexit, hkept⟩
  · rw [not_exists] at hunforeseen
    refine .inr ⟨hunforeseen, ?_⟩
    by_cases hprepares : Prepares search files path invoker?
    · obtain ⟨hexit, hkept⟩ := inspect_of_prepares houtput hunforeseen hprepares
      exact .inl ⟨hprepares, hexit, hkept⟩
    · obtain ⟨hexit, hlines, hkept⟩ :=
        inspect_of_not_prepares hkeeps hsearch output hunforeseen hprepares
      exact .inr ⟨hprepares, hexit, hlines, hkept⟩

/-- On foreseen input an inspection whose output can be written ends with the exit code zero or one, and with
one exactly if the file cannot be read or the problem not be prepared. It ends in a fault exactly on input that
is not foreseen. With one it says in one line what is wrong, and it keeps a file only with zero. -/
theorem run_inspect (hkeeps : search.KeepsDimension) (hsearch : search.Returns) {texts : List String}
    {verbose : Bool}
    (htexts : Arguments.ofTexts texts = .ok ⟨verbose, some (.inspect path invoker? output)⟩)
    (houtput : ∀ target, output = some target → files.create target = .ok ()) :
    let o := run search files texts
    (∀ f, o.exit = .error f ↔ Unforeseen search files path invoker? f) ∧
    ((∀ f, ¬Unforeseen search files path invoker? f) → (o.exit = .ok 0 ∨ o.exit = .ok 1) ∧
      (o.exit = .ok 1 ↔ (∃ f, load files path = .error f) ∨
        ∃ p f, load files path = .ok p ∧
          (Prep.run none (prepareFile search invoker? p)).1 = .error f)) ∧
    (o.exit = .ok 1 → ∃ line, o.output = [line] ∧ IsErrorLine line) ∧
    (o.exit ≠ .ok 0 → o.kept = none) ∧
    (o.exit = .ok 0 → o.kept.map (·.1) = output) := by
  intro o
  rcases run_inspect_cases hkeeps hsearch htexts houtput with
    ⟨⟨f, hf⟩, hbreaks⟩ | ⟨hforeseen, ⟨hprepares, hsucceeds⟩ | ⟨hprepares, hfails⟩⟩
  · have hexit : o.exit = .error f := (hbreaks f hf).exit_eq
    refine ⟨fun g => ⟨fun hg => ?_, fun hg => (hbreaks g hg).exit_eq⟩, fun h => absurd hf (h f), ?_,
      fun _ => (hbreaks f hf).kept_eq, ?_⟩
    · cases hexit.symm.trans hg
      exact hf
    · rw [hexit]
      exact nofun
    · rw [hexit]
      exact nofun
  · have hexit : o.exit = .ok 0 := hsucceeds.exit_eq
    rw [hexit]
    refine ⟨fun g => iff_of_false nofun (hforeseen g), fun _ => ⟨.inl rfl, ?_⟩, nofun, fun h => absurd rfl h,
      fun _ => hsucceeds.kept_eq⟩
    rw [← not_prepares_iff]
    exact iff_of_false nofun (not_not_intro hprepares)
  · have hexit : o.exit = .ok 1 := hfails.exit_eq
    rw [hexit]
    refine ⟨fun g => iff_of_false nofun (hforeseen g), fun _ => ⟨.inr rfl, ?_⟩, fun _ => hfails.output_eq,
      fun _ => hfails.kept_eq, nofun⟩
    rw [← not_prepares_iff]
    exact iff_of_true rfl hprepares

/-- The files of a machine that holds one file and lets every file be written. -/
def oneFile (path text : String) : Files where
  read other := if other = path then .ok text else .error .notFound
  create _ := .ok ()

/-- A problem whose objective has a name that nobody knows. -/
def cubeFile : Files := oneFile "p.json" "\x7b\"objective\": \"cube\", \"x0\": [1.0]\x7d"

/-- An unknown name is an error that is reported, and no file is kept. -/
theorem run_inspect_cubeFile :
    Arguments.ofTexts ["-v", "inspect", "p.json", "-o", "out.json"]
      = .ok ⟨true, some (.inspect "p.json" (some .frontEnd) (some "out.json"))⟩ ∧
    cubeFile.create "out.json" = .ok () ∧
    let o := run .stay cubeFile ["-v", "inspect", "p.json", "-o", "out.json"]
    o.exit = .ok 1 ∧ (∃ line, o.output = [line] ∧ IsErrorLine line) ∧ o.kept = none := by
  have htexts : Arguments.ofTexts ["-v", "inspect", "p.json", "-o", "out.json"]
      = .ok ⟨true, some (.inspect "p.json" (some .frontEnd) (some "out.json"))⟩ :=
    eq_ok_of_toOption (by decide +kernel)
  have hload : load cubeFile "p.json"
      = .error (.missingKey "unknown objective 'cube'; available: rastrigin, rosenbrock, sphere") :=
    fault?_eq_some.1 (by decide +kernel)
  have hforeseen : ∀ f, ¬Unforeseen .stay cubeFile "p.json" (some .frontEnd) f := by
    intro f hf
    cases hf with
    | field hread h =>
      have hfault := (load_eq_error_iff h.isUnforeseen.fileComplaint?_eq_none).2 ⟨_, hread, h⟩
      cases hload.symm.trans hfault
      obtain h | h := h.isUnforeseen <;> cases h
    | option hother | key hother | record hother => cases hload.symm.trans hother
  have hcreate : ∀ target, some "out.json" = some target → cubeFile.create target = .ok () :=
    fun _ _ => rfl
  obtain ⟨-, hcodes, hline, hkept, -⟩ := run_inspect NearestSearch.stay_keepsDimension
    NearestSearch.stay_returns htexts hcreate
  have hexit := (hcodes hforeseen).2.2 (.inl ⟨_, hload⟩)
  refine ⟨htexts, rfl, hexit, hline hexit, hkept ?_⟩
  rw [hexit]
  exact nofun

/-- A problem whose objective is a number. -/
def numberFile : Files := oneFile "p.json" "\x7b\"objective\": 5, \"x0\": [0.0]\x7d"

/-- A problem that can be prepared, in which a key that names nothing is a half. -/
def halfFile : Files := oneFile "p.json" "\x7b\"objective\": \"sphere\", \"x0\": [0.0], \"\\ud800\": 1\x7d"

/-- A number where a name is expected ends the session in a fault, and so does a key that cannot be
printed. -/
theorem run_breaks_of_number :
    (run nearestPoint numberFile ["inspect", "p.json"]).exit = .error .wrongType ∧
      (run nearestPoint halfFile ["inspect", "p.json"]).exit = .error .unencodable :=
  ⟨fault?_eq_some.1 (by decide +kernel), fault?_eq_some.1 (by decide +kernel)⟩

end CommandLine
end Presolve
