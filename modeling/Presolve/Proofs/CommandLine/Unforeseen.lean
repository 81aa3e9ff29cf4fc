import Presolve.CommandLine.Inspection
import Presolve.Proofs.CommandLine.ReadBack
import Presolve.Proofs.Value.Sound

/-!
# Data that a problem file is not expected to hold

A problem file may hold any data under any key. If it cannot be read as a problem, the program mostly says
so in a line about the file (`fileComplaint?`). Some data end it in another fault: an objective that is
neither a name nor an object, a name that is a list or an object, a center that cannot be walked through, and
a coordinate that is nothing, a sequence, or an integer too large for a double.

These data are described here by their form. Of the program's own functions, the descriptions mention only
those that can read what stands in front: the first item of a center and the first field of a file that cannot
be read decide (`readFile_eq_error_iff`).
-/

namespace Presolve.CommandLine

open Sample

/-! ## Data -/

/-- An item of a center that is no coordinate, with the fault of reading it. -/
inductive UnforeseenCoordinate : Json Float → Fault → Prop where
  | null : UnforeseenCoordinate .null .wrongType
  | array (items : List (Json Float)) : UnforeseenCoordinate (.array items) .wrongType
  | object (fields : List (Text × Json Float)) : UnforeseenCoordinate (.object fields) .wrongType
  | int {i : Int} (h : Scalar.fits i = false) : UnforeseenCoordinate (.int i) .overflow

/-- A center that is a single number or flag, or a list in which an item is no coordinate and all items in
front of it are. The characters of a text and the keys of an object count as items that are texts. -/
inductive UnforeseenCenter : Json Float → Fault → Prop where
  | bool (b : Bool) : UnforeseenCenter (.bool b) .wrongType
  | int (i : Int) : UnforeseenCenter (.int i) .wrongType
  | real (x : Float) : UnforeseenCenter (.real x) .wrongType
  | item {before after : List (Json Float)} {item : Json Float} {f : Fault}
    (hbefore : ∀ b ∈ before, ∃ x, Objective.coordinate (plainValue b) = .ok x)
    (h : UnforeseenCoordinate item f) : UnforeseenCenter (.array (before ++ item :: after)) f

/-- A name that cannot be looked up. -/
inductive UnforeseenName : Json Float → Prop where
  | array (items : List (Json Float)) : UnforeseenName (.array items)
  | object (fields : List (Text × Json Float)) : UnforeseenName (.object fields)

/-- An objective that is neither a name nor an object, or an object whose name or center is not expected. -/
inductive UnforeseenObjective : Json Float → Fault → Prop where
  | bool (b : Bool) : UnforeseenObjective (.bool b) .wrongType
  | int (i : Int) : UnforeseenObjective (.int i) .wrongType
  | real (x : Float) : UnforeseenObjective (.real x) .wrongType
  | array (items : List (Json Float)) : UnforeseenObjective (.array items) .wrongType
  | name {fields : List (Text × Json Float)} {name : Json Float}
    (hname : (Json.object fields).field? "name" = some name) (h : UnforeseenName name) :
    UnforeseenObjective (.object fields) .wrongType
  | center {fields : List (Text × Json Float)} {t : Text} {shape : Shape} {center : Json Float}
    {f : Fault} (hname : (Json.object fields).field? "name" = some (.text t))
    (hshape : t.string?.bind Shape.ofName? = some shape)
    (hcenter : (Json.object fields).field? "center" = some center) (h : UnforeseenCenter center f) :
    UnforeseenObjective (.object fields) f

/-- Data under a key that are not expected there. -/
inductive UnforeseenField : Text → Json Float → Fault → Prop where
  | objective {data : Json Float} {f : Fault} (h : UnforeseenObjective data f) :
    UnforeseenField "objective" data f
  | constraints {data : Json Float} (h : UnforeseenName data) : UnforeseenField "nonlcon" data .wrongType

/-- A text of an object in which the data of a field are not expected, and all fields in front of it can be
read. -/
inductive UnforeseenText (text : String) : Fault → Prop where
  | field {before after : List (Text × Json Float)} {key : Text} {data : Json Float} {f : Fault}
    (hparse : Json.parseLenient (String.ofList (Text.unifyLineEnds text.toList))
      = .ok (.object (before ++ (key, data) :: after)))
    (hbefore : ∀ field ∈ before, ∃ read, ProblemField.read field.1 field.2 = .ok read)
    (h : UnforeseenField key data f) : UnforeseenText text f

/-! ### Their faults -/

variable {f : Fault} {item center data : Json Float} {key : Text} {text : String}

/-- A value of another type is expected, or a number that is not so large. -/
def IsUnforeseen (f : Fault) : Prop := f = .wrongType ∨ f = .overflow

theorem UnforeseenCoordinate.isUnforeseen (h : UnforeseenCoordinate item f) : IsUnforeseen f := by
  cases h with
  | int _ => exact .inr rfl
  | _ => exact .inl rfl

theorem UnforeseenCenter.isUnforeseen (h : UnforeseenCenter center f) : IsUnforeseen f := by
  cases h with
  | item _ h => exact h.isUnforeseen
  | _ => exact .inl rfl

theorem UnforeseenField.isUnforeseen (h : UnforeseenField key data f) : IsUnforeseen f := by
  cases h with
  | objective h =>
    cases h with
    | center _ _ _ h => exact h.isUnforeseen
    | _ => exact .inl rfl
  | constraints _ => exact .inl rfl

theorem UnforeseenText.isUnforeseen (h : UnforeseenText text f) : IsUnforeseen f := by
  obtain ⟨-, -, h⟩ := h
  exact h.isUnforeseen

/-- Nothing is said about the file. -/
theorem IsUnforeseen.fileComplaint?_eq_none (h : IsUnforeseen f) : fileComplaint? f = none := by
  rcases h with rfl | rfl <;> rfl

/-! ## Reading them -/

/-- A value is found under a key of an object as its data are. -/
theorem lookup?_entriesOfJson (text : Text → Value Float) (fields : List (Text × Json Float))
    (key : Text) : Value.lookup? key (entriesOfJson text fields)
      = ((Json.object fields).field? key).map (valueOfJson text) := by
  rw [entriesOfJson_eq, Value.lookup?, Json.field?, List.find?_map, Option.map_map, Option.map_map]
  rfl

/-- A text is read as a number, or the fault is about the file. -/
theorem coordinate_text_ne (hf : fileComplaint? f = none) (t : Text) :
    Objective.coordinate (.text t) ≠ .error f := by
  intro h
  have hread : (realOfText t : Except Fault Float) = .error f := h
  unfold realOfText at hread
  split at hread
  · cases hread
  · cases hread
    cases hf

theorem coordinate_eq_error_iff (hf : fileComplaint? f = none) (item : Json Float) :
    Objective.coordinate (plainValue item) = .error f ↔ UnforeseenCoordinate item f := by
  have hint (i : Int) : Objective.coordinate (plainValue (.int i)) = realOfInt i := rfl
  constructor
  · intro h
    cases item with
    | null =>
      cases h
      exact .null
    | bool b => cases h
    | int i =>
      rw [hint] at h
      by_cases hfits : Scalar.fits i = true
      · rw [realOfInt_of_fits hfits] at h
        cases h
      · rw [realOfInt_of_not_fits (eq_false_of_ne_true hfits)] at h
        cases h
        exact .int (eq_false_of_ne_true hfits)
    | real x => cases h
    | text s => exact absurd h (coordinate_text_ne hf s)
    | array items =>
      cases h
      exact .array items
    | object fields =>
      cases h
      exact .object fields
  · intro h
    cases h with
    | int hfits => rw [hint, realOfInt_of_not_fits hfits]
    | null | array _ | object _ => rfl

/-- A list of texts is read as a center, or the fault is about the file. -/
theorem readCenter_texts_ne (hf : fileComplaint? f = none) {center : Value Float} (texts : List Text)
    (hitems : center.items? = some (texts.map Value.text)) : Objective.readCenter center ≠ .error f := by
  intro h
  rw [Objective.readCenter, hitems] at h
  obtain ⟨before, item, after, heq, -, hitem⟩ := mapM_eq_error.1 h
  have hmem : item ∈ texts.map Value.text := by
    rw [heq]
    exact List.mem_append_right _ List.mem_cons_self
  obtain ⟨s, -, rfl⟩ := List.mem_map.1 hmem
  exact coordinate_text_ne hf s hitem

theorem readCenter_eq_error_iff (hf : fileComplaint? f = none) {center : Json Float}
    (hnull : center ≠ .null) :
    Objective.readCenter (plainValue center) = .error f ↔ UnforeseenCenter center f := by
  have harray (items : List (Json Float)) : Objective.readCenter (plainValue (.array items))
      = (items.map plainValue).mapM Objective.coordinate := by
    rw [plainValue, valueOfJson, valuesOfJson_eq]
    rfl
  constructor
  · intro h
    cases center with
    | null => exact absurd rfl hnull
    | bool b =>
      cases h
      exact .bool b
    | int i =>
      cases h
      exact .int i
    | real x =>
      cases h
      exact .real x
    | text s =>
      exact absurd h (readCenter_texts_ne hf s.singles rfl)
    | object fields =>
      refine absurd h (readCenter_texts_ne hf (fields.map Prod.fst) ?_)
      rw [plainValue, valueOfJson, entriesOfJson_eq, Value.items?, List.map_map, List.map_map]
      rfl
    | array items =>
      rw [harray] at h
      obtain ⟨before, value, after, heq, hbefore, hvalue⟩ := mapM_eq_error.1 h
      obtain ⟨before, rest, rfl, rfl, hrest⟩ := List.map_eq_append_iff.1 heq
      obtain ⟨item, after, rfl, rfl, rfl⟩ := List.map_eq_cons_iff.1 hrest
      exact .item (fun b hb => hbefore _ (List.mem_map_of_mem hb))
        ((coordinate_eq_error_iff hf item).1 hvalue)
  · intro h
    cases h with
    | @item before after item _ hbefore h =>
      rw [harray]
      refine mapM_eq_error.2 ⟨before.map plainValue, plainValue item, after.map plainValue, ?_,
        List.forall_mem_map.2 hbefore, (coordinate_eq_error_iff hf item).2 h⟩
      rw [List.map_append, List.map_cons]
    | _ => rfl

/-- A value that names nothing has no other fault than one about the file. -/
theorem unnamed_ne {β : Type} (hf : fileComplaint? f = none) (v : Value Float) (g : Text → Text) :
    (v.toText >>= fun text => .error (.missingKey (g text)) : Except Fault β) ≠ .error f := by
  intro h
  rcases bind_eq_error.1 h with h | ⟨text, -, h⟩
  · unfold Value.toText at h
    split at h
    · cases h
    · cases h
      cases hf
  · cases h
    cases hf

theorem readShape_text (t : Text) : Objective.readShape (plainValue (.text t))
    = match t.string?.bind Shape.ofName? with
      | some shape => .ok shape
      | none => .error (.missingKey ("unknown objective '" ++ t ++ "'; available: "
        ++ ", ".intercalate (Shape.all.map Shape.name))) := rfl

/-- A shape is read of a text that names it. -/
theorem readShape_eq_ok_iff {name : Json Float} {shape : Shape} :
    Objective.readShape (plainValue name) = .ok shape ↔
      ∃ t : Text, name = .text t ∧ t.string?.bind Shape.ofName? = some shape := by
  cases name with
  | text s =>
    rw [readShape_text]
    split
    · next hfound => simp [hfound]
    · next hfound => simp [hfound]
  | array items | object fields => exact iff_of_false (fun h => nomatch h) (by simp)
  | _ =>
    refine iff_of_false (fun h => ?_) (by simp)
    obtain ⟨text, -, h⟩ := bind_eq_ok.1 h
    exact nomatch h

theorem readShape_eq_error_iff (hf : fileComplaint? f = none) {name : Json Float} :
    Objective.readShape (plainValue name) = .error f ↔ UnforeseenName name ∧ f = .wrongType := by
  constructor
  · intro h
    cases name with
    | array items =>
      cases h
      exact ⟨.array items, rfl⟩
    | object fields =>
      cases h
      exact ⟨.object fields, rfl⟩
    | text s =>
      rw [readShape_text] at h
      split at h
      · cases h
      · cases h
        cases hf
    | _ => exact absurd h (unnamed_ne hf _ _)
  · rintro ⟨h | h, rfl⟩ <;> rfl

/-- The objective of a shape and of the data of a center, if there are any. -/
def moved (shape : Shape) (center? : Option (Json Float)) : Except Fault (Option Objective) :=
  match center? with
  | none | some .null => .ok (some ⟨shape, none⟩)
  | some center => (Objective.readCenter (plainValue center)).map fun xs => some ⟨shape, some xs⟩

theorem moved_eq_error_iff (hf : fileComplaint? f = none) {shape : Shape} {center? : Option (Json Float)} :
    moved shape center? = .error f ↔ ∃ center, center? = some center ∧ UnforeseenCenter center f := by
  cases center? with
  | none => exact iff_of_false nofun (by simp)
  | some center =>
    simp only [Option.some.injEq, exists_eq_left']
    by_cases hnull : center = .null
    · subst hnull
      exact iff_of_false nofun nofun
    · have hmoved : moved shape (some center)
          = (Objective.readCenter (plainValue center)).map fun xs => some ⟨shape, some xs⟩ := by
        cases center with
        | null => exact absurd rfl hnull
        | _ => rfl
      rw [hmoved, map_eq_error, readCenter_eq_error_iff hf hnull]

/-- An object is read by its name and its center. -/
theorem ofSpec?_object (fields : List (Text × Json Float)) :
    Objective.ofSpec? (plainValue (.object fields)) =
      match (Json.object fields).field? "name" with
      | none => .error (.missingKey "name")
      | some name => Objective.readShape (plainValue name) >>= fun shape =>
        moved shape ((Json.object fields).field? "center") := by
  have hlookup (key : Text) := lookup?_entriesOfJson .text fields key
  rw [plainValue, valueOfJson, Objective.ofSpec?, if_neg (by simp [Value.text?])]
  simp only [hlookup]
  cases (Json.object fields).field? "name" with
  | none => rfl
  | some name =>
    refine congrArg (Objective.readShape (plainValue name) >>= ·) (funext fun shape => ?_)
    have hmap (x : Except Fault (List Float)) :
        (x >>= fun xs => pure (some ⟨shape, some xs⟩) : Except Fault (Option Objective))
          = x.map fun xs => some ⟨shape, some xs⟩ := by
      cases x <;> rfl
    cases (Json.object fields).field? "center" with
    | none => rfl
    | some center =>
      cases center with
      | null => rfl
      | _ => exact hmap _

theorem ofSpec?_object_eq_error_iff (hf : fileComplaint? f = none) (fields : List (Text × Json Float)) :
    Objective.ofSpec? (plainValue (.object fields)) = .error f ↔
      UnforeseenObjective (.object fields) f := by
  rw [ofSpec?_object]
  constructor
  · intro h
    split at h
    · cases h
      cases hf
    · next name hname =>
      rcases bind_eq_error.1 h with hread | ⟨shape, hread, hmoved⟩
      · obtain ⟨hunforeseen, rfl⟩ := (readShape_eq_error_iff hf).1 hread
        exact .name hname hunforeseen
      · obtain ⟨s, rfl, hshape⟩ := readShape_eq_ok_iff.1 hread
        obtain ⟨center, hcenter, hunforeseen⟩ := (moved_eq_error_iff hf).1 hmoved
        exact .center hname hshape hcenter hunforeseen
  · intro h
    cases h with
    | name hname h =>
      rw [hname]
      exact bind_eq_error.2 (.inl ((readShape_eq_error_iff hf).2 ⟨h, rfl⟩))
    | center hname hshape hcenter h =>
      rw [hname]
      exact bind_eq_error.2 (.inr ⟨_, readShape_eq_ok_iff.2 ⟨_, rfl, hshape⟩,
        (moved_eq_error_iff hf).2 ⟨_, hcenter, h⟩⟩)

theorem ofSpec?_eq_error_iff (hf : fileComplaint? f = none) (data : Json Float) :
    Objective.ofSpec? (plainValue data) = .error f ↔ UnforeseenObjective data f := by
  cases data with
  | object fields => exact ofSpec?_object_eq_error_iff hf fields
  | text s =>
    have hread : Objective.ofSpec? (plainValue (.text s))
        = (Objective.readShape (plainValue (.text s))).map fun shape => some ⟨shape, none⟩ := by
      show (Objective.readShape (plainValue (.text s)) >>= fun shape =>
        pure (some (⟨shape, none⟩ : Objective))) = _
      cases Objective.readShape (plainValue (.text s)) <;> rfl
    rw [hread, map_eq_error, readShape_eq_error_iff hf]
    exact iff_of_false (fun h => nomatch h.1) nofun
  | null => exact iff_of_false nofun nofun
  | bool b => exact ⟨fun h => by cases h; exact .bool b, fun h => by cases h; rfl⟩
  | int i => exact ⟨fun h => by cases h; exact .int i, fun h => by cases h; rfl⟩
  | real x => exact ⟨fun h => by cases h; exact .real x, fun h => by cases h; rfl⟩
  | array items => exact ⟨fun h => by cases h; exact .array items, fun h => by cases h; rfl⟩

/-- A constraint function is read of a name or of nothing. -/
theorem ofName?_eq_error_iff (hf : fileComplaint? f = none) (data : Json Float) :
    Sample.Constraint.ofName? (plainValue data) = .error f ↔ UnforeseenName data ∧ f = .wrongType := by
  constructor
  · intro h
    cases data with
    | null => cases h
    | array items =>
      cases h
      exact ⟨.array items, rfl⟩
    | object fields =>
      cases h
      exact ⟨.object fields, rfl⟩
    | text s =>
      simp only [plainValue, valueOfJson, Sample.Constraint.ofName?] at h
      split at h
      · cases h
      · cases h
        cases hf
    | _ => exact absurd h (unnamed_ne hf _ _)
  · rintro ⟨h | h, rfl⟩ <;> rfl

theorem readField_eq_error_iff (hf : fileComplaint? f = none) (key : Text) (data : Json Float) :
    ProblemField.read key data = .error f ↔ UnforeseenField key data f := by
  constructor
  · intro h
    unfold ProblemField.read at h
    split at h
    · next hkey =>
      obtain rfl := Text.string?_eq_some.1 hkey
      exact .objective ((ofSpec?_eq_error_iff hf data).1 (map_eq_error.1 h))
    · next hkey =>
      obtain rfl := Text.string?_eq_some.1 hkey
      obtain ⟨hunforeseen, rfl⟩ := (ofName?_eq_error_iff hf data).1 (map_eq_error.1 h)
      exact .constraints hunforeseen
    · cases h
    · cases h
    · cases h
  · intro h
    cases h with
    | objective h => exact map_eq_error.2 ((ofSpec?_eq_error_iff hf data).2 h)
    | constraints h => exact map_eq_error.2 ((ofName?_eq_error_iff hf data).2 ⟨h, rfl⟩)

/-- A file ends the program in a fault that is not about the file exactly if the first field that cannot be
read has data that are not expected. -/
theorem readFile_eq_error_iff (hf : fileComplaint? f = none) (path text : String) :
    ProblemFile.read path text = .error f ↔ UnforeseenText text f := by
  have hfields (fields : List (Text × Json Float)) :
      (fields.mapM fun field => do return (field.1, ← ProblemField.read field.1 field.2) :
        Except Fault (List (Text × ProblemField))) = .error f ↔
      ∃ before field after, fields = before ++ field :: after ∧
        (∀ b ∈ before, ∃ read, ProblemField.read b.1 b.2 = .ok read) ∧
        UnforeseenField field.1 field.2 f := by
    rw [mapM_eq_error]
    refine exists_congr fun before => exists_congr fun field => exists_congr fun after =>
      and_congr_right fun _ => and_congr (forall₂_congr fun b _ => ?_) ?_
    · simp only [bind_eq_ok, pure_eq_ok]
      rw [exists_comm]
      simp
    · rw [← readField_eq_error_iff hf, bind_eq_error]
      simp [pure, Except.pure]
  unfold ProblemFile.read
  constructor
  · intro h
    split at h
    · cases h
      cases hf
    · next fields hparse =>
      rcases bind_eq_error.1 h with h | ⟨read, -, h⟩
      · obtain ⟨before, field, after, rfl, hbefore, hunforeseen⟩ := (hfields fields).1 h
        exact .field hparse hbefore hunforeseen
      · cases h
    · cases h
      cases hf
  · intro h
    obtain ⟨hparse, hbefore, h⟩ := h
    rw [hparse]
    exact bind_eq_error.2 (.inl ((hfields _).2 ⟨_, _, _, rfl, hbefore, h⟩))

end Presolve.CommandLine
