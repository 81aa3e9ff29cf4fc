import Presolve.Decimal.Columns
import Presolve.Number.Scalar
import Presolve.Text.Quoted
import Presolve.Value.Basic

/-!
# The texts of numbers and arrays

Numbers as texts, and the layout of arrays: items in nested brackets, on lines of limited width that are
indented so that items stand below each other. Within an array all numbers are equally wide.
-/

namespace Presolve

variable {α : Type} [Interchange α]

/-! ## Single numbers -/

/-- The shortest text of a number. -/
def shortestText (x : α) : String := Numeral.shortest (Interchange.toDouble x)

/-- The text of a number within a complex number, where whole numbers have no point. -/
def partText (x : α) : String :=
  Numeral.signed (fun p => (Decimal.shortest p).write { Numeral.data with wholePoint := false })
    (Interchange.toDouble x)

/-- The two parts of a complex number; a real part that is positive zero is left out. -/
def complexParts (re im : α) : String :=
  let r := partText re
  let i := partText im
  if r = "0" then i ++ "j"
  else r ++ (if i.startsWith "-" then "" else "+") ++ i ++ "j"

/-- The text of a complex number; a sum of two parts is in brackets. -/
def complexText (re im : α) : String :=
  let parts := complexParts re im
  if partText re = "0" then parts else "(" ++ parts ++ ")"

def boolText (b : Bool) : String := if b then "True" else "False"

/-! ## The entries of an array -/

/-- Texts with blanks in front up to the widest of them. -/
def alignRight (texts : List String) : List String :=
  let width := RealFormat.widest texts
  texts.map fun s => RealFormat.spaces (width - s.length) ++ s

/-- The letter for an imaginary part, in front of the blanks at its end. -/
def markImaginary (s : String) : String :=
  let cs := s.toList.reverse
  let blanks := cs.takeWhile (· == ' ')
  String.ofList ((cs.drop blanks.length).reverse ++ 'j' :: blanks)

/-- The entries of an array of a type as texts of one format. -/
def cellTexts (type : CellType) (isScalar : Bool) (cells : List (Cell α)) : List String :=
  let parts := cells.map fun
    | .real x => (Interchange.toDouble x, 0)
    | .complex re im => (Interchange.toDouble re, Interchange.toDouble im)
    | _ => (0, 0)
  let reals (isSingle showsPlus : Bool) (xs : List Float) : List String :=
    xs.map (RealFormat.ofReals isSingle showsPlus xs).write
  let plain : Cell α → String
    | .bool b => if b && !isScalar then " True" else boolText b
    | .int i => toString i
    | .text s => Text.quoted s
    | .bytes bs => Text.quotedBytes bs
    | _ => ""
  match type with
  | .byte | .int | .nat => alignRight (cells.map plain)
  | .single => reals true false (parts.map (·.1))
  | .real => reals false false (parts.map (·.1))
  | .complex =>
    List.zipWith (fun re im => re ++ markImaginary im) (reals false false (parts.map (·.1)))
      (reals false true (parts.map (·.2)))
  | _ => cells.map plain

/-! ## Pages -/

/-- Lines that are finished, and the one that is being written. -/
structure Page where
  finished : String
  line : String

namespace Page

def trimRight (s : String) : String :=
  String.ofList (s.toList.reverse.dropWhile (· == ' ')).reverse

/-- Starts a new line. -/
def breakLine (p : Page) (indent : String) : Page :=
  ⟨p.finished ++ trimRight p.line ++ "\n", indent⟩

/-- Writes an item, on a new line if it does not fit on the one that was begun. The lines of an item of
several lines stand below each other. -/
def write (width : Nat) (indent : String) (p : Page) (item : String) : Page :=
  let lines := item.splitOn "\n"
  let longest := RealFormat.widest lines
  let p := if width < p.line.length + longest ∧ indent.length < p.line.length then p.breakLine indent else p
  match lines with
  | [] | [_] => { p with line := p.line ++ item }
  | first :: rest =>
    let margin := RealFormat.spaces p.line.length
    let p := rest.foldl (fun p line => let q := p.breakLine margin; { q with line := q.line ++ line })
      { p with line := p.line ++ first }
    { p with line := p.line ++ RealFormat.spaces (longest - (lines.getLastD "").length) }

end Page

/-- Items in nested brackets by the extents of the dimensions, on lines of a width behind an indent. The
items of the last dimension fill lines; the others stand below each other. -/
def nested (separator : String) : List Nat → Nat → String → List String → String
  | [], _, _, items => items.headD ""
  | [_], width, indent, items =>
    let width := width - 1
    let page := items.dropLast.foldl (fun p item =>
      let q := Page.write width indent p item
      { q with line := q.line ++ separator }) ⟨"", indent⟩
    let page := Page.write width indent page (items.getLastD "")
    "[" ++ String.ofList ((page.finished ++ page.line).toList.drop indent.length) ++ "]"
  | extent :: shape, width, indent, items =>
    let rows := (Tensor.split (volume shape) extent items).map
      (nested separator shape (width - 1) (indent ++ " "))
    let between := Page.trimRight separator ++ String.ofList (List.replicate shape.length '\n') ++ indent
    "[" ++ between.intercalate rows ++ "]"

/-- The extents of the dimensions in round brackets. -/
def shapeText (shape : List Nat) : String :=
  match shape with
  | [n] => "(" ++ toString n ++ ",)"
  | _ => "(" ++ ", ".intercalate (shape.map toString) ++ ")"

/-- The width of the lines. -/
def lineWidth : Nat := 75

/-- An array of items as a literal: the items, the shape if an array without items does not show it, and
the name of the type if it is given. -/
def arrayLiteral (type? : Option String) (shape : List Nat) (items : List String) : String :=
  let body := if items.isEmpty then "[]" else nested ", " shape (lineWidth - 1) "       " items
  let extras := (if items.isEmpty ∧ shape ≠ [0] then ["shape=" ++ shapeText shape] else [])
    ++ (type?.map ("dtype=" ++ ·)).toList
  if extras.isEmpty then "array(" ++ body ++ ")"
  else
    let front := "array(" ++ body ++ ","
    let back := ", ".intercalate extras ++ ")"
    let last := ((front.splitOn "\n").getLastD "").length
    front ++ (if lineWidth < last + back.length + 1 then "\n      " else " ") ++ back

/-- The name of the type of an array of texts or bytes, with the length of the longest. -/
def sizedName (sign : String) (lengths : List Nat) : String :=
  "'" ++ sign ++ toString (lengths.foldl max 1) ++ "'"

/-- The name of the type of an array, unless the entries show it. -/
def Grid.typeText? (grid : Grid α) : Option String :=
  let entries := grid.cells.entries
  match grid.type with
  | .text => some (sizedName "<U" (entries.map fun | .text s => s.length | _ => 0))
  | .bytes => some (sizedName "|S" (entries.map fun | .bytes bs => bs.length | _ => 0))
  | .bool | .int | .real | .complex => if entries.isEmpty then some grid.type.name else none
  | type => some type.name

/-- An array as a literal. -/
def Grid.literal (grid : Grid α) : String :=
  arrayLiteral grid.typeText? grid.cells.shape
    (cellTexts grid.type grid.cells.shape.isEmpty grid.cells.entries)

/-- The items of an array in brackets, with blanks between them. -/
def arrayText (shape : List Nat) (items : List String) : String :=
  if items.isEmpty then "[]" else nested " " shape lineWidth " " items

end Presolve
