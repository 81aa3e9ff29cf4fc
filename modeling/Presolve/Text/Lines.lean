/-!
# Lines of a text

A line ends at a line feed, a carriage return or both together, and at the other characters that
separate lines, records or pages.
-/

namespace Presolve.Text

/-- The characters at which lines end. -/
def isLineEnd (c : Char) : Bool :=
  let n := c.toNat
  (10 ≤ n && n ≤ 13) || (28 ≤ n && n ≤ 30) || n == 0x85 || n == 0x2028 || n == 0x2029

/-- Line ends with a carriage return as line feeds. -/
def unifyLineEnds : List Char → List Char
  | '\r' :: '\n' :: rest => '\n' :: unifyLineEnds rest
  | '\r' :: rest => '\n' :: unifyLineEnds rest
  | c :: rest => c :: unifyLineEnds rest
  | [] => []

/-- The pieces between line ends. -/
def splitAtEnds : List Char → List (List Char)
  | [] => [[]]
  | c :: rest =>
    if isLineEnd c then [] :: splitAtEnds rest
    else
      match splitAtEnds rest with
      | piece :: pieces => (c :: piece) :: pieces
      | [] => [[c]]

/-- The lines of a text that a line end follows. -/
def lines (text : String) : List String :=
  (splitAtEnds (unifyLineEnds text.toList)).map String.ofList

end Presolve.Text
