import Presolve.Value.Basic
import Presolve.Number.Scalar

/-!
# Keys of dictionaries

Keys are compared by meaning, not by type: a flag, an integer, a real and a complex number
that stand for one number are one key. Lists, dictionaries and arrays cannot be keys.
-/

namespace Presolve.Value

variable {α : Type} [Scalar α]

/-- The real and imaginary parts of a number, each an integer if it is whole. -/
def number? (v : Value α) : Option ((Int ⊕ α) × (Int ⊕ α)) :=
  match v.toCell with
  | .bool b => some (.inl (if b then 1 else 0), .inl 0)
  | .int i => some (.inl i, .inl 0)
  | .real x => some (whole x, .inl 0)
  | .complex re im => some (whole re, whole im)
  | _ => none
where
  whole (x : α) : Int ⊕ α := match Scalar.toInt? x with | some i => .inl i | none => .inr x

/-- Do two parts stand for one number? -/
def samePart : Int ⊕ α → Int ⊕ α → Bool
  | .inl i, .inl j => i == j
  | .inr x, .inr y => Scalar.same x y
  | _, _ => false

mutual

/-- Are two keys one? -/
def sameKey : Value α → Value α → Bool
  | absent, absent => true
  | kind a, kind b => a == b
  | solver a, solver b => a == b
  | invoker a, invoker b => a == b
  | tuple xs, tuple ys => sameKeys xs ys
  | v, w =>
    match v.number?, w.number? with
    | some (a, b), some (c, d) => samePart a c && samePart b d
    | _, _ => (v.text?.isSome && v.text? == w.text?) || (v.bytes?.isSome && v.bytes? == w.bytes?)

def sameKeys : List (Value α) → List (Value α) → Bool
  | [], [] => true
  | v :: vs, w :: ws => v.sameKey w && sameKeys vs ws
  | _, _ => false

end

mutual

/-- Can a value be a key? -/
def isKey : Value α → Bool
  | list _ | mapping _ | array _ | objects _ _ => false
  | tuple items => areKeys items
  | options fields => OptionName.all.all fun name => (fields name).isKey
  | _ => true

def areKeys : List (Value α) → Bool
  | [] => true
  | v :: vs => v.isKey && areKeys vs

end

/-- Writes an entry: a key that is there already keeps its place and takes the new value. -/
def setEntry (key value : Value α) : List (Value α × Value α) → List (Value α × Value α)
  | [] => [(key, value)]
  | (k, v) :: rest =>
    if k.sameKey key then (k, value) :: rest else (k, v) :: setEntry key value rest

/-- The dictionary in which every entry is written in turn. -/
def ofEntries (entries : List (Value α × Value α)) : Except Fault (Value α) :=
  if entries.all fun entry => entry.1.isKey then
    .ok (mapping (entries.foldl (fun acc entry => setEntry entry.1 entry.2 acc) []))
  else .error .wrongType

end Presolve.Value
