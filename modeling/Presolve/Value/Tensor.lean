/-!
# Arrays with a shape

A `Tensor` is a list of entries in row-major order with the extents of its dimensions; their
product is the number of entries. No dimension at all is a single entry.
-/

namespace Presolve

/-- The number of entries of an array with given extents. -/
def volume : List Nat → Nat
  | [] => 1
  | extent :: shape => extent * volume shape

/-- Entries in row-major order, and the extents of the dimensions. -/
structure Tensor (ε : Type) where
  shape : List Nat
  entries : List ε
  length_entries : entries.length = volume shape

namespace Tensor

variable {ε β : Type}

/-- An array without dimensions. -/
def scalar (x : ε) : Tensor ε := ⟨[], [x], rfl⟩

/-- An array of one dimension. -/
def vector (xs : List ε) : Tensor ε := ⟨[xs.length], xs, by simp [volume]⟩

/-- The number of entries. -/
def size (t : Tensor ε) : Nat := t.entries.length

/-- The number of dimensions. -/
def rank (t : Tensor ε) : Nat := t.shape.length

def map (f : ε → β) (t : Tensor ε) : Tensor β :=
  ⟨t.shape, t.entries.map f, by rw [List.length_map, t.length_entries]⟩

/-- The same entry everywhere. -/
def replicate (shape : List Nat) (x : ε) : Tensor ε :=
  ⟨shape, List.replicate (volume shape) x, List.length_replicate⟩

/-- The entries of arrays of one shape stacked on each other are as many as the shape says. -/
theorem length_flatMap_entries (shape : List Nat) (ts : List (Tensor ε))
    (h : ∀ t ∈ ts, t.shape = shape) :
    (ts.flatMap entries).length = ts.length * volume shape := by
  induction ts with
  | nil => simp
  | cons t ts ih =>
    have ht : t.shape = shape := h t List.mem_cons_self
    have hts := ih fun u hu => h u (List.mem_cons_of_mem t hu)
    rw [List.flatMap_cons, List.length_append, hts, t.length_entries, ht, List.length_cons,
      Nat.succ_mul, Nat.add_comm]

/-- Arrays of one shape as the rows of an array with one dimension more; none if their shapes
differ. Nothing stacked is a vector without entries. -/
def stack? (ts : List (Tensor ε)) : Option (Tensor ε) :=
  match ts with
  | [] => some ⟨[0], [], by simp [volume]⟩
  | t :: rest =>
    if h : ∀ u ∈ t :: rest, u.shape = t.shape then
      some ⟨(rest.length + 1) :: t.shape, (t :: rest).flatMap entries, by
        rw [length_flatMap_entries t.shape (t :: rest) h, List.length_cons, volume]⟩
    else none

/-- An array of the same entries in another shape; none if their number does not fit. -/
def reshape? (shape : List Nat) (t : Tensor ε) : Option (Tensor ε) :=
  if h : t.entries.length = volume shape then some ⟨shape, t.entries, h⟩ else none

/-- `rows` pieces of `cols` entries each. -/
def split (cols : Nat) : Nat → List ε → List (List ε)
  | 0, _ => []
  | rows + 1, xs => xs.take cols :: split cols rows (xs.drop cols)

@[simp] theorem length_split (cols rows : Nat) (xs : List ε) : (split cols rows xs).length = rows := by
  induction rows generalizing xs with
  | zero => rfl
  | succ n ih => simp [split, ih]

/-- An array read as a matrix: a single number is a row of one, a vector is one row, and two
dimensions are rows and columns. -/
def toRows (t : Tensor ε) : List (List ε) :=
  match t.shape with
  | [rows, cols] => split cols rows t.entries
  | _ => [t.entries]

end Tensor
end Presolve
