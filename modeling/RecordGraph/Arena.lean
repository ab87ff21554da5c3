/-!
Arenas: cells that are numbered in the order in which they were made, and changed in place.  A number
without a cell reads as the default.
-/

namespace RecordGraph

universe u

/-- Numbered cells. -/
structure Arena (α : Type u) where
  cells : Array α := #[]
deriving Repr

namespace Arena

variable {α : Type u}

/-- The arena without cells. -/
def empty : Arena α := {}

instance : Inhabited (Arena α) := ⟨empty⟩

/-- How many cells there are, which is also the number that the next one gets. -/
def size (a : Arena α) : Nat := a.cells.size

def toList (a : Arena α) : List α := a.cells.toList

/-- The content of a cell. -/
def read [Inhabited α] (a : Arena α) (i : Nat) : α := a.cells.getD i default

/-- Makes a cell. -/
def push (a : Arena α) (x : α) : Arena α := ⟨a.cells.push x⟩

/-- Changes the content of a cell. -/
def change (a : Arena α) (i : Nat) (f : α → α) : Arena α := ⟨a.cells.modify i f⟩

@[simp] theorem size_push (a : Arena α) (x : α) : (a.push x).size = a.size + 1 := by
  simp [push, size]

@[simp] theorem size_change (a : Arena α) (i : Nat) (f : α → α) : (a.change i f).size = a.size := by
  simp [change, size]

theorem read_push [Inhabited α] (a : Arena α) (x : α) (i : Nat) :
    (a.push x).read i = if i = a.size then x else a.read i := by
  simp only [read, push, size, Array.getD_eq_getD_getElem?, Array.getElem?_push]
  split <;> simp

theorem read_change [Inhabited α] (a : Arena α) (i j : Nat) (f : α → α) :
    (a.change i f).read j = if j = i ∧ i < a.size then f (a.read i) else a.read j := by
  simp only [read, change, size, Array.getD_eq_getD_getElem?, Array.getElem?_modify]
  by_cases h : i = j
  · subst h
    by_cases hi : i < a.cells.size
    · simp [hi]
    · simp [hi]
  · have h' : ¬ j = i := fun e => h e.symm
    simp [h, h']

theorem change_push (a : Arena α) (x : α) (f : α → α) :
    (a.push x).change a.size f = a.push (f x) := by
  simp only [push, change, size, mk.injEq]
  apply Array.ext
  · simp
  · intro i hi hi'
    simp only [Array.size_push] at hi'
    rw [Array.getElem_modify, Array.getElem_push, Array.getElem_push]
    split <;> split <;> first | rfl | omega

/-- A change that changes nothing of its cell changes nothing. -/
theorem change_eq_self [Inhabited α] {a : Arena α} {i : Nat} {f : α → α}
    (h : f (a.read i) = a.read i) : a.change i f = a := by
  obtain ⟨cells⟩ := a
  rw [change, Arena.mk.injEq]
  apply Array.ext
  · simp
  · intro j hj hj'
    rw [Array.getElem_modify]
    split
    · rename_i heq
      subst heq
      simpa [read, hj'] using h
    · rfl

theorem change_read [Inhabited α] (a : Arena α) (i : Nat) :
    (a.change i fun _ => a.read i) = a := change_eq_self rfl

end Arena

end RecordGraph
