import Std.Data.ExtTreeMap

/-!
A growing store of cells, numbered in order of creation.

A cell that was never written holds the default, so reading is total and a write is always seen by
the next read (`get_set`).
-/

namespace ForeignNamespace

structure Arena (α : Type) where
  /-- The number of the next new cell. -/
  next : Nat := 0
  cells : Std.ExtTreeMap Nat α := ∅

namespace Arena

variable {α : Type} [Inhabited α]

def get (a : Arena α) (i : Nat) : α := a.cells.getD i default

def set (a : Arena α) (i : Nat) (x : α) : Arena α :=
  { a with cells := a.cells.insert i x }

/-- Adds a new cell, whose number is `a.next`. -/
def push (a : Arena α) (x : α) : Arena α :=
  { next := a.next + 1, cells := a.cells.insert a.next x }

theorem get_set (a : Arena α) (i j : Nat) (x : α) :
    (a.set i x).get j = if i = j then x else a.get j := by
  simp [get, set, Std.ExtTreeMap.getD_insert]

theorem get_push (a : Arena α) (j : Nat) (x : α) :
    (a.push x).get j = if a.next = j then x else a.get j := by
  simp [get, push, Std.ExtTreeMap.getD_insert]

omit [Inhabited α] in
@[simp] theorem next_set (a : Arena α) (i : Nat) (x : α) : (a.set i x).next = a.next := rfl

omit [Inhabited α] in
@[simp] theorem next_push (a : Arena α) (x : α) : (a.push x).next = a.next + 1 := rfl

end ForeignNamespace.Arena
