/-!
# Cells shared by several holders

A handle names a cell; several handles may name the same one, and what is
written through one of them is read through all.
-/
namespace ScriptHost

/-- Cells, and the handles on them in the order in which they were made. -/
structure Shared (α : Type) where
  cells : Array α := #[]
  handles : Array Nat := #[]

namespace Shared

variable {α : Type}

/-- A handle on a cell of its own. -/
def alloc (s : Shared α) (a : α) : Shared α :=
  ⟨s.cells.push a, s.handles.push s.cells.size⟩

/-- One more handle on the cell of handle `i`. -/
def share (s : Shared α) (i : Nat) : Shared α :=
  match s.handles[i]? with
  | some c => { s with handles := s.handles.push c }
  | none => s

/-- What handle `i` sees. -/
def get? (s : Shared α) (i : Nat) : Option α := s.handles[i]?.bind (s.cells[·]?)

/-- Changes the cell of handle `i`. -/
def modify (s : Shared α) (i : Nat) (f : α → α) : Shared α :=
  match s.handles[i]? with
  | some c => { s with cells := s.cells.modify c f }
  | none => s

/-- Gives up the last handle. -/
def dropLast (s : Shared α) : Shared α := { s with handles := s.handles.pop }

/-- What all handles see. -/
def view (s : Shared α) : List α := s.handles.toList.filterMap (s.cells[·]?)

end Shared

end ScriptHost
