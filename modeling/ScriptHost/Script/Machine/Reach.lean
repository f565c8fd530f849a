import ScriptHost.Script.Machine.State

/-!
# What is out of reach

When the host lets go of an interpreter, everything that the script can no
longer come by is collected first. A value is within reach if it belongs to the
library or can be come by from such a value: a table holds its pairs and its
metatable, a function its captured variables, a coroutine its stack. A table
with weak values does not hold its values, and one with weak keys holds a value
only where the key is within reach otherwise.
-/
namespace ScriptHost.Script

/-- Which values were found to be within reach. -/
structure Marks where
  tables : Array Bool
  closures : Array Bool
  bound : Array Bool
  threads : Array Bool
  deriving Inhabited

namespace Marks

/-- A value that nothing is reached by counts as marked. -/
def has (k : Marks) : Value → Bool
  | .table n => k.tables[n]?.getD true
  | .closure n => k.closures[n]?.getD true
  | .bound n => k.bound[n]?.getD true
  | .thread n => k.threads[n]?.getD true
  | _ => true

def add (k : Marks) : Value → Marks
  | .table n => { k with tables := k.tables.setIfInBounds n true }
  | .closure n => { k with closures := k.closures.setIfInBounds n true }
  | .bound n => { k with bound := k.bound.setIfInBounds n true }
  | .thread n => { k with threads := k.threads.setIfInBounds n true }
  | _ => k

end Marks

namespace Machine

/-- A table is weak in its keys, `k`, or its values, `v`. -/
def isWeak (m : Machine) (t : Nat) (what : Char) : Bool :=
  match m.heap.metamethod (.table t) .mode with
  | .str mode => mode.toList.contains (UInt8.ofNat what.toNat)
  | _ => false

/-- The values of a table that are held, as far as the keys that `k` marks hold them. -/
def heldBy (m : Machine) (k : Marks) (t : Nat) : List Value :=
  if m.isWeak t 'v' then []
  else if m.isWeak t 'k' then (m.heap.table t).pairs.filterMap fun p => if k.has p.1 then some p.2 else none
  else (m.heap.table t).pairs.map (·.2)

/-- The value of a captured variable. -/
def cellValue (m : Machine) (c : Nat) : Value :=
  match m.heap.cells[c]? with
  | some (.closed v) => v
  | some (.open thread slot) => ((m.threads[thread]?.getD {}).stack)[slot]?.getD .nil
  | none => .nil

/-- What is reached by a value at once. -/
def reachedBy (m : Machine) (k : Marks) : Value → List Value
  | .table t =>
    let keys := if m.isWeak t 'k' then [] else (m.heap.table t).pairs.map (·.1)
    ((m.heap.table t).metatable.map Value.table).toList ++ keys ++ m.heldBy k t
  | .closure c => ((m.heap.closures[c]?.getD default).cells.toList).map m.cellValue
  | .bound b => ((m.heap.bound[b]?).map (·.2.toList)).getD []
  | .thread t =>
    let th := m.threads[t]?.getD {}
    let hook := match th.hook with
      | .script f .. => [f]
      | _ => []
    th.stack.toList ++ th.body.toList ++ th.failure.toList ++ hook
  | _ => []

/-- Marks what is reached by the values of a list. -/
def reach (m : Machine) : Nat → List Value → Marks → Marks
  | 0, _, k => k
  | _, [], k => k
  | fuel + 1, v :: rest, k =>
    if k.has v then reach m fuel rest k
    else
      let k := k.add v
      reach m fuel (m.reachedBy k v ++ rest) k

/-- Marks the values that keys hold which were found to be within reach since, until there are no
more of them. -/
def settle (m : Machine) : Nat → Marks → Marks
  | 0, k => k
  | rounds + 1, k =>
    let held := (List.range m.heap.tables.size).flatMap fun t =>
      if k.has (.table t) && m.isWeak t 'k' then (m.heldBy k t).filter (!k.has ·) else []
    if held.isEmpty then k else settle m rounds (m.reach plenty held k)

/-- What the library itself holds. -/
def roots (m : Machine) : List Value :=
  let h := m.heap
  let shared := h.stringMeta.toList ++ h.outputMeta.toList ++ h.failureMeta.toList ++ h.fileMeta.toList ++
    h.typeMetas.map (·.2)
  let hook := match m.hook with
    | .script f .. => [f]
    | _ => []
  ([h.registry, h.globals, h.loaded, h.package, h.preload] ++ shared).map Value.table ++ hook

/-- All that is within reach of a script that has ended. -/
def marks (m : Machine) : Marks :=
  let none (n : Nat) : Array Bool := Array.replicate n false
  let k : Marks := ⟨none m.heap.tables.size, none m.heap.closures.size, none m.heap.bound.size,
    none m.threads.size⟩
  m.settle (m.heap.tables.size + 1) (m.reach plenty m.roots k)

end Machine
end ScriptHost.Script
