import ScriptHost.Script.Host

/-!
# Functions on tables

They work on anything that can be indexed, through its metamethods.
-/
namespace ScriptHost.Script.Tables

open HostM

/-- What a function does with a table. -/
structure Access where
  read : Bool := false
  write : Bool := false
  length : Bool := false

/-- The argument is a table, or has the metamethods that make it look like one. -/
def check (args : Args) (n : Nat) (a : Access) : HostM Value := do
  let v := arg args n
  match v with
  | .table _ => pure v
  | _ =>
    let usable ← view fun h => match h.metatable? v with
      | none => false
      | some m =>
        let has (e : MetaEvent) : Bool := !(h.rawGet m e.key).isNil
        (!a.read || has .index) && (!a.write || has .newindex) && (!a.length || has .len)
    if usable then pure v else typeError args n "table"

def get (t : Value) (i : Int64) : HostM Value := index t (.int i)

def set (t : Value) (i : Int64) (v : Value) : HostM Unit := setIndex t (.int i) v

/-- Moves the elements `first` to `last` up by one, from the end. -/
def shiftUp (t : Value) (first : Int64) : Nat → Int64 → HostM Unit
  | 0, _ => pure ()
  | fuel + 1, i => do
    if i > first then
      set t i (← get t (i - 1))
      shiftUp t first fuel (i - 1)

/-- Moves the elements behind `i` up to `last` down by one. -/
def shiftDown (t : Value) (last : Int64) : Nat → Int64 → HostM Int64
  | 0, i => pure i
  | fuel + 1, i => do
    if i < last then
      set t i (← get t (i + 1))
      shiftDown t last fuel (i + 1)
    else pure i

def insert (args : Args) : HostM (Array Value) := do
  let t ← check args 1 ⟨true, true, true⟩
  let e := (← checkLength t) + 1
  match args.size with
  | 2 =>
    set t e (arg args 2)
    pure #[]
  | 3 =>
    let pos ← checkInt args 2
    if (pos - 1).toUInt64 < e.toUInt64 then
      shiftUp t pos (e - pos).toInt.toNat e
      set t pos (arg args 3)
      pure #[]
    else badArg 2 "position out of bounds"
  | _ => error "wrong number of arguments to 'insert'"

def remove (args : Args) : HostM (Array Value) := do
  let t ← check args 1 ⟨true, true, true⟩
  let size ← checkLength t
  let pos ← optInt args 2 size
  if pos != size && !decide ((pos - 1).toUInt64 ≤ size.toUInt64) then
    badArg 2 "position out of bounds"
  else
    let v ← get t pos
    let last ← shiftDown t size (size - pos).toInt.toNat pos
    set t last .nil
    pure #[v]

/-- Copies `n` elements one by one, upwards or downwards. -/
def copy (src dst : Value) (first target : Int64) (up : Bool) : Nat → Int64 → HostM Unit
  | 0, _ => pure ()
  | fuel + 1, i => do
    set dst (target + i) (← get src (first + i))
    copy src dst first target up fuel (if up then i + 1 else i - 1)

def move (args : Args) : HostM (Array Value) := do
  let f ← checkInt args 2
  let e ← checkInt args 3
  let t ← checkInt args 4
  let target := if isNoneOrNil args 5 then 1 else 5
  let src ← check args 1 ⟨true, false, false⟩
  let dst ← check args target ⟨false, true, false⟩
  if f ≤ e then
    if !(0 < f || decide (e.toInt < Int64.maxValue.toInt + f.toInt)) then badArg 3 "too many elements to move"
    let n := e.toInt - f.toInt + 1
    if t.toInt > Int64.maxValue.toInt - n + 1 then badArg 4 "destination wrap around"
    let overlap ← if target = 1 then pure true else equal src dst
    if t > e ∨ t ≤ f ∨ !overlap then copy src dst f t true n.toNat 0
    else copy src dst f t false n.toNat (Int64.ofInt (n - 1))
  pure #[dst]

/-- The elements from `i` on, joined. -/
def join (t : Value) (sep : Bytes) (last : Int64) : Nat → Int64 → Bytes → HostM Bytes
  | 0, _, out => pure out
  | fuel + 1, i, out => do
    let v ← get t i
    let b ← match v with
      | .str b => pure b
      | v =>
        if v.isNumber then pure (Number.toBytes v)
        else
          errorBytes [Bytes.ofText s!"invalid value ({v.typeName}) at index ", Number.toBytes (.int i),
            Bytes.ofText " in table for 'concat'"]
    let out := out ++ b
    if i < last then join t sep last fuel (i + 1) (out ++ sep) else pure out

def concat (args : Args) : HostM (Array Value) := do
  let t ← check args 1 ⟨true, false, true⟩
  let size ← checkLength t
  let sep ← optString args 2 .empty
  let i ← optInt args 3 1
  let last ← optInt args 4 size
  if i > last then pure #[.str .empty]
  else do
    pure #[.str (← join t sep last (last.toInt - i.toInt + 1).toNat i .empty)]

def pack (args : Args) : HostM (Array Value) := do
  let t := (Table.ofList args.toList).setText "n" (.ofNat args.size)
  pure #[← newTable t]

def unpackFrom (t : Value) : Nat → Int64 → Array Value → HostM (Array Value)
  | 0, _, out => pure out
  | fuel + 1, i, out => do unpackFrom t fuel (i + 1) (out.push (← get t i))

def unpack (args : Args) : HostM (Array Value) := do
  let t := arg args 1
  let i ← optInt args 2 1
  let e ← if isNoneOrNil args 3 then checkLength t else checkInt args 3
  if i > e then pure #[]
  else
    let n := e.toInt - i.toInt + 1
    if n ≥ 1000000 then error "too many results to unpack" else unpackFrom t n.toNat i #[]

/-! ## Sorting

Quicksort with the median of three as pivot; the smaller part is sorted first. -/

/-- The order of two elements. -/
def before (less : Option Value) (a b : Value) : HostM Bool :=
  match less with
  | some f => do return (← call1 f #[a, b]).truthy
  | none => lessThan a b

def orderError {α : Type} : HostM α := error "invalid order function for sorting"

/-- The first index behind `i` whose element is not before the pivot. -/
def scanUp (less : Option Value) (t : Value) (pivot : Value) (up : Int64) :
    Nat → Int64 → HostM (Int64 × Value)
  | 0, _ => orderError
  | fuel + 1, i => do
    let i := i + 1
    let v ← get t i
    if ← before less v pivot then
      if i = up - 1 then orderError else scanUp less t pivot up fuel i
    else pure (i, v)

/-- The first index before `j` whose element the pivot is not before. -/
def scanDown (less : Option Value) (t : Value) (pivot : Value) (i : Int64) :
    Nat → Int64 → HostM (Int64 × Value)
  | 0, _ => orderError
  | fuel + 1, j => do
    let j := j - 1
    let v ← get t j
    if ← before less pivot v then
      if j < i then orderError else scanDown less t pivot i fuel j
    else pure (j, v)

/-- Divides `lo` to `up` by the pivot, which stands at `up - 1`; the pivot's final index. -/
def divide (less : Option Value) (t : Value) (pivot : Value) (lo up : Int64) (size : Nat) :
    Nat → Int64 → Int64 → HostM Int64
  | 0, _, _ => orderError
  | fuel + 1, i, j => do
    let (i, x) ← scanUp less t pivot up (size + 2) i
    let (j, y) ← scanDown less t pivot i (size + 2) j
    if j < i then
      let v ← get t (up - 1)
      set t (up - 1) x
      set t i v
      pure i
    else
      set t i y
      set t j x
      divide less t pivot lo up size fuel i j

/-- Sorts the elements `lo` to `up`. -/
def sortRange (less : Option Value) (t : Value) : Nat → Int64 → Int64 → HostM Unit
  | 0, _, _ => pure ()
  | fuel + 1, lo, up => do
    if lo < up then
      let a ← get t lo
      let b ← get t up
      if ← before less b a then
        set t lo b
        set t up a
      if up - lo != 1 then
        let p := Int64.ofInt ((lo.toInt + up.toInt) / 2)
        let v ← get t p
        let a ← get t lo
        if ← before less v a then
          set t p a
          set t lo v
        else
          let b ← get t up
          if ← before less b v then
            set t p b
            set t up v
        if up - lo != 2 then
          let pivot ← get t p
          let x ← get t (up - 1)
          set t p x
          set t (up - 1) pivot
          let size := (up.toInt - lo.toInt).toNat
          let p ← divide less t pivot lo up size (size + 2) lo (up - 1)
          if p.toInt - lo.toInt < up.toInt - p.toInt then
            sortRange less t fuel lo (p - 1)
            sortRange less t fuel (p + 1) up
          else
            sortRange less t fuel (p + 1) up
            sortRange less t fuel lo (p - 1)

def sort (args : Args) : HostM (Array Value) := do
  let t ← check args 1 ⟨true, true, true⟩
  let n ← checkLength t
  if n > 1 then
    if n ≥ 2147483647 then badArg 1 "array too big"
    let less ← if isNoneOrNil args 2 then pure none else do pure (some (← checkFunction args 2))
    sortRange less t n.toInt.toNat 1 n
  pure #[]

/-- Applies a function on tables. -/
def run (f : TableFn) (args : Args) : HostM (Array Value) :=
  match f with
  | .concat => concat args
  | .insert => insert args
  | .move => move args
  | .pack => pack args
  | .remove => remove args
  | .sort => sort args
  | .unpack => unpack args

end ScriptHost.Script.Tables
