import ScriptHost.Script.Number

/-!
# Tables

A table keeps the values of the keys 1 to n in an array and all other pairs in
a vector of nodes whose size is a power of two. A key's *main position* is
given by its hash; keys of one main position are chained through the vector,
and a node that sits in another key's main position moves away when that key
comes. When no node is free the table is built anew with the largest array
part of which more than half is in use.

The length of a table is a *border*: an index whose value is not nil before an
index whose value is nil. Which border it is, and the order of the pairs, both
follow from the layout.
-/
namespace ScriptHost.Script

/-- A pair in the node vector; `next` is the index of the next node of its chain plus one. -/
structure Node where
  key : Value := .nil
  val : Value := .nil
  next : Nat := 0
  deriving Inhabited

structure Table where
  /-- Values of the keys from 1 on; nil where there is none. -/
  array : Array Value := #[]
  /-- A hint for the border: at most the size of the array part, and more than half of it. -/
  limit : Nat := 0
  /-- Empty, or a power of two of nodes. -/
  nodes : Array Node := #[]
  /-- Nodes from this index on are not free. -/
  lastFree : Nat := 0
  metatable : Option Nat := none
  deriving Inhabited

namespace Table

/-! ## Reading -/

/-- The hash of a float: its mantissa and exponent added up. -/
def hashFloat (f : Float) : Nat :=
  match Decimal.decode f with
  | .finite negative m e =>
    if m = 0 then 0
    else
      -- the float is `m · 2 ^ e` with `0.5 ≤ m · 2 ^ (e - x) < 1`
      let width : Int := (m.log2 : Int) + 1
      let scaled : Nat := if width ≤ 31 then m * Nat.pow 2 (31 - width).toNat else m / Nat.pow 2 (width - 31).toNat
      let n : Int := if negative then -(scaled : Int) else scaled
      let u := ((e + width + n) % 4294967296).toNat
      if u < Nat.pow 2 31 then u else UInt32.size - 1 - u
  | _ => 0

/-- The main position of a key among `size` nodes. -/
def mainPosition (size : Nat) : Value → Nat
  | .int n => n.toUInt64.toNat % ((size - 1) ||| 1)
  | .float f => hashFloat f % ((size - 1) ||| 1)
  | .bool b => b.toNat % size
  | .str s => s.hash.toNat % size
  | .table n | .closure n | .bound n | .userdata n | .thread n => n % ((size - 1) ||| 1)
  | .native f => (hash (reprStr f)).toNat % size
  | .nil => 0

/-- Follows a chain to the node with a key; the argument is the index of a node plus one. -/
def findFrom (nodes : Array Node) (key : Value) : Nat → Nat → Option Nat
  | 0, _ => none
  | _, 0 => none
  | fuel + 1, i + 1 =>
    match nodes[i]? with
    | none => none
    | some n => if n.key.rawEq key then some i else findFrom nodes key fuel n.next

/-- The index of the node with a key. -/
def find? (t : Table) (key : Value) : Option Nat :=
  if t.nodes.isEmpty then none
  else findFrom t.nodes key (t.nodes.size + 1) (mainPosition t.nodes.size key + 1)

/-- The index in the array part of an integer key. -/
def arrayIndex? (t : Table) (n : Int64) : Option Nat :=
  let i := (n - 1).toUInt64
  if i < t.array.size.toUInt64 then some i.toNat else none

def getInt (t : Table) (n : Int64) : Value :=
  match t.arrayIndex? n with
  | some i => t.array[i]?.getD .nil
  | none =>
    match t.find? (.int n) with
    | some j => (t.nodes[j]?.getD {}).val
    | none => .nil

/-- A float key that is an integer is that integer. -/
def normalKey : Value → Value
  | .float f => match Value.exactInt? f with
    | some n => .int n
    | none => .float f
  | k => k

/-- The value of a key, nil when there is none. -/
def get (t : Table) (key : Value) : Value :=
  match normalKey key with
  | .int n => t.getInt n
  | .nil => .nil
  | k => match t.find? k with
    | some j => (t.nodes[j]?.getD {}).val
    | none => .nil

def getText (t : Table) (s : String) : Value := t.get (.text s)

/-- Reading behind the border hint moves the hint. -/
def touch (t : Table) (n : Int64) : Table :=
  if t.limit = t.array.size then t
  else match t.arrayIndex? n with
    | some i => if t.limit ≤ i then { t with limit := i + 1 } else t
    | none => t

/-! ## Writing -/

/-- Smallest `k` with `n ≤ 2 ^ k`. -/
def ceilLog2 (n : Nat) : Nat := if n ≤ 1 then 0 else (n - 1).log2 + 1

/-- Finds a free node below `i`. -/
def freeBelow (nodes : Array Node) : Nat → Option Nat
  | 0 => none
  | i + 1 => if (nodes[i]?.getD {}).key.isNil then some i else freeBelow nodes i

/-- Finds the node of a chain that leads to `target`. -/
def predecessor (nodes : Array Node) (target : Nat) : Nat → Nat → Nat
  | 0, i => i
  | fuel + 1, i =>
    let n := (nodes[i]?.getD {}).next
    if n = target + 1 ∨ n = 0 then i else predecessor nodes target fuel (n - 1)

/-- Puts a new pair into the node vector; none when no node is free. -/
def place? (t : Table) (key val : Value) : Option Table :=
  if t.nodes.isEmpty then none
  else
    let mp := mainPosition t.nodes.size key
    let old := t.nodes[mp]?.getD {}
    if old.val.isNil then
      some { t with nodes := t.nodes.setIfInBounds mp ⟨key, val, old.next⟩ }
    else match freeBelow t.nodes t.lastFree with
      | none => none
      | some f =>
        let home := mainPosition t.nodes.size old.key
        if home = mp then
          some { t with
            nodes := (t.nodes.setIfInBounds f ⟨key, val, old.next⟩).setIfInBounds mp { old with next := f + 1 }
            lastFree := f }
        else
          let p := predecessor t.nodes mp (t.nodes.size + 1) home
          let nodes := t.nodes.modify p fun n => { n with next := f + 1 }
          some { t with
            nodes := (nodes.setIfInBounds f old).setIfInBounds mp ⟨key, val, 0⟩
            lastFree := f }

/-- Stores a pair for which there is room. -/
def put (t : Table) (key val : Value) : Table :=
  match key with
  | .int n =>
    match t.arrayIndex? n with
    | some i => { t with array := t.array.setIfInBounds i val }
    | none => inNodes t
  | _ => inNodes t
where
  inNodes (t : Table) : Table :=
    match t.find? key with
    | some j => { t with nodes := t.nodes.modify j fun n => { n with val := val } }
    | none => (t.place? key val).getD t

/-- The node vector for a number of pairs. -/
def nodeVector (count : Nat) : Array Node :=
  if count = 0 then #[] else Array.replicate (Nat.pow 2 (ceilLog2 count)) {}

/-- Gives the table an array part and a node vector of new sizes. -/
def resize (t : Table) (arraySize nodeCount : Nat) : Table :=
  let nodes := nodeVector nodeCount
  let kept := t.array.extract 0 arraySize
  let fresh : Table :=
    { array := kept ++ Array.replicate (arraySize - kept.size) .nil
      limit := arraySize, nodes, lastFree := nodes.size, metatable := t.metatable }
  let (fresh, _) := (t.array.extract arraySize t.array.size).foldl (fun (fresh, i) v =>
    (if v.isNil then fresh else fresh.put (.ofNat i) v, i + 1)) (fresh, arraySize + 1)
  t.nodes.foldl (fun fresh n => if n.val.isNil then fresh else fresh.put n.key n.val) fresh

/-- Counts an integer key in its slice between powers of two. -/
def countKey (counts : Array Nat) (key : Value) : Array Nat :=
  match key with
  | .int n =>
    if 1 ≤ n ∧ n.toInt ≤ 0x8000000 then counts.modify (ceilLog2 n.toInt.toNat) (· + 1) else counts
  | _ => counts

/-- The best size of the array part: the largest power of two of which more than half is used. -/
def bestSize (counts : Array Nat) : Nat → Nat → Nat → Nat → Nat × Nat → Nat × Nat
  | 0, _, _, _, best => best
  | fuel + 1, i, size, used, best =>
    let total := counts.foldl (· + ·) 0
    if total > size / 2 then
      let used := used + counts[i]?.getD 0
      bestSize counts fuel (i + 1) (size * 2) used (if used > size / 2 then (size, used) else best)
    else best

/-- Builds the table anew with room for one more key. -/
def rehash (t : Table) (extra : Value) : Table :=
  let counts : Array Nat := Array.replicate 29 0
  let (counts, inArray, _) := t.array.foldl (fun (counts, n, i) v =>
    if v.isNil then (counts, n, i + 1) else (countKey counts (.ofNat i), n + 1, i + 1)) (counts, 0, 1)
  let (counts, inNodes) := t.nodes.foldl (fun (counts, n) node =>
    if node.val.isNil then (counts, n) else (countKey counts node.key, n + 1)) (counts, 0)
  let counts := countKey counts extra
  let (size, used) := bestSize counts 29 0 1 0 (0, 0)
  t.resize size (inArray + inNodes + 1 - used)

/-- Why a key cannot be used. -/
inductive BadKey where
  | nil | nan
  deriving DecidableEq, Repr

/-- Why a key cannot be used, if it cannot. -/
def badKey? (key : Value) : Option BadKey :=
  match key with
  | .nil => some .nil
  | .float f => if f == f then none else some .nan
  | _ => none

/-- Sets the value of a key; nil takes the pair away. A bad key changes nothing. -/
def set (t : Table) (key val : Value) : Table :=
  match normalKey key with
  | .nil => t
  | .float f => if f == f then store t (.float f) else t
  | k => store t k
where
  store (t : Table) (key : Value) : Table :=
    match key with
    | .int n =>
      match t.arrayIndex? n with
      | some i => { t with array := t.array.setIfInBounds i val }
      | none => inNodes t key
    | _ => inNodes t key
  inNodes (t : Table) (key : Value) : Table :=
    match t.find? key with
    | some j => { t with nodes := t.nodes.modify j fun n => { n with val := val } }
    | none =>
      if val.isNil then t
      else match t.place? key val with
        | some t => t
        | none => (t.rehash key).put key val

/-- Sets the value of an integer key. -/
def setInt (t : Table) (n : Int64) (val : Value) : Table := t.set (.int n) val

/-- Sets the value of a text key. -/
def setText (t : Table) (s : String) (val : Value) : Table := t.set (.text s) val

/-! ## Length -/

/-- A border between the present index `i` and the absent index `j`; `get` reads an index. -/
def searchBorder (present : Nat → Bool) : Nat → Nat → Nat → Nat
  | 0, i, _ => i
  | fuel + 1, i, j =>
    if j - i ≤ 1 then i
    else
      let m := (i + j) / 2
      if present m then searchBorder present fuel m j else searchBorder present fuel i m

/-- Doubles an index until it is absent. -/
def searchAbsent (present : Nat → Bool) : Nat → Nat → Nat × Option Nat
  | 0, i => (i, none)
  | fuel + 1, i =>
    let j := if i ≤ Nat.pow 2 62 - 1 then i * 2 else Nat.pow 2 63 - 1
    if present j then
      if j = Nat.pow 2 63 - 1 then (j, none) else searchAbsent present fuel j
    else (i, some j)

def isPowerOfTwo (n : Nat) : Bool := n &&& (n - 1) = 0

/-- A border of the table, and the table with its hint moved. -/
def border (t : Table) : Nat × Table :=
  let inArray (i : Nat) : Bool := !(t.array[i - 1]?.getD .nil).isNil
  let size := t.array.size
  if 0 < t.limit ∧ !inArray t.limit then
    if 2 ≤ t.limit ∧ inArray (t.limit - 1) then
      let b := t.limit - 1
      (b, if isPowerOfTwo size && !isPowerOfTwo b then { t with limit := b } else t)
    else
      let b := searchBorder inArray 64 0 t.limit
      (b, if isPowerOfTwo size && decide (b > size / 2) then { t with limit := b } else t)
  else if t.limit < size ∧ !inArray (t.limit + 1) then (t.limit, t)
  else if t.limit < size ∧ !inArray size then
    let b := searchBorder inArray 64 t.limit size
    (b, { t with limit := b })
  else
    let t := { t with limit := size }
    let present (i : Nat) : Bool := !(t.getInt (Int64.ofInt i)).isNil
    if t.nodes.isEmpty || !present (size + 1) then (size, t)
    else
      match searchAbsent present 64 (max size 1) with
      | (i, none) => (i, t)
      | (i, some j) => (searchBorder present 64 i j, t)

/-! ## Traversal -/

/-- The first pair at position `i` or behind; positions run through the array and then the nodes. -/
def pairFrom (t : Table) : Nat → Nat → Option (Value × Value)
  | 0, _ => none
  | fuel + 1, i =>
    if i < t.array.size then
      let v := t.array[i]?.getD .nil
      if v.isNil then pairFrom t fuel (i + 1) else some (.ofNat (i + 1), v)
    else match t.nodes[i - t.array.size]? with
      | none => none
      | some n => if n.val.isNil then pairFrom t fuel (i + 1) else some (n.key, n.val)

/-- The position behind a key; none for a key that is not in the table. -/
def positionAfter? (t : Table) (key : Value) : Option Nat :=
  match normalKey key with
  | .nil => some 0
  | .int n =>
    match t.arrayIndex? n with
    | some i => some (i + 1)
    | none => (t.find? (.int n)).map (t.array.size + · + 1)
  | k => (t.find? k).map (t.array.size + · + 1)

/-- The pair behind a key (the first one behind nil): an unknown key has none, the last key
has no pair behind it. -/
def next? (t : Table) (key : Value) : Option (Option (Value × Value)) :=
  (t.positionAfter? key).map (t.pairFrom (t.array.size + t.nodes.size + 1) ·)

/-- All pairs in order. -/
def pairs (t : Table) : List (Value × Value) :=
  let fromArray := (List.range t.array.size).filterMap fun i =>
    let v := t.array[i]?.getD .nil
    if v.isNil then none else some (Value.ofNat (i + 1), v)
  fromArray ++ t.nodes.toList.filterMap fun n => if n.val.isNil then none else some (n.key, n.val)

/-- A table of the values from 1 on. -/
def ofList (vs : List Value) : Table :=
  { array := vs.toArray, limit := vs.length }

end Table
end ScriptHost.Script
