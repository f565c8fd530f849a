import ScriptHost.Script.Bytes
import ScriptHost.Script.Native

/-!
# Values of a script

Numbers are 64-bit integers, which wrap, or floats. Tables, functions with
state, userdata and coroutines are references into the heap; two of them are
equal when they are the same reference.
-/
namespace ScriptHost.Script

/-- A value. -/
inductive Value where
  | nil
  | bool (b : Bool)
  | int (n : Int64)
  | float (f : Float)
  | str (s : Bytes)
  | table (id : Nat)
  /-- A function of the script, with its captured variables. -/
  | closure (id : Nat)
  /-- A function of the library. -/
  | native (f : Native)
  /-- A function of the library with values of its own. -/
  | bound (id : Nat)
  | userdata (id : Nat)
  | thread (id : Nat)
  deriving Inhabited

namespace Value

/-- A text as a string value. -/
def text (s : String) : Value := .str (Bytes.ofText s)

/-- An integer value; it wraps. -/
def ofInt (n : Int) : Value := .int (Int64.ofInt n)

def ofNat (n : Nat) : Value := .int (Int64.ofInt n)

def isNil : Value → Bool
  | .nil => true
  | _ => false

/-- Everything but nil and false counts as true. -/
def truthy : Value → Bool
  | .nil | .bool false => false
  | _ => true

def isNumber : Value → Bool
  | .int _ | .float _ => true
  | _ => false

def isString : Value → Bool
  | .str _ => true
  | _ => false

def isFunction : Value → Bool
  | .closure _ | .native _ | .bound _ => true
  | _ => false

/-- The name of the value's type. -/
def typeName : Value → String
  | .nil => "nil"
  | .bool _ => "boolean"
  | .int _ | .float _ => "number"
  | .str _ => "string"
  | .table _ => "table"
  | .closure _ | .native _ | .bound _ => "function"
  | .userdata _ => "userdata"
  | .thread _ => "thread"

/-- 2 ^ 63 as a float. -/
def twoTo63 : Float := 9223372036854775808.0

/-- The integer a float is equal to. -/
def exactInt? (f : Float) : Option Int64 :=
  if -twoTo63 ≤ f ∧ f < twoTo63 ∧ f.floor == f then some f.toInt64 else none

/-- Equality without metamethods; an integer equals the float of the same value. -/
def rawEq : Value → Value → Bool
  | .nil, .nil => true
  | .bool a, .bool b => a == b
  | .int a, .int b => a == b
  | .float a, .float b => a == b
  | .int a, .float b => exactInt? b == some a
  | .float a, .int b => exactInt? a == some b
  | .str a, .str b => a == b
  | .table a, .table b => a == b
  | .closure a, .closure b => a == b
  | .native a, .native b => a == b
  | .bound a, .bound b => a == b
  | .userdata a, .userdata b => a == b
  | .thread a, .thread b => a == b
  | _, _ => false

end Value
end ScriptHost.Script
