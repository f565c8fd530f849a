import ScriptHost.Script.Host

/-!
# Coroutines

A coroutine runs until it yields, ends or fails; whoever resumed it gets its
values or its error.
-/
namespace ScriptHost.Script.Coroutines

open HostM

def create (args : Args) : HostM Value := do
  let f ← checkFunction args 1
  request1 (.newThread f)

def status (args : Args) : HostM (Array Value) := do
  let t ← checkThread args 1
  request (.status t)

/-- Resumes; the first value tells whether it went well. -/
def resume (args : Args) : HostM (Array Value) := do
  let t ← checkThread args 1
  match ← ask (.resume t (args.extract 1 args.size)) with
  | .failed e => pure #[.bool false, e]
  | r => pure (#[Value.bool true] ++ valuesOf r)

/-- The function that `wrap` gives: it resumes, and an error of the coroutine is its own error,
with the caller's place before a text. -/
def wrapStep (state : Array Value) (args : Args) : HostM (Array Value) := do
  match arg state 1 with
  | .thread t =>
    match ← ask (.resume t args) with
    | .failed e => do
      let dead ← request1 (.status t)
      let e ← match dead with
        | .str s =>
          if s == Bytes.ofText "dead" then do
            match ← ask (.closeThread t) with
            | .failed e' => pure e'
            | _ => pure e
          else pure e
        | _ => pure e
      match e with
      | .str s => do
        match ← request1 (.position 1) with
        | .str place => fail (.value (.str (place ++ s)))
        | _ => fail (.value e)
      | _ => fail (.value e)
    | r => pure (valuesOf r)
  | _ => pure #[]

def close (args : Args) : HostM (Array Value) := do
  let t ← checkThread args 1
  match ← request1 (.status t) with
  | .str s =>
    if s == Bytes.ofText "dead" || s == Bytes.ofText "suspended" then
      match ← ask (.closeThread t) with
      | .failed e => pure #[.bool false, e]
      | _ => pure #[.bool true]
    else errorBytes [Bytes.ofText "cannot close a ", s, Bytes.ofText " coroutine"]
  | _ => pure #[]

/-- Applies a function on coroutines; `state` is that of a wrapped one. -/
def run (f : CoroutineFn) (state : Array Value) (args : Args) : HostM (Array Value) :=
  match f with
  | .close => close args
  | .create => do return #[← create args]
  | .isyieldable => do
    let t ← if isNone args 1 then pure none else do pure (some (← checkThread args 1))
    request (.isYieldable t)
  | .resume => resume args
  | .running => request .running
  | .status => status args
  | .wrap => do
    let co ← create args
    let f ← change (·.newBound (.coroutine .wrapStep) #[co])
    return #[f]
  | .wrapStep => wrapStep state args
  | .yield => request (.yield args)

end ScriptHost.Script.Coroutines
