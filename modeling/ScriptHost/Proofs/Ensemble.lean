import ScriptHost.Engine

/-!
# Everybody at work on one engine

The engine, the call its controller is in, the message its receiver is busy
with, and a log of what has happened. One step is one indivisible operation of
one of the parties; `step` names them by labels, a run of the system is a list
of labels (`exec`), and `Reached` are the states to which runs lead.

The *controller* calls `start`, `stop`, `shutdown` or a setter, and takes
messages; it is one party, so a call begins only when no other call goes on and
no message is in hand. While a call waits for a worker, messages can be taken.
A call that waits goes on once the worker has ended, or is given up at any
moment, after which the run is disowned. The pump of a disowned run is dropped
at some moment after that.

*Workers* and *pumps* go on by `Engine.step`: at any moment, in any order, the
ones of disowned runs included.

The *receiver* takes a message in up to five steps: it takes it from the queue,
looks whether its run is disowned, and for the marker of a line clears the flag
of the run, loads the line, and compares it with the one delivered last.
-/
namespace ScriptHost

/-- How far the receiver is with the message it took. -/
inductive Taking where
  | resting
  /-- The message was taken, and its run is looked at next. -/
  | testing (m : Message)
  /-- It is a marker, and the flag is cleared next. -/
  | clearing (run : Nat)
  | loading (run : Nat)
  | comparing (run : Nat) (line : UInt32)
  deriving DecidableEq, Repr, Inhabited

/-- The run whose message the receiver has in hand. -/
def Taking.run? : Taking → Option Nat
  | .resting => none
  | .testing m => some m.run
  | .clearing run | .loading run | .comparing run _ => some run

/-- What the controller is in the middle of. -/
inductive Call where
  | idle
  /-- A stop was found to be due, and the token is set next; `leave` tells a shutdown. -/
  | cancelling (run : Nat) (leave : Bool)
  /-- The token is set, and the phase is next. -/
  | marking (run : Nat) (leave : Bool)
  /-- The worker was taken out and is waited for, perhaps to launch another after it. -/
  | waiting (run : Nat) (next : Option Launch)
  /-- The wait was given up. -/
  | abandoning (run : Nat)
  /-- The token is set, and the run is silenced next. -/
  | silencing (run : Nat)
  deriving DecidableEq, Repr, Inhabited

/-- Something that has happened in a run. -/
inductive Note where
  | launched (run : Nat) (l : Launch)
  | delivered (run : Nat) (e : Event)
  /-- The worker has stored a line. -/
  | published (run : Nat) (line : UInt32)
  /-- The script has written to its channel. -/
  | wrote (run : Nat) (bytes : List UInt8)
  /-- The worker has written the text of the script's error. -/
  | reported (run : Nat) (failure : String)
  /-- A finalizer of the script has written to the channel. -/
  | finalized (run : Nat) (bytes : List UInt8)
  | abandoned (run : Nat)
  deriving DecidableEq, Repr

/-- The run in which it has happened. -/
def Note.run : Note → Nat
  | .launched r _ | .delivered r _ | .published r _ | .wrote r _ | .reported r _ | .finalized r _
  | .abandoned r => r

@[simp] theorem Note.run_launched (r : Nat) (l : Launch) : (launched r l).run = r := rfl

@[simp] theorem Note.run_delivered (r : Nat) (e : Event) : (delivered r e).run = r := rfl

@[simp] theorem Note.run_abandoned (r : Nat) : (abandoned r).run = r := rfl

/-- The engine with everybody around it. -/
structure Ensemble (ω σ : Type) where
  engine : Engine ω σ
  call : Call := .idle
  taking : Taking := .resting
  /-- What has happened, the oldest first. -/
  log : List Note := []

/-- A step of one of the parties. -/
inductive Label (ω : Type) where
  | setScript (source : ByteArray)
  | setSearchDirs (dirs : List String)
  /-- A start, and how the system will answer the launch if it comes to that. -/
  | start (l : Launch)
  | stop
  | shutdown
  /-- The call goes on. -/
  | goOn
  /-- The call waits no longer. -/
  | giveUp
  /-- The receiver goes on. -/
  | take
  /-- A worker or a pump goes on. -/
  | other (a : Actor)
  | dropPump (run : Nat)
  /-- The world changes by itself. -/
  | outside (w : ω)

namespace Ensemble

variable {ω σ : Type}

/-- Nothing was ever started. -/
def initial (settings : Settings) (world : ω) : Ensemble ω σ := { engine := { settings, world } }

/-! ## The controller -/

/-- The controller can turn to a call. -/
def isFree (s : Ensemble ω σ) : Bool := s.call = .idle && s.taking = .resting

def launch (s : Ensemble ω σ) (l : Launch) : Ensemble ω σ :=
  { s with
    engine := (s.engine.launch l).2, call := .idle
    log := s.log ++ [.launched s.engine.runs.size l] }

/-- The wait of a call is over. -/
def proceed (s : Ensemble ω σ) : Option Launch → Ensemble ω σ
  | some l => s.launch l
  | none => { s with call := .idle }

/-- Takes the worker out and waits for it, if there is one. -/
def await (s : Ensemble ω σ) (next : Option Launch) : Ensemble ω σ :=
  let (worker, engine) := s.engine.takeWorker
  match worker with
  | some id => { s with engine, call := .waiting id next }
  | none => { s with engine }.proceed next

/-- What follows a stop: its call ends, unless it is part of a shutdown. -/
def afterStop (s : Ensemble ω σ) (leave : Bool) : Ensemble ω σ :=
  if leave then s.await none else { s with call := .idle }

def requestStop (s : Ensemble ω σ) (leave : Bool) : Ensemble ω σ :=
  match s.engine.current with
  | some id => if s.engine.isRunning then { s with call := .cancelling id leave } else s.afterStop leave
  | none => s.afterStop leave

/-- The call goes on. -/
def goOn (s : Ensemble ω σ) : Option (Ensemble ω σ) :=
  match s.call with
  | .idle => none
  | .cancelling id leave => some { s with engine := s.engine.cancel id, call := .marking id leave }
  | .marking id leave => some ({ s with engine := s.engine.showRequest id }.afterStop leave)
  | .waiting id next => if s.engine.isAlive id then none else some (s.proceed next)
  | .abandoning id => some { s with engine := s.engine.cancel id, call := .silencing id }
  | .silencing id =>
    some { s with engine := s.engine.silence id, call := .idle, log := s.log ++ [.abandoned id] }

/-! ## The receiver -/

/-- The receiver is done with its message, and delivers an event or none. -/
def deliver (s : Ensemble ω σ) (run : Nat) (x : Option Event × Queue) : Ensemble ω σ :=
  { s with
    engine.queue := x.2, taking := .resting
    log := s.log ++ (x.1.map (Note.delivered run)).toList }

/-- The receiver goes on. -/
def take (s : Ensemble ω σ) : Option (Ensemble ω σ) :=
  let q := s.engine.queue
  match s.taking with
  | .resting => q.pop?.map fun (m, q) => { s with engine.queue := q, taking := .testing m }
  | .testing m =>
    if (q.slot m.run).abandoned then some (s.deliver m.run (none, q))
    else match m with
      | .event run e => some (s.deliver run (q.resolve (.event run e)))
      | .line run => some { s with taking := .clearing run }
  | .clearing run => some { s with engine.queue := q.clearQueued run, taking := .loading run }
  | .loading run => some { s with taking := .comparing run (q.slot run).line }
  | .comparing run line => some (s.deliver run (q.deliverLine line))

/-! ## Workers and pumps -/

/-- What the next step of a worker leaves in the log. -/
def notesOf (I : Interpreter ω σ) (id : Nat) (r : Run σ) : List Note :=
  match r.stage with
  | .executing s =>
    match I.signal s with
    | .line n => if 0 ≤ n then [.published id (UInt32.ofNat n.toNat)] else []
    | .write bytes => [.wrote id bytes]
    | _ => []
  | .reporting _ failure => [.reported id failure]
  | .finalizing s _ =>
    match I.signal s with
    | .write bytes => [.finalized id bytes]
    | _ => []
  | _ => []

/-- A worker or a pump goes on. -/
def act (I : Interpreter ω σ) (s : Ensemble ω σ) (a : Actor) : Ensemble ω σ :=
  let notes := match a with
    | .worker id => (s.engine.runs[id]?.map (notesOf I id)).getD []
    | _ => []
  { s with engine := s.engine.step I a, log := s.log ++ notes }

/-! ## All together -/

/-- One step of one of the parties, if it can be made. -/
def step (I : Interpreter ω σ) (s : Ensemble ω σ) : Label ω → Option (Ensemble ω σ)
  | .setScript source => if s.isFree then some { s with engine := (s.engine.setScript source).2 } else none
  | .setSearchDirs dirs =>
    if s.isFree then some { s with engine := (s.engine.setSearchDirs dirs).2 } else none
  | .start l =>
    if s.isFree then some (if s.engine.isRunning then s else s.await (some l)) else none
  | .stop => if s.isFree then some (s.requestStop false) else none
  | .shutdown => if s.isFree then some (s.requestStop true) else none
  | .goOn => if s.taking = .resting then s.goOn else none
  | .giveUp =>
    match s.call with
    | .waiting id _ => if s.taking = .resting then some { s with call := .abandoning id } else none
    | _ => none
  | .take =>
    match s.call with
    | .idle | .waiting _ _ => s.take
    | _ => none
  | .other a => some (s.act I a)
  | .dropPump id =>
    if (s.engine.queue.slot id).abandoned then some { s with engine := s.engine.abortPump id } else none
  | .outside w => some { s with engine.world := w }

/-- A run of the system. -/
def exec (I : Interpreter ω σ) (s : Ensemble ω σ) : List (Label ω) → Option (Ensemble ω σ)
  | [] => some s
  | l :: ls => (s.step I l).bind fun s => exec I s ls

theorem exec_append {I : Interpreter ω σ} (s : Ensemble ω σ) (ls ls' : List (Label ω)) :
    exec I s (ls ++ ls') = (exec I s ls).bind fun s => exec I s ls' := by
  induction ls generalizing s with
  | nil => rfl
  | cons l ls ih =>
    rw [List.cons_append, exec, exec]
    cases s.step I l with
    | none => rfl
    | some s' => exact ih s'

theorem exec_snoc {I : Interpreter ω σ} {s₀ s s' : Ensemble ω σ} {ls : List (Label ω)} {l : Label ω}
    (h : exec I s₀ ls = some s) (hs : s.step I l = some s') : exec I s₀ (ls ++ [l]) = some s' := by
  rw [exec_append, h, Option.bind_some, exec, hs]
  rfl

/-- What holds at the start of a run and is kept by every step behind it holds at its end. -/
theorem exec_induction {I : Interpreter ω σ} {s₀ s : Ensemble ω σ} {ls : List (Label ω)}
    {P : List (Label ω) → Ensemble ω σ → Prop} (start : P [] s₀)
    (step : ∀ {ls s l s'}, exec I s₀ ls = some s → P ls s → s.step I l = some s' → P (ls ++ [l]) s')
    (h : exec I s₀ ls = some s) : P ls s := by
  -- the labels behind those that were gone through already
  have rest (ls : List (Label ω)) : ∀ {before s₁}, exec I s₀ before = some s₁ → P before s₁ →
      exec I s₁ ls = some s → P (before ++ ls) s := by
    induction ls with
    | nil =>
      intro before s₁ _ hp h
      cases h
      rwa [List.append_nil]
    | cons l ls ih =>
      intro before s₁ h₁ hp h
      obtain ⟨s₂, h₂, h₃⟩ := Option.bind_eq_some_iff.mp h
      have := ih (exec_snoc h₁ h₂) (step h₁ hp h₂) h₃
      rwa [List.append_assoc] at this
  exact rest ls rfl start h

/-- The states to which the steps that `ok` allows lead. -/
inductive Reached (I : Interpreter ω σ) (ok : Label ω → Prop) (s₀ : Ensemble ω σ) :
    Ensemble ω σ → Prop where
  | start : Reached I ok s₀ s₀
  | step {s s' : Ensemble ω σ} {l : Label ω} (h : Reached I ok s₀ s) (hl : ok l)
    (hs : s.step I l = some s') : Reached I ok s₀ s'

/-- A run leads to a state that is reached. -/
theorem reached_of_exec {I : Interpreter ω σ} {ok : Label ω → Prop} {s₀ s s' : Ensemble ω σ}
    {ls : List (Label ω)} (hs : Reached I ok s₀ s) (h : exec I s ls = some s')
    (hok : ∀ l ∈ ls, ok l) : Reached I ok s₀ s' := by
  induction ls generalizing s with
  | nil =>
    cases h
    exact hs
  | cons l ls ih =>
    obtain ⟨s₁, h₁, h₂⟩ := Option.bind_eq_some_iff.mp h
    exact ih (hs.step (hok l List.mem_cons_self) h₁) h₂ fun l hl => hok l (List.mem_cons_of_mem _ hl)

/-- Where every step is allowed, all runs lead to states that are reached. -/
theorem Reached.of_exec {I : Interpreter ω σ} {s₀ s s' : Ensemble ω σ} {ls : List (Label ω)}
    (hs : Reached I (fun _ => True) s₀ s) (h : exec I s ls = some s') :
    Reached I (fun _ => True) s₀ s' := reached_of_exec hs h fun _ _ => trivial

end Ensemble
end ScriptHost
