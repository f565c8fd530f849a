import ScriptHost.Engine

/-!
# The pump of a run that gets no thread

The channel of a run is opened, and its pump goes on, before a thread is made
for it. When no thread can be made, the write end is dropped and the pump is
given up, but some time may pass until then.

* `Run.Unwritten.turn`: on a channel to which nothing was written, the pump never
  comes to send anything.
* `Run.Unwritten.unthreaded`: so nothing is left of the run, and nothing was sent.
* `Engine.launch_noThread`: whatever the pump does, the launch fails as one does that
  gets no channel.
-/
namespace ScriptHost

variable {ω σ : Type}

/-- Nothing was written to the channel of the run, and its pump has nothing to send. -/
structure Run.Unwritten (r : Run σ) : Prop where
  pieces : r.channel.pieces = []
  decoder : r.channel.reader.decoder = {}
  collected : r.channel.reader.collected = []
  pump : ∀ t, r.pump ≠ .sending t

theorem Run.unwritten_fresh (payload : Payload) (chunkName : String) :
    ({ payload, chunkName } : Run σ).Unwritten := ⟨rfl, rfl, rfl, fun _ => nofun⟩

namespace Run.Unwritten

variable {r : Run σ}

/-- A look at the channel finds no text. -/
theorem look (h : r.Unwritten) (g : Grant) :
    (∀ t, (r.channel.look g).1 ≠ .text t) ∧ (r.channel.look g).2.pieces = [] ∧
      (r.channel.look g).2.reader.decoder = {} ∧ (r.channel.look g).2.reader.collected = [] := by
  obtain ⟨pieces, decoder, collected, _⟩ := h
  generalize r.channel = c at pieces decoder collected
  obtain ⟨_, writing, reading, ⟨_, _, ended⟩⟩ := c
  dsimp only at pieces decoder collected
  subst pieces decoder collected
  have scanned : Utf8.scan [] = ("", []) := rfl
  have nothing : Utf8.lossy [] = "" := rfl
  cases g <;> cases ended <;> cases writing <;>
    simp [Channel.look, Channel.take, Channel.buffer, Reader.take, Reader.readTail,
      Reader.readCollected, Decoder.finish, Decoder.decode, scanned, nothing]

theorem failRead (h : r.Unwritten) : r.failRead.Unwritten := by
  unfold Run.failRead
  split
  · exact ⟨h.pieces, h.decoder, h.collected, nofun⟩
  · exact h

theorem pumpStep (h : r.Unwritten) (g : Grant) (id : Nat) (q : Queue) :
    (r.pumpStep g id q).1.Unwritten ∧ (r.pumpStep g id q).2 = q := by
  obtain ⟨silent, pieces, decoder, collected⟩ := h.look g
  unfold Run.pumpStep
  cases hp : r.pump with
  | reading =>
    generalize r.channel.look g = seen at silent pieces decoder collected
    obtain ⟨read, c⟩ := seen
    cases read with
    | text t => exact absurd rfl (silent t)
    | eof => exact ⟨⟨pieces, decoder, collected, nofun⟩, rfl⟩
    | pending => exact ⟨⟨pieces, decoder, collected, nofun⟩, rfl⟩
  | sending t => exact absurd hp (h.pump t)
  | finishing => exact ⟨⟨h.pieces, h.decoder, h.collected, nofun⟩, rfl⟩
  | ended => exact ⟨h, rfl⟩

/-- It has nothing to send ever after. -/
theorem turn (h : r.Unwritten) (id : Nat) (q : Queue) (g : Option Grant) :
    (Run.pumpTurn id (r, q) g).1.Unwritten ∧ (Run.pumpTurn id (r, q) g).2 = q := by
  cases g with
  | none => exact ⟨h.failRead, rfl⟩
  | some g => exact h.pumpStep g id q

theorem turns (h : r.Unwritten) (id : Nat) (q : Queue) (gs : List (Option Grant)) :
    (gs.foldl (Run.pumpTurn id) (r, q)).1.Unwritten ∧
      (gs.foldl (Run.pumpTurn id) (r, q)).2 = q := by
  induction gs generalizing r with
  | nil => exact ⟨h, rfl⟩
  | cons g gs ih =>
    obtain ⟨h', same⟩ := h.turn id q g
    rw [List.foldl_cons, ← Prod.eta (Run.pumpTurn id (r, q) g), same]
    exact ih h'

/-- Whatever the pump does before it is given up, it sends nothing, and nothing is left behind. -/
theorem unthreaded (h : r.Unwritten) (id : Nat) (q : Queue) (gs gs' : List (Option Grant)) :
    r.unthreaded id q gs gs' = (Run.failed r.payload r.chunkName, q) := by
  obtain ⟨before, same⟩ := h.turns id q gs
  unfold Run.unthreaded
  generalize gs.foldl (Run.pumpTurn id) (r, q) = y at before same
  obtain ⟨opened, q₁⟩ := y
  obtain rfl : q₁ = q := same
  have closed : Run.Unwritten { opened with channel := opened.channel.closeWriter } :=
    ⟨before.pieces, before.decoder, before.collected, before.pump⟩
  exact congrArg (Run.failed r.payload r.chunkName, ·) (closed.turns id q₁ gs').2

end Run.Unwritten

/-- **A launch without a thread** fails as one without a channel does, whatever its pump does. -/
theorem Engine.launch_noThread (e : Engine ω σ) (cause : SystemError)
    (turns late : List (Option Grant)) :
    e.launch (.noThread cause turns late) = e.failLaunch .spawnFailure (.spawn cause) := by
  have nothing := (Run.unwritten_fresh e.payload e.settings.chunkName).unthreaded (σ := σ)
    e.queue.openRun.1 e.queue.openRun.2 turns late
  simp only [launch, failThread, nothing, failLaunch]

end ScriptHost
