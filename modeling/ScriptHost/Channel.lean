import ScriptHost.Text.Decoder
import ScriptHost.SystemError

/-!
# The output channel

A one-way stream of bytes from a worker to the controller's side. A read looks
at the stream again and again: it collects what arrives, a look that finds
nothing more ends it, and what was collected is returned as text. At the end of
the stream the tail that no byte completed comes as one last text.
-/
namespace ScriptHost

/-- What a read comes to. -/
inductive Channel.Read where
  | text (t : String)
  | eof
  /-- Nothing to return until more arrives. -/
  | pending
  deriving DecidableEq, Repr

/-- What one look at the stream finds. -/
inductive Receipt where
  /-- At least one byte. -/
  | bytes (b : List UInt8)
  | nothing
  /-- The writer is gone, and everything it wrote was taken. -/
  | closed
  deriving DecidableEq, Repr

/-- The reading side of a channel. Mirrors `OutputReader`. -/
structure Reader where
  decoder : Decoder := {}
  /-- What the read that goes on has collected. -/
  collected : List UInt8 := []
  /-- The end of the stream was met. -/
  ended : Bool := false
  deriving DecidableEq, Repr, Inhabited

namespace Reader

/-- The text of the tail that no byte completed, once. Mirrors `OutputReader.read` behind the end of
the stream. -/
def readTail (r : Reader) : Channel.Read × Reader :=
  let (rest, decoder) := r.decoder.finish
  (if rest.isEmpty then .eof else .text rest, { r with decoder })

/-- Returns what was collected, if it completes any text. Mirrors one round of
`OutputReader.read`. -/
def readCollected (r : Reader) : Channel.Read × Reader :=
  let (text, decoder) := r.decoder.decode r.collected
  let r := { r with decoder, collected := [] }
  if !text.isEmpty then (.text text, r)
  else if r.ended then r.readTail
  else (.pending, r)

/-- Goes on with a read after one more look at the stream. Mirrors one read of
`Reader.read_available`. -/
def take (r : Reader) : Receipt → Channel.Read × Reader
  | .bytes b => (.pending, { r with collected := r.collected ++ b })
  | .nothing => if r.collected.isEmpty then (.pending, r) else r.readCollected
  | .closed => { r with ended := true }.readCollected

end Reader

/-- How much the system shows at one look at the stream. -/
inductive Grant where
  /-- At most so many bytes of those that have arrived, but at least one. -/
  | upTo (n : Nat)
  /-- Nothing, whatever has arrived. -/
  | nothing
  /-- The look was interrupted and did not take place. -/
  | interrupted
  deriving DecidableEq, Repr

/-- A channel with both of its ends. -/
structure Channel where
  /-- What was written and is not yet read, the last piece first; none is empty. -/
  pieces : List (List UInt8) := []
  writing : Bool := true
  reading : Bool := true
  reader : Reader := {}
  deriving DecidableEq, Repr, Inhabited

namespace Channel

/-- The bytes written and not yet read. -/
def buffer (c : Channel) : List UInt8 := c.pieces.reverse.flatten

/-- Writes all bytes; an empty write always succeeds. Mirrors `OutputWriter.write_all`. -/
def write (c : Channel) (bytes : List UInt8) : Except SystemError Channel :=
  if bytes.isEmpty then .ok c
  else if !c.reading then .error .brokenPipe
  else .ok { c with pieces := bytes :: c.pieces }

/-- Drops the write end. -/
def closeWriter (c : Channel) : Channel := { c with writing := false }

/-- Drops the read end. -/
def closeReader (c : Channel) : Channel := { c with reading := false }

/-- Takes the first `n` bytes of the buffer, but at least one. -/
def take (c : Channel) (n : Nat) : Receipt × Channel :=
  match c.buffer with
  | [] => (if c.writing then .nothing else .closed, c)
  | b :: rest =>
    let left := rest.drop (n - 1)
    (.bytes (b :: rest.take (n - 1)), { c with pieces := if left.isEmpty then [] else [left] })

/-- One look of a read at the stream; behind its end there is nothing to look at. Mirrors one system
call of `Reader.read_available`. -/
def look (c : Channel) (g : Grant) : Read × Channel :=
  let finish (c : Channel) (r : Read × Reader) : Read × Channel := (r.1, { c with reader := r.2 })
  if c.reader.ended then finish c c.reader.readTail
  else
    match g with
    | .upTo n =>
      let (x, c) := c.take n
      finish c (c.reader.take x)
    | .nothing => finish c (c.reader.take .nothing)
    | .interrupted => (.pending, c)

/-- Everything available as text: one look for what has arrived, and one that finds no more. -/
def read (c : Channel) : Read × Channel :=
  let (r, c) := c.look (.upTo c.buffer.length)
  if c.reader.collected.isEmpty then (r, c) else c.look (.upTo 0)

end Channel
end ScriptHost
