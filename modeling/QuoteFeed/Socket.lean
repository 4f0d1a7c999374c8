import QuoteFeed.Stream.Event
import QuoteFeed.Text.Numeral

/-!
# Sockets

The session of a socket, as a client sees it.  The handle of the client accepts text frames into a
queue and may be released, that is closed or dropped.  The session itself waits for its connection,
then writes the queued frames and takes what arrives, in any order.  A connection that cannot be
made, a write that fails and the end of the connection each end the session with one event.  A
session whose handle is released ends without an event: it writes what is still queued and then one
close frame.

`Socket.step` is the effect of one act of the client, of the session or of the server; an act that
is not possible has none.
-/

namespace QuoteFeed

/-- A frame on the wire to the server. -/
inductive WireFrame where
  | text (s : String)
  /-- The answer to a ping with the same data. -/
  | pong (data : String)
  | close
  deriving DecidableEq

/-- What arrives from the server. -/
inductive Arrival where
  | text (s : String)
  | ping (data : String)
  /-- Binary data and unasked pongs, which mean nothing. -/
  | other
  /-- A close frame, with a code and a reason or without. -/
  | close (frame : Option (Nat × String))
  /-- The connection broke. -/
  | failure (reason : String)
  /-- The connection ended. -/
  | finish
  deriving DecidableEq

/-- Where a session stands. -/
inductive Socket.Phase where
  /-- The connection is not made yet. -/
  | connecting
  /-- The connection is made. -/
  | established
  /-- The session is over. -/
  | ended
  deriving DecidableEq

/-- A session with its records: the frames it wrote and the events it reported. -/
structure Socket where
  phase : Socket.Phase
  /-- The handle was closed or dropped. -/
  released : Bool
  /-- The frames that were accepted and not written, the oldest first. -/
  queue : List String
  written : List WireFrame
  events : List SessionEvent
  deriving DecidableEq

namespace Socket

/-- A session that was just asked for. -/
def initial : Socket := ⟨.connecting, false, [], [], []⟩

/-- An act.  A write has a fault if it fails. -/
inductive Act where
  /-- The client sends a frame. -/
  | send (frame : String)
  /-- The client closes or drops the handle. -/
  | release
  /-- The connection is made. -/
  | connected
  /-- The connection cannot be made. -/
  | refused (reason : String)
  /-- The session writes the oldest frame of its queue. -/
  | write (fault : Option String)
  /-- The session takes what arrived.  The fault is that of the answer to a ping. -/
  | arrive (a : Arrival) (fault : Option String)
  /-- The session sees that the handle is released.  Of the queue it can write so many frames
  before a write fails, or all. -/
  | yield (writable : Option Nat)
  deriving DecidableEq

/-- The handle accepts frames. -/
def accepts (s : Socket) : Bool :=
  !s.released && s.phase ≠ .ended

/-- An event is reported. -/
def report (s : Socket) (e : SessionEvent) : Socket :=
  { s with events := s.events ++ [e] }

/-- The session is over, and its queue is lost. -/
def finish (s : Socket) : Socket :=
  { s with phase := .ended, queue := [] }

/-- The session ends with an event. -/
def finishWith (s : Socket) (e : SessionEvent) : Socket :=
  (s.report e).finish

/-- Writes a frame, or ends the session with the fault of the write. -/
def emit (s : Socket) (f : WireFrame) : Option String → Socket
  | none => { s with written := s.written ++ [f] }
  | some fault => s.finishWith (.errored fault)

/-- The reason that a close frame gives. -/
def closeReason : Option (Nat × String) → String
  | none => "no close frame"
  | some (code, reason) => Numeral.text code ++ " " ++ reason

/-- The session takes what arrived. -/
def arrive (s : Socket) (fault : Option String) : Arrival → Socket
  | .text t => s.report (.message t)
  | .ping data => s.emit (.pong data) fault
  | .other => s
  | .close frame => s.finishWith (.closed (closeReason frame))
  | .failure reason => s.finishWith (.errored reason)
  | .finish => s.finishWith (.closed "stream ended")

/-- The session writes the oldest frame of its queue. -/
def writeNext (s : Socket) (fault : Option String) : Socket :=
  match s.queue with
  | [] => s
  | f :: queue => { s with queue }.emit (.text f) fault

/-- What a released session still writes: its queue and a close frame, as far as it can. -/
def farewell (queue : List String) : Option Nat → List WireFrame
  | none => queue.map .text ++ [.close]
  | some n => if n < queue.length then (queue.take n).map .text else queue.map .text

/-- The session ends because its handle is released. -/
def yield (s : Socket) (writable : Option Nat) : Socket :=
  { s with written := s.written ++ farewell s.queue writable }.finish

/-- The effect of an act. -/
def step (s : Socket) : Act → Socket
  | .send f => if s.accepts then { s with queue := s.queue ++ [f] } else s
  | .release => { s with released := true }
  | .connected => if s.phase = .connecting then { s with phase := .established }.report .opened else s
  | .refused reason => if s.phase = .connecting then s.finishWith (.errored reason) else s
  | .write fault => if s.phase = .established then s.writeNext fault else s
  | .arrive a fault => if s.phase = .established then s.arrive fault a else s
  | .yield writable =>
    match s.phase with
    | .connecting => if s.released then s.finish else s
    | .established => if s.released then s.yield writable else s
    | .ended => s

/-- The session after acts one after the other. -/
def run (s : Socket) (acts : List Act) : Socket :=
  acts.foldl step s

/-- The acts of a session whose queue is written at once and that then sees its handle. -/
def idleActs (s : Socket) : List Act :=
  if s.released then [.yield none] else List.replicate s.queue.length (.write none)

/-- The session after all that it can do on its own without a fault. -/
def settle (s : Socket) : Socket :=
  s.run s.idleActs

end Socket

end QuoteFeed
