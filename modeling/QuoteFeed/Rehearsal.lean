import QuoteFeed.Json.Plain
import QuoteFeed.Stream.Event
import QuoteFeed.Text.Numeral

/-!
# Rehearsals

A rehearsal stands in for the exchange.  It keeps the sessions that were asked for, numbered from
one, with the events that wait in each, and every frame that a session took.  Events go to the
latest session, and a frame is taken until the client closes the handle of its session.
-/

namespace QuoteFeed

/-- A session of a rehearsal. -/
structure Rehearsal.Session where
  /-- The client closed its handle. -/
  closed : Bool
  /-- Its events are still received. -/
  listening : Bool
  /-- The events that wait to be taken, the oldest first. -/
  waiting : List SessionEvent

/-- The sessions and the frames that they took. -/
structure Rehearsal where
  sessions : List Rehearsal.Session
  frames : List String

namespace Rehearsal

/-- No session was asked for. -/
def empty : Rehearsal := ⟨[], []⟩

/-- The session of a number, counted from one. -/
def session? (r : Rehearsal) (n : Nat) : Option Session :=
  if n = 0 then none else r.sessions[n - 1]?

/-- The number of sessions that were asked for. -/
def connects (r : Rehearsal) : Nat := r.sessions.length

/-- One more session is asked for. -/
def connect (r : Rehearsal) : Rehearsal :=
  { r with sessions := r.sessions ++ [⟨false, true, []⟩] }

/-- The session of a number changes. -/
def modify (r : Rehearsal) (n : Nat) (f : Session → Session) : Rehearsal :=
  if n = 0 then r else { r with sessions := r.sessions.modify (n - 1) f }

/-- The client closes the handle of a session. -/
def closeHandle (r : Rehearsal) (n : Nat) : Rehearsal :=
  r.modify n fun s => { s with closed := true }

/-- No more events of a session are received.  Those that wait can still be taken. -/
def endSession (r : Rehearsal) (n : Nat) : Rehearsal :=
  r.modify n fun s => { s with listening := false }

/-- The session takes frames, if there is one of that number. -/
def accepts? (r : Rehearsal) (n : Nat) : Option Bool :=
  (r.session? n).map (!·.closed)

/-- Sends a frame on a session.  One that takes no frames refuses it. -/
def send (r : Rehearsal) (n : Nat) (frame : String) : Rehearsal :=
  if r.accepts? n = some true then { r with frames := r.frames ++ [frame] } else r

/-- An event of the latest session. -/
def emit (r : Rehearsal) (e : SessionEvent) : Rehearsal :=
  r.modify r.connects fun s => if s.listening then { s with waiting := s.waiting ++ [e] } else s

/-- The oldest event that waits in a session. -/
def next? (r : Rehearsal) (n : Nat) : Option SessionEvent :=
  (r.session? n).bind (·.waiting.head?)

/-- Takes the oldest event that waits in a session. -/
def take (r : Rehearsal) (n : Nat) : Option SessionEvent × Rehearsal :=
  (r.next? n, r.modify n fun s => { s with waiting := s.waiting.tail })

/-- Forgets the frames. -/
def clear (r : Rehearsal) : Rehearsal :=
  { r with frames := [] }

/-- The client closed the latest session. -/
def latestClosed (r : Rehearsal) : Bool :=
  (r.sessions.getLast?.map (·.closed)).getD false

/-- The frames that are JSON texts, as values. -/
def messages (r : Rehearsal) : List Json.Value :=
  r.frames.filterMap fun f => Json.readPlain? f.toList

/-- A description of the rehearsal. -/
def describe (r : Rehearsal) : String :=
  "MockTransport \x7b sessions: " ++ Numeral.text r.connects ++ ", sent: " ++
    Numeral.text r.frames.length ++ " \x7d"

end Rehearsal

end QuoteFeed
