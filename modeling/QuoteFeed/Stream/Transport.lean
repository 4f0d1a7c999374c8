import QuoteFeed.Wire.Outbound

/-!
# Sessions with the exchange

The sessions that were asked for, numbered from one in the order of asking, and the messages that
they took.  A session is open, and takes messages, until its handle is closed or the other side
ends it, and its events are heard until its dispatch ends.  While the transport is broken no
session takes a message.
-/

namespace QuoteFeed

/-- A session. -/
structure Session where
  /-- The client closed its handle. -/
  closed : Bool
  /-- The other side ended it. -/
  lost : Bool
  /-- Its events are still heard. -/
  heard : Bool
  deriving DecidableEq

/-- Neither side ended the session. -/
def Session.isOpen (s : Session) : Bool := !s.closed && !s.lost

/-- A message and the session that took it. -/
structure Sent where
  session : Nat
  message : Outbound
  deriving DecidableEq

/-- The sessions and what was sent. -/
structure Transport where
  sessions : List Session
  broken : Bool
  sent : List Sent
  deriving DecidableEq

namespace Transport

/-- No session was asked for. -/
def empty : Transport := ⟨[], false, []⟩

/-- The session of a number, counted from one. -/
def session? (t : Transport) (n : Nat) : Option Session :=
  if n = 0 then none else t.sessions[n - 1]?

/-- The number of sessions that were asked for. -/
def connects (t : Transport) : Nat := t.sessions.length

/-- The transport with one more session. -/
def connect (t : Transport) : Transport :=
  { t with sessions := t.sessions ++ [⟨false, false, true⟩] }

/-- The transport with the session of a number changed. -/
def modify (t : Transport) (n : Nat) (f : Session → Session) : Transport :=
  if n = 0 then t else { t with sessions := t.sessions.modify (n - 1) f }

/-- The client closes a session. -/
def close (t : Transport) (n : Nat) : Transport :=
  t.modify n fun s => { s with closed := true }

/-- The other side ends a session. -/
def lose (t : Transport) (n : Nat) : Transport :=
  t.modify n fun s => { s with lost := true }

/-- The events of a session are no longer heard. -/
def ignore (t : Transport) (n : Nat) : Transport :=
  t.modify n fun s => { s with heard := false }

/-- Neither side ended the session of a number. -/
def isOpen (t : Transport) (n : Nat) : Bool :=
  ((t.session? n).map (·.isOpen)).getD false

/-- A session takes messages. -/
def accepts (t : Transport) (n : Nat) : Bool :=
  !t.broken && t.isOpen n

/-- The events of a session are heard. -/
def hears (t : Transport) (n : Nat) : Bool :=
  ((t.session? n).map (·.heard)).getD false

/-- The transport after a session took a message. -/
def record (t : Transport) (n : Nat) (m : Outbound) : Transport :=
  { t with sent := t.sent ++ [⟨n, m⟩] }

/-- The messages that a session took, in order. -/
def sentOn (t : Transport) (n : Nat) : List Outbound :=
  (t.sent.filter fun s => s.session = n).map (·.message)

/-- The client closed the latest session. -/
def latestClosed (t : Transport) : Bool :=
  (t.sessions.getLast?.map (·.closed)).getD false

/-- A description of the transport. -/
def describe (t : Transport) : String :=
  "MockTransport \x7b sessions: " ++ Numeral.text t.connects ++ ", sent: " ++
    Numeral.text t.sent.length ++ " \x7d"

end Transport

end QuoteFeed
