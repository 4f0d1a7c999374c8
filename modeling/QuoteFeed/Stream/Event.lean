/-!
# Events of a session

What a session with the exchange reports to the stream, and the queue in which its events wait.
-/

namespace QuoteFeed

/-- An event of a session. -/
inductive SessionEvent where
  /-- The session takes messages. -/
  | opened
  /-- A frame arrived. -/
  | message (text : String)
  /-- The session was closed. -/
  | closed (reason : String)
  /-- The session failed. -/
  | errored (reason : String)
  deriving DecidableEq

/-- The most events that a queue can hold. -/
def queueLimit : Nat := Nat.pow 2 61 - 1

/-- There is a queue for so many events. -/
def IsQueue (n : Nat) : Prop := 0 < n ∧ n ≤ queueLimit

instance (n : Nat) : Decidable (IsQueue n) :=
  inferInstanceAs (Decidable (_ ∧ _))

end QuoteFeed
