import QuoteFeed.Text.Numeral

/-!
# Listening for requests

The surface listens on a port until it is cancelled.  A port on which something else listens cannot
be had; port zero stands for any free port.
-/

namespace QuoteFeed.Listener

/-- Why requests are not answered. -/
inductive Error where
  /-- The port cannot be had. -/
  | bind (port : Nat)
  deriving DecidableEq

/-- The text of an error, without its cause. -/
def Error.message : Error → String
  | .bind port => "failed to bind to port " ++ Numeral.text port

/-- Listens on a port until it is cancelled, where `taken` are the ports of others. -/
def listen (taken : Nat → Bool) (port : Nat) : Except Error Unit :=
  if port ≠ 0 && taken port then .error (.bind port) else .ok ()

end QuoteFeed.Listener
