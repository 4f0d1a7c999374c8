import QuoteFeed.Json.Reader
import QuoteFeed.Market.Columns
import QuoteFeed.Report.Note
import QuoteFeed.Text.Utf8

/-!
# Fetching the markets

What the source answers to a request for its markets, and what is made of the answer: a status
other than success is an error that tells the body, and a body must be UTF-8 and list the markets by
columns.  A request without an answer, or whose body breaks off, fails.
-/

namespace QuoteFeed

/-- How far connections reach. -/
inductive Network where
  /-- Nothing can be reached. -/
  | isolated
  /-- The machine itself can be reached. -/
  | loopback
  deriving DecidableEq

/-- What a peer on this machine answers, as far as it arrives. -/
def Network.carry {α : Type} (n : Network) (answer : Option α) : Option α :=
  match n with
  | .isolated => none
  | .loopback => answer

/-- An answer of the source. -/
structure Reply where
  status : Nat
  /-- The bytes of the body, unless it broke off. -/
  body : Option (List Nat)

namespace Reply

/-- The status means success. -/
def isSuccess (r : Reply) : Bool :=
  200 ≤ r.status && r.status ≤ 299

/-- The text of the body, with replacements for what is no UTF-8. -/
def bodyText (r : Reply) : String :=
  String.ofList (Utf8.decodeLossy (r.body.getD []))

/-- The markets that the bytes of a body list. -/
def listing? (body : List Nat) : Option (List Market) := do
  let c ← Columns.ofJson? (← Json.read? (← Utf8.decode? body))
  return c.markets

/-- The markets in an answer. -/
def markets (r : Reply) : Except FetchError (List Market) :=
  if !r.isSuccess then
    .error (.status r.status r.bodyText)
  else
    match r.body with
    | none => .error .request
    | some body =>
      match listing? body with
      | none => .error .decode
      | some ms => .ok ms

end Reply

/-- The markets that a request gives. -/
def fetchMarkets : Option Reply → Except FetchError (List Market)
  | none => .error .request
  | some r => r.markets

end QuoteFeed
