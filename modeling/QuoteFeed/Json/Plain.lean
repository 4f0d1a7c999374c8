import QuoteFeed.Json.Number
import QuoteFeed.Json.Reader

/-!
# Plain JSON values

A value is plain if every string in it spells a text, every number has a value, and lists and
objects are nested at most `Json.plainDepth` deep.  `Value.plain?` is the plain form of a value:
of the members of one key it keeps the last.
-/

namespace QuoteFeed.Json

/-- How deep lists and objects of a plain value are nested. -/
def plainDepth : Nat := 127

/-- The number has a value: it fits 64 bits or is no larger than a binary64 number can be. -/
def Number.isPlain (n : Number) : Bool :=
  n.whole?.isSome || n.magnitude?.isSome

/-- The members without those of a key that comes again. -/
def lastMembers : List (Option String × Value) → List (Option String × Value)
  | [] => []
  | m :: ms => if ms.any fun l => l.1 = m.1 then lastMembers ms else m :: lastMembers ms

mutual

/-- The plain form of a value, nested at most `room` deep. -/
def Value.plain? (room : Nat) : Value → Option Value
  | .null => some .null
  | .bool b => some (.bool b)
  | .number n => if n.isPlain then some (.number n) else none
  | .string s => s.map .text
  | .array items => if room = 0 then none else (plainItems? (room - 1) items).map .array
  | .object members =>
    if room = 0 then none
    else (plainMembers? (room - 1) members).map fun ms => .object (lastMembers ms)

/-- The plain forms of items. -/
def plainItems? (room : Nat) : List Value → Option (List Value)
  | [] => some []
  | v :: vs => do
    let v ← v.plain? room
    let vs ← plainItems? room vs
    return v :: vs

/-- The members with plain values, if all keys are texts. -/
def plainMembers? (room : Nat) : List (Option String × Value) → Option (List (Option String × Value))
  | [] => some []
  | (none, _) :: _ => none
  | (some key, v) :: ms => do
    let v ← v.plain? room
    let ms ← plainMembers? room ms
    return (some key, v) :: ms

end

/-- Reads a text that holds one plain value. -/
def readPlain? (s : List Char) : Option Value :=
  (read? s).bind (·.plain? plainDepth)

end QuoteFeed.Json
