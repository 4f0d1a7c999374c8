import QuoteFeed.Json.Number

/-!
# Records in JSON

A record is written as an object or as an array of its fields in order.  `Value.fields?` finds
the fields: in an object keys must be texts, a key that names no field is passed over, and a
field is given at most once; an array has no more items than there are fields.  A field that is
not given is `none`, and its reader decides whether it has a default.
-/

namespace QuoteFeed.Json

/-- The value of the field `name` among the members, `none` if it is given twice. -/
def lookup? (name : String) (members : List (String × Value)) : Option (Option Value) :=
  match members.filter fun m => m.1 = name with
  | [] => some none
  | [m] => some (some m.2)
  | _ => none

/-- The members of an object, if every key is a text. -/
def namedMembers? (members : List (Option String × Value)) : Option (List (String × Value)) :=
  members.mapM fun m => m.1.map (·, m.2)

/-- The fields of a record of the given names, as far as they are given. -/
def Value.fields? (names : List String) : Value → Option (List (Option Value))
  | .object members => do
    let members ← namedMembers? members
    names.mapM fun name => lookup? name members
  | .array items =>
    if items.length ≤ names.length then
      some (items.map some ++ List.replicate (names.length - items.length) none)
    else
      none
  | _ => none

/-! ### Readers of fields -/

/-- A text. -/
def Value.text? : Value → Option String
  | .string s => s
  | _ => none

/-- A truth value. -/
def Value.bool? : Value → Option Bool
  | .bool b => some b
  | _ => none

/-- A whole number of 64 bits. -/
def Value.unsigned? : Value → Option Nat
  | .number n => n.unsigned?
  | _ => none

/-- A whole number of 64 bits with a sign. -/
def Value.signed? : Value → Option Int
  | .number n => n.signed?
  | _ => none

/-- A value or `null`. -/
def Value.nullable? {α : Type} (read : Value → Option α) : Value → Option (Option α)
  | .null => some none
  | v => (read v).map some

/-- A list, item by item. -/
def Value.list? {α : Type} (read : Value → Option α) : Value → Option (List α)
  | .array items => items.mapM read
  | _ => none

/-- A field that must be given. -/
def required? {α : Type} (read : Value → Option α) (field : Option Value) : Option α :=
  field.bind read

/-- A field with a default. -/
def default? {α : Type} (absent : α) (read : Value → Option α) : Option Value → Option α
  | none => some absent
  | some v => read v

end QuoteFeed.Json
