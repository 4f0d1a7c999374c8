import QuoteFeed.Json.Reader
import QuoteFeed.Text.Numeral

/-!
# The grammar of JSON

Which texts write a JSON value (`Json.Written`), apart from how they are read.  A value can be
written in many ways: with white space between the tokens, with any character of a string escaped,
and with either case of a hexadecimal digit or of the mark of an exponent.

A string is a literal, a list of pieces, each written in one of its ways (`Json.Literal`), and the
pieces spell a text unless a surrogate stands alone (`Json.Spells`).  The items of an array and the
members of an object come with the white space around them (`Json.Item`, `Json.Member`).
-/

namespace QuoteFeed.Json

/-- White space and nothing else. -/
def IsSpace (s : List Char) : Prop :=
  ∀ c ∈ s, isSpace c = true

/-! ### Strings -/

/-- The hexadecimal digit of a number, in either case. -/
def IsHex (n : Nat) (c : Char) : Prop :=
  "0123456789abcdef".toList[n]? = some c ∨ "0123456789ABCDEF".toList[n]? = some c

/-- The letters of the escapes of one letter, and the characters that they stand for. -/
def shortEscapes : List (Char × Char) :=
  [('"', '"'), ('\\', '\\'), ('/', '/'), ('b', '\x08'), ('f', '\x0C'), ('n', '\n'), ('r', '\r'),
    ('t', '\t')]

/-- What stands between the quotes of a string. -/
inductive Literal : List Piece → List Char → Prop where
  | nil : Literal [] []
  /-- A character as it stands. -/
  | plain {c : Char} {ps : List Piece} {s : List Char} (hq : c ≠ '"') (hb : c ≠ '\\')
      (hc : 0x20 ≤ c.toNat) (h : Literal ps s) :
    Literal (.char c :: ps) (c :: s)
  /-- An escape of one letter. -/
  | short {e c : Char} {ps : List Piece} {s : List Char} (he : (e, c) ∈ shortEscapes)
      (h : Literal ps s) :
    Literal (.char c :: ps) ('\\' :: e :: s)
  /-- A code unit in four hexadecimal digits. -/
  | unit {i j k l : Nat} {a b c d : Char} {ps : List Piece} {s : List Char} (ha : IsHex i a)
      (hb : IsHex j b) (hc : IsHex k c) (hd : IsHex l d) (h : Literal ps s) :
    Literal (.unit (((i * 16 + j) * 16 + k) * 16 + l) :: ps) ('\\' :: 'u' :: a :: b :: c :: d :: s)

/-- The text that pieces spell. -/
inductive Spells : List Piece → List Char → Prop where
  | nil : Spells [] []
  | char (c : Char) {ps : List Piece} {cs : List Char} (h : Spells ps cs) :
    Spells (.char c :: ps) (c :: cs)
  /-- A character by its number. -/
  | unit (c : Char) {ps : List Piece} {cs : List Char} (h : Spells ps cs) :
    Spells (.unit c.toNat :: ps) (c :: cs)
  /-- A character by a pair of surrogates. -/
  | pair {c : Char} {n m : Nat} {ps : List Piece} {cs : List Char} (hn : isHigh n) (hm : isLow m)
      (hc : c.toNat = 0x10000 + (n - 0xD800) * 0x400 + (m - 0xDC00)) (h : Spells ps cs) :
    Spells (.unit n :: .unit m :: ps) (c :: cs)

/-- A string between its quotes: a text, or pieces that spell none. -/
inductive WrittenString : Option String → List Char → Prop where
  | text {s : String} {ps : List Piece} {t : List Char} (ht : Literal ps t)
      (hs : Spells ps s.toList) :
    WrittenString (some s) ('"' :: (t ++ ['"']))
  | ragged {ps : List Piece} {t : List Char} (ht : Literal ps t) (hs : ∀ cs, ¬ Spells ps cs) :
    WrittenString none ('"' :: (t ++ ['"']))

/-! ### Numbers -/

/-- The digits before the point: a zero, or digits that do not start with one. -/
def IsWhole (ds : List Char) : Prop :=
  ds = ['0'] ∨ Numeral.isDigits ds ∧ ds.head? ≠ some '0'

/-- The digits after the point, if there is a point. -/
inductive WrittenFraction : List Char → List Char → Prop where
  | absent : WrittenFraction [] []
  | digits {ds : List Char} (h : Numeral.isDigits ds) : WrittenFraction ds ('.' :: ds)

/-- An exponent, if there is one. -/
inductive WrittenExponent : Option Exponent → List Char → Prop where
  | absent : WrittenExponent none []
  | digits {mark : Char} {ds : List Char} (hm : mark = 'e' ∨ mark = 'E')
      (h : Numeral.isDigits ds) :
    WrittenExponent (some ⟨false, ds⟩) (mark :: ds)
  | plus {mark : Char} {ds : List Char} (hm : mark = 'e' ∨ mark = 'E') (h : Numeral.isDigits ds) :
    WrittenExponent (some ⟨false, ds⟩) (mark :: '+' :: ds)
  | minus {mark : Char} {ds : List Char} (hm : mark = 'e' ∨ mark = 'E')
      (h : Numeral.isDigits ds) :
    WrittenExponent (some ⟨true, ds⟩) (mark :: '-' :: ds)

/-- The parts of a number one after the other. -/
inductive WrittenNumber : Number → List Char → Prop where
  | parts (negative : Bool) {whole fraction f e : List Char} {exponent : Option Exponent}
      (hw : IsWhole whole) (hf : WrittenFraction fraction f) (he : WrittenExponent exponent e) :
    WrittenNumber ⟨negative, whole, fraction, exponent⟩
      ((if negative then ['-'] else []) ++ (whole ++ (f ++ e)))

/-! ### Values -/

/-- A value of an array or an object, the text that writes it, and the white space around it. -/
structure Item where
  value : Value
  text : List Char
  before : List Char
  after : List Char

/-- An item with the white space around it. -/
def Item.padded (i : Item) : List Char :=
  i.before ++ (i.text ++ i.after)

/-- Around the item is white space. -/
def Item.IsSpaced (i : Item) : Prop :=
  IsSpace i.before ∧ IsSpace i.after

/-- A value of an object and its key. -/
structure Member extends Item where
  key : Option String
  keyText : List Char
  beforeKey : List Char
  afterKey : List Char

/-- A key, a colon and the value, with the white space around them. -/
def Member.padded (m : Member) : List Char :=
  m.beforeKey ++ (m.keyText ++ (m.afterKey ++ ':' :: m.toItem.padded))

/-- The key is a string, and around it and the value is white space. -/
def Member.IsKeyed (m : Member) : Prop :=
  WrittenString m.key m.keyText ∧ IsSpace m.beforeKey ∧ IsSpace m.afterKey ∧ m.toItem.IsSpaced

/-- Texts with commas between them. -/
def withCommas (ts : List (List Char)) : List Char :=
  [','].intercalate ts

/-- The texts that write a value. -/
inductive Written : Value → List Char → Prop where
  | null : Written .null ['n', 'u', 'l', 'l']
  | true : Written (.bool true) ['t', 'r', 'u', 'e']
  | false : Written (.bool false) ['f', 'a', 'l', 's', 'e']
  | number {n : Number} {t : List Char} (h : WrittenNumber n t) : Written (.number n) t
  | string {s : Option String} {t : List Char} (h : WrittenString s t) : Written (.string s) t
  | emptyArray {w : List Char} (hw : IsSpace w) : Written (.array []) ('[' :: (w ++ [']']))
  | array {items : List Item} (hne : items ≠ []) (hs : ∀ i ∈ items, i.IsSpaced)
      (h : ∀ i ∈ items, Written i.value i.text) :
    Written (.array (items.map (·.value))) ('[' :: (withCommas (items.map (·.padded)) ++ [']']))
  | emptyObject {w : List Char} (hw : IsSpace w) : Written (.object []) ('{' :: (w ++ ['}']))
  | object {members : List Member} (hne : members ≠ []) (hs : ∀ m ∈ members, m.IsKeyed)
      (h : ∀ m ∈ members, Written m.value m.text) :
    Written (.object (members.map fun m => (m.key, m.value)))
      ('{' :: (withCommas (members.map (·.padded)) ++ ['}']))

end QuoteFeed.Json
