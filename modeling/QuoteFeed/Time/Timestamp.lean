import QuoteFeed.Time.Calendar
import QuoteFeed.Text.Blank
import QuoteFeed.Text.Numeral

/-!
# Timestamps

A moment of universal time, in the years from -262143 to 262142.  It counts seconds from the
epoch and nanoseconds within the second; a leap second has a second thousand million of them.
`Timestamp.text` writes the form of RFC 3339, with the fewest of 0, 3, 6 and 9 fraction digits
that are exact and with a sign for years beyond four digits.  `Timestamp.parse?` reads that
form and its neighbours: any offset, blanks between the parts, and fewer digits.
-/

namespace QuoteFeed.Time

/-- The first second of the year -262143. -/
def minSeconds : Int := -8334601228800

/-- The last second of the year 262142. -/
def maxSeconds : Int := 8210266876799

/-- A moment of universal time. -/
structure Timestamp where
  seconds : Int
  nanos : Nat
  minSeconds_le : minSeconds ≤ seconds
  le_maxSeconds : seconds ≤ maxSeconds
  nanos_lt : nanos < 2000000000
  deriving DecidableEq

namespace Timestamp

/-- The moment with the given parts, if it is in range. -/
def ofParts? (seconds : Int) (nanos : Nat) : Option Timestamp :=
  if h : (minSeconds ≤ seconds ∧ seconds ≤ maxSeconds) ∧ nanos < 2000000000 then
    some ⟨seconds, nanos, h.1.1, h.1.2, h.2⟩
  else
    none

/-- The epoch. -/
def epoch : Timestamp :=
  ⟨0, 0, by decide, by decide, by decide⟩

instance : Inhabited Timestamp := ⟨epoch⟩

/-- The moment so many milliseconds after the epoch, if it is in range. -/
def ofMillis? (ms : Int) : Option Timestamp :=
  ofParts? (ms / 1000) ((ms % 1000).toNat * 1000000)

/-! ### Writing -/

/-- A year: four digits, and a sign in front of years that need more or are negative. -/
def renderYear (year : Int) : List Char :=
  if 0 ≤ year ∧ year ≤ 9999 then Numeral.padded 4 year.toNat
  else (if year < 0 then '-' else '+') :: Numeral.padded 4 year.natAbs

/-- The fraction of a second, in the fewest of 0, 3, 6 and 9 digits that are exact. -/
def renderFraction (nanos : Nat) : List Char :=
  if nanos = 0 then []
  else if nanos % 1000000 = 0 then '.' :: Numeral.padded 3 (nanos / 1000000)
  else if nanos % 1000 = 0 then '.' :: Numeral.padded 6 (nanos / 1000)
  else '.' :: Numeral.padded 9 nanos

/-- A moment in the form of RFC 3339.  A leap second is the second 60 of its minute. -/
def render (t : Timestamp) : List Char :=
  let date := dateOfDay (t.seconds / 86400)
  let second := (t.seconds % 86400).toNat
  let leap := t.nanos / 1000000000
  renderYear date.year ++ '-' :: Numeral.padded 2 date.month ++ '-' :: Numeral.padded 2 date.day ++
    'T' :: Numeral.padded 2 (second / 3600) ++ ':' :: Numeral.padded 2 (second / 60 % 60) ++
    ':' :: Numeral.padded 2 (second % 60 + leap) ++ renderFraction (t.nanos % 1000000000) ++ ['Z']

/-- A moment as text. -/
def text (t : Timestamp) : String :=
  String.ofList t.render

/-! ### Reading -/

/-- Reads a number of at least one digit, and of at most `width` where a width is given. -/
def scanNumber? (width : Option Nat) (s : List Char) : Option (Nat × List Char) :=
  let run := s.takeWhile Char.isDigit
  let ds := match width with
    | some w => run.take w
    | none => run
  if ds.isEmpty then none else some (Numeral.value ds, s.drop ds.length)

/-- Reads two digits at most, after blanks. -/
def scanPart? (s : List Char) : Option (Nat × List Char) :=
  scanNumber? (some 2) (Text.trimStartChars s)

/-- Reads a year, after blanks: four digits at most, or any number of them after a sign. -/
def scanYear? (s : List Char) : Option (Int × List Char) :=
  match Text.trimStartChars s with
  | '-' :: s => (scanNumber? none s).map fun (n, r) => (-(n : Int), r)
  | '+' :: s => (scanNumber? none s).map fun (n, r) => ((n : Int), r)
  | s => (scanNumber? (some 4) s).map fun (n, r) => ((n : Int), r)

/-- Reads the character `c`, after blanks. -/
def scanMark? (c : Char) (s : List Char) : Option (List Char) :=
  match Text.trimStartChars s with
  | d :: r => if d = c then some r else none
  | [] => none

/-- Reads the fraction of a second, if there is a point.  Digits past the ninth are dropped. -/
def scanFraction? : List Char → Option (Nat × List Char)
  | '.' :: s =>
    let run := s.takeWhile Char.isDigit
    let ds := run.take 9
    if ds.isEmpty then none
    else some (Numeral.value ds * Nat.pow 10 (9 - ds.length), s.dropWhile Char.isDigit)
  | s => some (0, s)

/-- Reads the hours and minutes of an offset after its sign, as seconds. -/
def scanOffsetClock? (s : List Char) : Option (Nat × List Char) :=
  match s with
  | a :: b :: s =>
    if a.isDigit ∧ b.isDigit then
      match s.dropWhile fun c => c == ':' || Text.isBlank c with
      | c :: d :: s =>
        if '0' ≤ c ∧ c ≤ '5' ∧ d.isDigit then
          some (Numeral.value [a, b] * 3600 + Numeral.value [c, d] * 60, s)
        else
          none
      | _ => none
    else
      none
  | _ => none

/-- Reads an offset from universal time, after blanks, in seconds. -/
def scanOffset? (s : List Char) : Option (Int × List Char) :=
  match Text.trimStartChars s with
  | 'Z' :: r => some (0, r)
  | 'z' :: r => some (0, r)
  | '+' :: r => (scanOffsetClock? r).map fun (n, r) => ((n : Int), r)
  | '-' :: r => (scanOffsetClock? r).map fun (n, r) => (-(n : Int), r)
  | '−' :: r => (scanOffsetClock? r).map fun (n, r) => (-(n : Int), r)
  | a :: b :: c :: r =>
    if [a, b, c].map Char.toLower = ['u', 't', 'c'] then some (0, r) else none
  | _ => none

/-- Reads a date. -/
def scanDate? (s : List Char) : Option (Date × List Char) := do
  let (year, s) ← scanYear? s
  let (month, s) ← scanPart? (← scanMark? '-' s)
  let (day, s) ← scanPart? (← scanMark? '-' s)
  return (⟨year, month, day⟩, s)

/-- Reads a time of day: the second of the day and the nanosecond of the second, with a leap
second as the second 60. -/
def scanClock? (s : List Char) : Option ((Nat × Nat) × List Char) := do
  let (hour, s) ← scanPart? s
  let (minute, s) ← scanPart? (← scanMark? ':' s)
  let (second, s) ← scanPart? (← scanMark? ':' s)
  let (nanos, s) ← scanFraction? s
  if hour < 24 ∧ minute < 60 ∧ second ≤ 60 then
    let leap := second / 60
    return ((hour * 3600 + minute * 60 + (second - leap), nanos + leap * 1000000000), s)
  else
    none

/-- Reads the mark between date and time. -/
def scanSeparator? : List Char → Option (List Char)
  | c :: s => if c = 'T' ∨ c = 't' ∨ c = ' ' then some s else none
  | [] => none

/-- Reads a moment.  The date must be in the calendar, and the moment in range both with and
without its offset. -/
def parse? (s : List Char) : Option Timestamp := do
  let (date, s) ← scanDate? s
  let ((second, nanos), s) ← scanClock? (← scanSeparator? s)
  let (offset, s) ← scanOffset? s
  if s.all Text.isBlank ∧ date.isValid ∧ offset.natAbs < 86400 then
    let seconds := dayOfDate date * 86400 + second
    let _ ← ofParts? seconds nanos
    ofParts? (seconds - offset) nanos
  else
    none

end Timestamp

end QuoteFeed.Time
