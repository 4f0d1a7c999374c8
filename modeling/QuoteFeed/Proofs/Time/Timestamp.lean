import QuoteFeed.Proofs.Text.Blank
import QuoteFeed.Proofs.Text.Numeral
import QuoteFeed.Proofs.Time.Calendar
import QuoteFeed.Time.Timestamp

/-!
# The text of a timestamp

A timestamp is read back from its text (`Timestamp.parse?_render`), in any year and with all its
nanoseconds, as long as it is not a leap second.  A leap second is excepted, for it is written as
the second after the one it extends, which is a leap second only at the end of a minute.  Every
number in the text ends at a mark that is no digit, so that a reader finds the number and leaves the
rest (`Timestamp.scanNumber?_append`).  A timestamp is also found from the milliseconds after the
epoch (`Timestamp.ofMillis?_eq_some_iff`).
-/

namespace QuoteFeed

namespace Text

theorem isBlank_of_isDigit {c : Char} (h : c.isDigit = true) :
  isBlank c = false
  := by
  have hr : 48 ≤ c.toNat ∧ c.toNat ≤ 57 := by
    rw [Char.isDigit, Bool.and_eq_true, decide_eq_true_eq, decide_eq_true_eq] at h
    exact h
  simp only [isBlank, blankRanges, List.any_cons, List.any_nil, Bool.or_false, Bool.or_eq_false_iff,
    Bool.and_eq_false_iff, decide_eq_false_iff_not]
  omega

theorem trimStartChars_digits {ds : List Char} (h : Numeral.isDigits ds) (r : List Char) :
  trimStartChars (ds ++ r) = ds ++ r
  := by
  cases ds with
  | nil => simp [Numeral.isDigits] at h
  | cons d ds =>
    simp only [Numeral.isDigits, Bool.and_eq_true, List.all_cons] at h
    apply trimStartChars_cons _ (isBlank_of_isDigit h.2.1)

end Text

namespace Time

namespace Timestamp

variable {c : Char}

/-! ### Parts -/

/-- A number is read up to what is no digit. -/
theorem scanNumber?_append {width : Option Nat} {ds : List Char} (hd : Numeral.isDigits ds)
    (hw : ∀ w ∈ width, ds.length ≤ w) (hc : c.isDigit = false) (r : List Char) :
  scanNumber? width (ds ++ c :: r) = some (Numeral.value ds, c :: r)
  := by
  have hrun := (Numeral.run_append hd (r := c :: r) (by simp [hc])).1
  have hne : ds.isEmpty = false := by
    simp only [Numeral.isDigits, Bool.and_eq_true, Bool.not_eq_true'] at hd
    apply hd.1
  cases width with
  | none =>
    rw [scanNumber?, hrun]
    simp [hne]
  | some w =>
    rw [scanNumber?, hrun, List.take_of_length_le (hw w rfl)]
    simp [hne]

/-- A number of two digits is read. -/
theorem scanPart?_padded {n : Nat} (h : n < 100) (hc : c.isDigit = false) (r : List Char) :
  scanPart? (Numeral.padded 2 n ++ c :: r) = some (n, c :: r)
  := by
  have hd := Numeral.isDigits_padded 2 n
  rw [scanPart?, Text.trimStartChars_digits hd, scanNumber?_append hd _ hc, Numeral.value_padded]
  intro w hw
  obtain rfl := Option.some.inj hw
  apply Nat.le_of_eq (Numeral.length_padded (by decide) h)

/-- A year is read, with its sign. -/
theorem scanYear?_renderYear (year : Int) (hc : c.isDigit = false) (r : List Char) :
  scanYear? (renderYear year ++ c :: r) = some (year, c :: r)
  := by
  have hd (n : Nat) := Numeral.isDigits_padded 4 n
  have signed (n : Nat) : scanNumber? none (Numeral.padded 4 n ++ c :: r) = some (n, c :: r) := by
    rw [scanNumber?_append (hd n) (by simp) hc, Numeral.value_padded]
  rw [renderYear]
  split
  case isTrue h =>
    have hw : ∀ w ∈ some 4, (Numeral.padded 4 year.toNat).length ≤ w := by
      intro w hw
      obtain rfl := Option.some.inj hw
      have hlt : year.toNat < 10000 := by omega
      apply Nat.le_of_eq (Numeral.length_padded (by decide) hlt)
    rw [scanYear?, Text.trimStartChars_digits (hd _)]
    split
    case h_1 he => exact absurd he (Numeral.append_ne_cons (hd _) rfl)
    case h_2 he => exact absurd he (Numeral.append_ne_cons (hd _) rfl)
    case h_3 =>
      rw [scanNumber?_append (hd _) hw hc, Numeral.value_padded]
      change some ((year.toNat : Int), c :: r) = _
      rw [Int.toNat_of_nonneg h.1]
  case isFalse h =>
    split
    · rw [List.cons_append, scanYear?, Text.trimStartChars_cons _ rfl]
      change (scanNumber? none (Numeral.padded 4 year.natAbs ++ c :: r)).map _ = _
      rw [signed]
      change some (-(year.natAbs : Int), c :: r) = _
      rw [← Int.eq_neg_natAbs_of_nonpos (by omega)]
    · rw [List.cons_append, scanYear?, Text.trimStartChars_cons _ rfl]
      change (scanNumber? none (Numeral.padded 4 year.natAbs ++ c :: r)).map _ = _
      rw [signed]
      change some ((year.natAbs : Int), c :: r) = _
      rw [Int.natAbs_of_nonneg (by omega)]

/-- A mark is read. -/
theorem scanMark?_cons (hb : Text.isBlank c = false) (r : List Char) :
  scanMark? c (c :: r) = some r
  := by
  rw [scanMark?, Text.trimStartChars_cons r hb]
  simp

/-- The fraction of a second is read up to its last place. -/
theorem scanFraction?_renderFraction {nanos : Nat} (h : nanos < 1000000000) (r : List Char) :
  scanFraction? (renderFraction nanos ++ 'Z' :: r) = some (nanos, 'Z' :: r)
  := by
  have places {width n : Nat} (hw : 0 < width ∧ width ≤ 9) (hn : n < 10 ^ width)
      (hm : n * 10 ^ (9 - width) = nanos) :
      scanFraction? ('.' :: Numeral.padded width n ++ 'Z' :: r) = some (nanos, 'Z' :: r) := by
    have hd := Numeral.isDigits_padded width n
    have hl := Numeral.length_padded hw.1 hn
    obtain ⟨hrun, hrest⟩ := Numeral.run_append hd (r := 'Z' :: r) (by simp)
    rw [List.cons_append, scanFraction?, hrun, hrest,
      List.take_of_length_le (Nat.le_trans (Nat.le_of_eq hl) hw.2), Numeral.value_padded, hl]
    have hne : (Numeral.padded width n).isEmpty = false := by
      rw [List.isEmpty_eq_false_iff, ← List.length_pos_iff, hl]
      apply hw.1
    rw [hne, if_neg Bool.false_ne_true]
    exact congrArg (fun m => some (m, 'Z' :: r)) hm
  rw [renderFraction]
  split
  case isTrue h0 =>
    rw [h0]
    rfl
  case isFalse =>
    split
    case isTrue => apply places (by decide) <;> omega
    case isFalse =>
      split
      case isTrue => apply places (by decide) <;> omega
      case isFalse => apply places (by decide) <;> omega

/-! ### Timestamps -/

/-- A date is read. -/
theorem scanDate?_append {d : Date} (hm : d.month < 100) (hd : d.day < 100) (hc : c.isDigit = false)
    (r : List Char) :
  scanDate? (renderYear d.year ++
      '-' :: (Numeral.padded 2 d.month ++ '-' :: (Numeral.padded 2 d.day ++ c :: r))) =
    some (d, c :: r)
  := by
  have hdash : '-'.isDigit = false := rfl
  have hmark (s : List Char) : scanMark? '-' ('-' :: s) = some s := scanMark?_cons rfl s
  simp only [scanDate?, scanYear?_renderYear d.year hdash, hmark, scanPart?_padded hm hdash,
    scanPart?_padded hd hc, Option.bind_eq_bind, Option.bind_some]
  rfl

/-- A time of day is read. -/
theorem scanClock?_append {second nanos : Nat} (hs : second < 86400) (hn : nanos < 1000000000)
    (r : List Char) :
  scanClock? (Numeral.padded 2 (second / 3600) ++
      ':' :: (Numeral.padded 2 (second / 60 % 60) ++
        ':' :: (Numeral.padded 2 (second % 60) ++ (renderFraction nanos ++ 'Z' :: r)))) =
    some ((second, nanos), 'Z' :: r)
  := by
  have hmark : ∃ c s, renderFraction nanos ++ 'Z' :: r = c :: s ∧ c.isDigit = false := by
    rw [renderFraction]
    split
    case isTrue => exact ⟨'Z', r, rfl, rfl⟩
    case isFalse =>
      split
      case isTrue => exact ⟨'.', _, rfl, rfl⟩
      case isFalse => split <;> exact ⟨'.', _, rfl, rfl⟩
  obtain ⟨c, s, he, hc⟩ := hmark
  have hcolon : ':'.isDigit = false := rfl
  have hmark (s : List Char) : scanMark? ':' (':' :: s) = some s := scanMark?_cons rfl s
  have hhour : second / 3600 < 24 := by omega
  have hminute : second / 60 % 60 < 60 := by omega
  have hsecond : second % 60 < 60 := by omega
  have hlast := scanPart?_padded (n := second % 60) (by omega) hc s
  rw [← he] at hlast
  simp only [scanClock?, scanPart?_padded (n := second / 3600) (by omega) hcolon, hmark,
    scanPart?_padded (n := second / 60 % 60) (by omega) hcolon, hlast,
    scanFraction?_renderFraction hn, Option.bind_eq_bind, Option.bind_some]
  rw [if_pos ⟨hhour, hminute, Nat.le_of_lt hsecond⟩, Nat.div_eq_of_lt hsecond]
  have hsum : second / 3600 * 3600 + second / 60 % 60 * 60 + second % 60 = second := by omega
  simp [hsum]

/-- A timestamp is read back, unless it is a leap second. -/
theorem parse?_render {t : Timestamp} (h : t.nanos < 1000000000) :
  parse? t.render = some t
  := by
  let date := dateOfDay (t.seconds / 86400)
  let second := (t.seconds % 86400).toNat
  have hvalid : date.isValid = true := isValid_dateOfDay _
  have hday : date.month < 100 ∧ date.day < 100 := by
    have hle := daysInMonth_le date.year date.month
    simp only [Date.isValid, Bool.and_eq_true, decide_eq_true_eq] at hvalid
    omega
  have hsecond : second < 86400 := by
    simp only [second]
    omega
  have hform : t.render = renderYear date.year ++ '-' :: (Numeral.padded 2 date.month ++
      '-' :: (Numeral.padded 2 date.day ++ 'T' :: (Numeral.padded 2 (second / 3600) ++
        ':' :: (Numeral.padded 2 (second / 60 % 60) ++
          ':' :: (Numeral.padded 2 (second % 60) ++ (renderFraction t.nanos ++ ['Z'])))))) := by
    have hleap : t.nanos / 1000000000 = 0 := by omega
    have hnanos : t.nanos % 1000000000 = t.nanos := by omega
    rw [render]
    rw [hleap, hnanos]
    simp only [List.append_assoc, List.cons_append, Nat.add_zero, date, second]
  have hseconds : dayOfDate date * 86400 + second = t.seconds := by
    rw [dayOfDate_dateOfDay]
    simp only [second]
    omega
  have hparts : ofParts? t.seconds t.nanos = some t := by
    rw [ofParts?, dif_pos ⟨⟨t.minSeconds_le, t.le_maxSeconds⟩, t.nanos_lt⟩]
  have hoffset : scanOffset? ['Z'] = some (0, []) := rfl
  have hseparator (s : List Char) : scanSeparator? ('T' :: s) = some s := rfl
  have hletter : 'T'.isDigit = false := rfl
  simp only [hform, parse?, scanDate?_append hday.1 hday.2 hletter, hseparator,
    scanClock?_append hsecond h, hoffset, Option.bind_eq_bind, Option.bind_some]
  rw [if_pos ⟨rfl, hvalid, by decide⟩, hseconds, Int.sub_zero, hparts]
  rfl

/-! ### Milliseconds -/

/-- The moment is so many milliseconds after the epoch, and no leap second. -/
def IsMillis (t : Timestamp) (ms : Int) : Prop :=
  t.seconds * 1000000000 + t.nanos = ms * 1000000 ∧ t.nanos < 1000000000

/-- A number of milliseconds gives the moment that is so many after the epoch, and gives none only
if there is no such moment. -/
theorem ofMillis?_eq_some_iff {t : Timestamp} {ms : Int} :
  ofMillis? ms = some t ↔ t.IsMillis ms
  := by
  rw [ofMillis?, ofParts?, IsMillis]
  constructor
  · intro h
    split at h
    · obtain rfl := Option.some.inj h
      dsimp only
      omega
    · contradiction
  · rintro ⟨h, hn⟩
    have hseconds : ms / 1000 = t.seconds := by omega
    have hnanos : (ms % 1000).toNat * 1000000 = t.nanos := by omega
    rw [hseconds, hnanos, dif_pos ⟨⟨t.minSeconds_le, t.le_maxSeconds⟩, t.nanos_lt⟩]

end Timestamp

end Time

end QuoteFeed
