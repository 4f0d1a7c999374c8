import Mathlib.Data.List.Forall2
import Mathlib.Tactic.Use
import QuoteFeed.Market.Columns
import QuoteFeed.Proofs.Text.Blank

/-!
# The rows of a listing

The entries of one index in all columns are a row.  A row is complete if its three texts are more
than blanks, and then it describes one market (`Columns.Describes`).  The markets of a listing are
those of its complete rows, in their order (`Columns.exists_rows`), and no row has a part in the
market of another (`Columns.exists_split`).
-/

namespace QuoteFeed

variable {α β : Type}

/-- What a partial function gives along a list stands in the order of the arguments where it is
defined. -/
theorem forall₂_filterMap (f : α → Option β) (l : List α) :
  List.Forall₂ (fun a b => f a = some b) (l.filter fun a => (f a).isSome) (l.filterMap f)
  := by
  induction l with
  | nil => apply List.Forall₂.nil
  | cons a l ih =>
    cases h : f a with
    | none =>
      rw [List.filter_cons_of_neg (by simp [h]), List.filterMap_cons_none h]
      apply ih
    | some b =>
      rw [List.filter_cons_of_pos (by simp [h]), List.filterMap_cons_some h]
      exact List.Forall₂.cons h ih

/-- What a partial function gives below a number, split at one of the arguments. -/
theorem filterMap_range (f : Nat → Option β) (j k : Nat) :
  (List.range (j + (k + 1))).filterMap f =
    (List.range j).filterMap f ++ ((f j).toList ++ (List.range' (j + 1) k).filterMap f)
  := by
  have hr : List.range (j + (k + 1)) = List.range j ++ (j :: List.range' (j + 1) k) := by
    rw [List.range_eq_range', List.range_eq_range', ← List.range'_succ, ← List.range'_append,
      Nat.zero_add, Nat.one_mul]
  rw [hr, List.filterMap_append, List.filterMap_cons]
  cases f j with
  | none => rfl
  | some b => rfl

namespace Columns

/-! ### Rows -/

/-- A column holds a text: its entry is more than blanks, and the text is the entry without the
blanks around it. -/
def HoldsText (column : List (Option String)) (i : Nat) (t : String) : Prop :=
  ∃ v, column[i]? = some (some v) ∧ Text.isBlankText v = false ∧ t = Text.trim v

/-- A column holds a value: its entry, or `absent` for a gap and beyond the end. -/
def HoldsOr (column : List (Option α)) (i : Nat) (absent a : α) : Prop :=
  column[i]? = some (some a) ∨ (column[i]? = some none ∨ column[i]? = none) ∧ a = absent

/-- The three texts of a row are more than blanks. -/
structure Complete (c : Columns) (i : Nat) : Prop where
  symbol : ∃ t, HoldsText c.symbol i t
  currency : ∃ t, HoldsText c.currency i t
  baseCurrency : ∃ t, HoldsText c.baseCurrency i t

/-- The market has its fields from a row. -/
structure Describes (c : Columns) (i : Nat) (m : Market) : Prop where
  id : HoldsText c.symbol i m.id.name
  quote : HoldsText c.currency i m.quote
  base : HoldsText c.baseCurrency i m.base
  tradable : HoldsOr c.tradable i false m.tradable
  priceScale : HoldsOr c.priceScale i 1 m.priceScale
  minMovement : HoldsOr c.minMovement i .zero m.minMovement

/-- Two listings have the same entries in a row. -/
structure SameRow (c c' : Columns) (i : Nat) : Prop where
  symbol : c'.symbol[i]? = c.symbol[i]?
  currency : c'.currency[i]? = c.currency[i]?
  baseCurrency : c'.baseCurrency[i]? = c.baseCurrency[i]?
  tradable : c'.tradable[i]? = c.tradable[i]?
  priceScale : c'.priceScale[i]? = c.priceScale[i]?
  minMovement : c'.minMovement[i]? = c.minMovement[i]?

variable {c c' : Columns} {i : Nat} {m : Market}

theorem textEntry_eq_some_iff {column : List (Option String)} {t : String} :
  textEntry column i = some t ↔ HoldsText column i t
  := by
  have hb (v : String) : (!(Text.trim v).isEmpty) = true ↔ Text.isBlankText v = false := by
    rw [Text.isEmpty_trim, Bool.not_eq_true']
  rw [textEntry, entry, Option.filter_eq_some_iff, Option.map_eq_some_iff]
  simp only [Option.join_eq_some_iff]
  constructor
  · rintro ⟨⟨v, hv, rfl⟩, ht⟩
    use v, hv, (hb v).1 ht
  · rintro ⟨v, hv, ht, rfl⟩
    exact ⟨⟨v, hv, rfl⟩, (hb v).2 ht⟩

theorem getD_entry_iff {column : List (Option α)} {absent a : α} :
  a = (entry column i).getD absent ↔ HoldsOr column i absent a
  := by
  rw [HoldsOr, entry]
  cases column[i]? with
  | none => simp
  | some e =>
    cases e with
    | none => simp
    | some b => simp [eq_comm]

/-- A row has the market that it describes. -/
theorem market?_eq_some_iff :
  c.market? i = some m ↔ c.Describes i m
  := by
  rw [market?]
  simp only [bind, Option.bind_eq_some_iff, textEntry_eq_some_iff, Option.pure_def,
    Option.some_inj]
  constructor
  · rintro ⟨id, hid, quote, hquote, base, hbase, rfl⟩
    exact ⟨hid, hquote, hbase, getD_entry_iff.1 rfl, getD_entry_iff.1 rfl, getD_entry_iff.1 rfl⟩
  · intro h
    refine ⟨m.id.name, h.id, m.quote, h.quote, m.base, h.base, ?_⟩
    rw [← getD_entry_iff.2 h.tradable, ← getD_entry_iff.2 h.priceScale,
      ← getD_entry_iff.2 h.minMovement]

/-- A row has a market exactly if it is complete. -/
theorem isSome_market?_iff :
  (c.market? i).isSome ↔ c.Complete i
  := by
  rw [Option.isSome_iff_exists]
  constructor
  · rintro ⟨m, hm⟩
    have h := market?_eq_some_iff.1 hm
    exact ⟨⟨_, h.id⟩, ⟨_, h.quote⟩, ⟨_, h.base⟩⟩
  · rintro ⟨⟨id, hid⟩, ⟨quote, hquote⟩, ⟨base, hbase⟩⟩
    exact ⟨⟨⟨id⟩, base, quote, _, _, _⟩, market?_eq_some_iff.2
      ⟨hid, hquote, hbase, getD_entry_iff.1 rfl, getD_entry_iff.1 rfl, getD_entry_iff.1 rfl⟩⟩

/-- Beyond the end of the symbols no row has a market. -/
theorem market?_eq_none (h : c.symbol.length ≤ i) :
  c.market? i = none
  := by
  rw [market?, textEntry, entry, List.getElem?_eq_none_iff.2 h]
  rfl

theorem SameRow.market?_eq (h : c.SameRow c' i) :
  c'.market? i = c.market? i
  := by
  simp only [market?, textEntry, entry, h.symbol, h.currency, h.baseCurrency, h.tradable,
    h.priceScale, h.minMovement]

/-! ### Listings -/

/-- Rows beyond the end of the symbols add nothing. -/
theorem markets_eq_filterMap {n : Nat} (h : c.symbol.length ≤ n) :
  c.markets = (List.range n).filterMap c.market?
  := by
  induction n, h using Nat.le_induction with
  | base => rfl
  | succ n hn ih =>
    rw [List.range_succ, List.filterMap_append, ← ih, List.filterMap_cons_none (market?_eq_none hn),
      List.filterMap_nil, List.append_nil]

/-- The markets are those of the complete rows, in their order. -/
theorem exists_rows (c : Columns) :
  ∃ rows : List Nat, rows.Pairwise (· < ·) ∧
    (∀ i, i ∈ rows ↔ i < c.symbol.length ∧ c.Complete i) ∧
    List.Forall₂ c.Describes rows c.markets
  := by
  use (List.range c.symbol.length).filter fun i => (c.market? i).isSome
  refine ⟨List.pairwise_lt_range.filter _, ?_, ?_⟩
  · intro i
    rw [List.mem_filter, List.mem_range, isSome_market?_iff]
  · apply (forall₂_filterMap c.market? _).imp
    intro i m h
    apply market?_eq_some_iff.1 h

/-- Two listings that differ in one row only have the same markets before the market of this row,
and the same after it. -/
theorem exists_split {j : Nat} (h : ∀ i ≠ j, c.SameRow c' i) :
  ∃ before after, c.markets = before ++ ((c.market? j).toList ++ after) ∧
    c'.markets = before ++ ((c'.market? j).toList ++ after)
  := by
  let k := max c.symbol.length c'.symbol.length
  have same {l : List Nat} (hl : ∀ i ∈ l, i ≠ j) :
      l.filterMap c'.market? = l.filterMap c.market? := by
    apply List.filterMap_congr
    intro i hi
    apply (h i (hl i hi)).market?_eq
  use (List.range j).filterMap c.market?, (List.range' (j + 1) k).filterMap c.market?
  constructor
  · rw [markets_eq_filterMap (show c.symbol.length ≤ j + (k + 1) by omega), filterMap_range]
  · rw [markets_eq_filterMap (show c'.symbol.length ≤ j + (k + 1) by omega), filterMap_range,
      same, same]
    · intro i hi
      have := (List.mem_range'_1.1 hi).1
      omega
    · intro i hi
      have := List.mem_range.1 hi
      omega

/-- The markets of a listing are those of its complete rows, one for each in the order of their
indices, and each has all its fields from its row.  Other entries at one index change the market of
this row and nothing else, and entries beyond the end of the symbols change nothing. -/
theorem markets_of_rows (c : Columns) :
  (∃ rows : List Nat, rows.Pairwise (· < ·) ∧
    (∀ i, i ∈ rows ↔ i < c.symbol.length ∧ c.Complete i) ∧
    List.Forall₂ c.Describes rows c.markets) ∧
    (∀ (j : Nat) (c' : Columns), (∀ i ≠ j, c.SameRow c' i) →
      ∃ before after, ∃ here there : Option Market,
        c.markets = before ++ (here.toList ++ after) ∧
          c'.markets = before ++ (there.toList ++ after) ∧
          (∀ m, here = some m ↔ c.Describes j m) ∧ ∀ m, there = some m ↔ c'.Describes j m) ∧
    ∀ c' : Columns, c'.symbol = c.symbol → (∀ i < c.symbol.length, c.SameRow c' i) →
      c'.markets = c.markets
  := by
  refine ⟨c.exists_rows, ?_, ?_⟩
  · intro j c' h
    obtain ⟨before, after, hc, hc'⟩ := exists_split h
    exact ⟨before, after, c.market? j, c'.market? j, hc, hc', fun m => market?_eq_some_iff,
      fun m => market?_eq_some_iff⟩
  · intro c' hs h
    rw [markets, markets, hs]
    apply List.filterMap_congr
    intro i hi
    apply (h i (List.mem_range.1 hi)).market?_eq

end Columns

end QuoteFeed
