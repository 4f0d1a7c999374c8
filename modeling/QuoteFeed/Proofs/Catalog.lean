import Mathlib.Tactic.Use
import QuoteFeed.Catalog
import QuoteFeed.Settings

/-!
# Looking up a name

The index of a catalog finds a name exactly if one of the live markets has it.  Markets live for the
time between refreshes and the grace, as far as the clock reaches (`CatalogSettings.lifetime_eq`).
-/

namespace QuoteFeed

/-- A lifetime within the clock is not cut off. -/
theorem CatalogSettings.lifetime_eq {s : CatalogSettings} (h : s.lifetime < Clock.limit) :
  s.lifetime = s.refresh + s.grace
  := by
  have hg : Clock.limit ≤ Duration.greatest := by decide +kernel
  rw [lifetime, Duration.plus] at h ⊢
  omega

/-- A name has an index if a market of this name is listed. -/
theorem lastIndex?_isSome {id : MarketId} {ms : List Market} :
  (lastIndex? id ms).isSome ↔ ∃ m ∈ ms, m.id = id
  := by
  induction ms with
  | nil => simp [lastIndex?]
  | cons m ms ih =>
    simp only [lastIndex?, List.mem_cons, exists_eq_or_imp, ← ih]
    cases lastIndex? id ms with
    | some i => simp
    | none =>
      by_cases h : m.id = id
      · simp [h]
      · simp [h]

theorem lt_of_lastIndex? {id : MarketId} {ms : List Market} {i : Nat}
    (h : lastIndex? id ms = some i) :
  i < ms.length
  := by
  induction ms generalizing i with
  | nil => simp [lastIndex?] at h
  | cons m ms ih =>
    rw [lastIndex?] at h
    split at h
    · rename_i j hj
      obtain rfl := Option.some.inj h
      rw [List.length_cons]
      apply Nat.succ_lt_succ (ih hj)
    · split at h
      · obtain rfl := Option.some.inj h
        apply Nat.succ_pos
      · contradiction

/-- The catalog finds the names of its live markets. -/
theorem Catalog.isSome_find? {c : Catalog} {now : Nat} {id : MarketId} :
  (c.find? now id).isSome ↔ ∃ m ∈ c.current now, m.id = id
  := by
  rw [find?, current]
  cases c.live? now with
  | none => simp
  | some s =>
    rw [Option.map_some, Option.getD_some, ← lastIndex?_isSome]
    cases h : lastIndex? id s.markets with
    | none => simp [h]
    | some i => simp [h, lt_of_lastIndex? h]

end QuoteFeed
