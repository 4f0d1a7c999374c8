import Mathlib.Tactic.Use
import QuoteFeed.Demand

/-!
# The requests that demand remembers

Recording markets replaces their requests and leaves the others alone, and a pruned demand keeps
the requests within its window.
-/

namespace QuoteFeed.Demand

variable {d : Demand} {now : Nat} {ms : List MarketId} {m : MarketId} {r : Request}

@[simp]
theorem window_record :
  (d.record now ms).window = d.window
  := by
  induction ms generalizing d with
  | nil => rfl
  | cons m ms ih => apply ih

@[simp]
theorem window_prune :
  (d.prune now).window = d.window
  := rfl

theorem mem_request :
  r ∈ (d.request now m).requests ↔ r = ⟨m, now⟩ ∨ (r ∈ d.requests ∧ r.market ≠ m)
  := by
  simp [request]

/-- The requests after markets were recorded: theirs are of now, the others are as before. -/
theorem mem_record :
  r ∈ (d.record now ms).requests ↔
    (r.market ∈ ms ∧ r.time = now) ∨ (r ∈ d.requests ∧ r.market ∉ ms)
  := by
  induction ms generalizing d with
  | nil => simp [record]
  | cons m ms ih =>
    have h := ih (d := d.request now m)
    rw [mem_request] at h
    apply h.trans
    rw [List.mem_cons, not_or]
    constructor
    · rintro (⟨hm, ht⟩ | ⟨rfl | ⟨hr, hm⟩, hn⟩)
      · exact Or.inl ⟨Or.inr hm, ht⟩
      · exact Or.inl ⟨Or.inl rfl, rfl⟩
      · exact Or.inr ⟨hr, hm, hn⟩
    · rintro (⟨hm | hm, ht⟩ | ⟨hr, hm, hn⟩)
      · by_cases hn : r.market ∈ ms
        · exact Or.inl ⟨hn, ht⟩
        · right
          constructor
          · left
            cases r
            subst hm ht
            rfl
          · apply hn
      · exact Or.inl ⟨hm, ht⟩
      · exact Or.inr ⟨Or.inr ⟨hr, hm⟩, hn⟩

theorem mem_prune :
  r ∈ (d.prune now).requests ↔ r ∈ d.requests ∧ now - r.time ≤ d.window
  := by
  simp [prune, isRecent]

/-- A market is in demand if one of its requests is within the window. -/
theorem mem_active :
  m ∈ d.active now ↔ ∃ r ∈ d.requests, r.market = m ∧ now - r.time ≤ d.window
  := by
  rw [active, markets, IdSet.mem_ofList, List.mem_map]
  constructor
  · rintro ⟨r, hr, rfl⟩
    rw [mem_prune] at hr
    use r, hr.1, rfl, hr.2
  · rintro ⟨r, hr, rfl, hw⟩
    use r
    rw [mem_prune]
    exact ⟨⟨hr, hw⟩, rfl⟩

end QuoteFeed.Demand
