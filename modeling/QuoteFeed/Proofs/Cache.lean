import Mathlib.Data.List.Nodup
import QuoteFeed.Cache

/-!
# Reading a cache

What is read for a key after a value was stored or expired values were removed.  A cache stores at
most one value per key (`Cache.Unique`), so that removing what is expired by now changes nothing
that is read from now on.
-/

namespace QuoteFeed.Cache

variable {κ ν : Type}

/-- There is at most one value per key. -/
def Unique (c : Cache κ ν) : Prop :=
  (c.entries.map (·.key)).Nodup

theorem unique_empty :
  (empty : Cache κ ν).Unique
  := List.nodup_nil

theorem unique_purge {c : Cache κ ν} (h : c.Unique) (t : Nat) :
  (c.purge t).Unique
  := List.Nodup.sublist (List.filter_sublist.map _) h

variable [DecidableEq κ] {c : Cache κ ν} {k key : κ} {v value : ν} {now t expiresAt : Nat}

theorem unique_put (h : c.Unique) :
  (c.put key value expiresAt).Unique
  := by
  apply List.nodup_cons.2
  constructor
  · intro hm
    obtain ⟨e, he, hk⟩ := List.mem_map.1 hm
    have hne := (List.mem_filter.1 he).2
    simp [hk] at hne
  · exact List.Nodup.sublist (List.filter_sublist.map _) h

theorem mem_put {e : Entry κ ν} :
  e ∈ (c.put key value expiresAt).entries ↔
    e = ⟨key, value, expiresAt⟩ ∨ e ∈ c.entries ∧ e.key ≠ key
  := by
  simp [put]

omit [DecidableEq κ] in
theorem mem_purge {e : Entry κ ν} :
  e ∈ (c.purge t).entries ↔ e ∈ c.entries ∧ t < e.expiresAt
  := by
  simp [purge]

theorem set?_eq_some_iff {ttl : Nat} {c' : Cache κ ν} :
  c.set? t key value ttl = some c' ↔
    t + ttl < Clock.limit ∧ c.put key value (t + ttl) = c'
  := by
  simp [set?, Clock.after?]

/-- The entry of a key is the only one that has it. -/
theorem find?_eq_some_iff (h : c.Unique) {e : Entry κ ν} :
  c.entries.find? (·.key = key) = some e ↔ e ∈ c.entries ∧ e.key = key
  := by
  constructor
  · intro hf
    use List.mem_of_find?_eq_some hf
    simpa using List.find?_some hf
  · rintro ⟨he, rfl⟩
    obtain ⟨e', hf⟩ : ∃ e', c.entries.find? (·.key = e.key) = some e' := by
      rw [← Option.isSome_iff_exists, List.find?_isSome]
      use e, he
      simp
    have hk : e'.key = e.key := by simpa using List.find?_some hf
    rw [hf, List.inj_on_of_nodup_map h (List.mem_of_find?_eq_some hf) he hk]

/-- What is read is the value of an entry that is not expired. -/
theorem get?_eq_some_iff (h : c.Unique) :
  c.get? now key = some v ↔ ∃ e ∈ c.entries, e.key = key ∧ now < e.expiresAt ∧ e.value = v
  := by
  simp only [get?, Option.map_eq_some_iff, Option.filter_eq_some_iff, find?_eq_some_iff h,
    decide_eq_true_eq, and_assoc]

@[simp]
theorem get?_empty :
  (empty : Cache κ ν).get? now key = none
  := rfl

/-- A value is read until it expires. -/
theorem get?_put_self :
  (c.put key value expiresAt).get? now key = if now < expiresAt then some value else none
  := by
  rw [get?, put, List.find?_cons_of_pos (by simp), Option.filter_some]
  by_cases h : now < expiresAt
  · simp [h]
  · simp [h]

/-- The other keys are read as before. -/
theorem get?_put_of_ne (h : k ≠ key) :
  (c.put key value expiresAt).get? now k = c.get? now k
  := by
  have hf : (c.entries.filter fun e => e.key ≠ key).find? (fun e => e.key = k) =
      c.entries.find? fun e => e.key = k := by
    rw [List.find?_filter]
    congr 1
    funext e
    by_cases he : e.key = k
    · simp [he, h]
    · simp [he]
  rw [get?, put, List.find?_cons_of_neg (by simpa using h.symm), hf]
  rfl

/-- A purge removes nothing that is read from then on. -/
theorem get?_purge (h : c.Unique) (ht : t ≤ now) :
  (c.purge t).get? now key = c.get? now key
  := by
  apply Option.ext
  intro v
  rw [get?_eq_some_iff (unique_purge h t), get?_eq_some_iff h]
  apply exists_congr
  intro e
  rw [purge, List.mem_filter, decide_eq_true_iff, and_assoc]
  apply and_congr_right
  intro _
  constructor
  · rintro ⟨-, hk, he, hv⟩
    exact ⟨hk, he, hv⟩
  · rintro ⟨hk, he, hv⟩
    exact ⟨Nat.lt_of_le_of_lt ht he, hk, he, hv⟩

end QuoteFeed.Cache
