import QuoteFeed.Clock

/-!
# Caches with expiry

A cache keeps one value per key until an instant.  An expired value is no longer read, and stays
in the cache until it is purged or replaced.
-/

namespace QuoteFeed

/-- A stored value with the first instant at which it is expired. -/
structure Cache.Entry (κ ν : Type) where
  key : κ
  value : ν
  expiresAt : Nat

/-- The stored values, at most one per key. -/
structure Cache (κ ν : Type) where
  entries : List (Cache.Entry κ ν)

namespace Cache

variable {κ ν : Type} [DecidableEq κ]

/-- The cache without values. -/
def empty : Cache κ ν := ⟨[]⟩

/-- The number of values, expired ones included. -/
def size (c : Cache κ ν) : Nat := c.entries.length

/-- The value of a key, if it is not expired. -/
def get? (c : Cache κ ν) (now : Nat) (key : κ) : Option ν :=
  ((c.entries.find? fun e => e.key = key).filter fun e => e.expiresAt > now).map (·.value)

/-- The cache with a value stored until `expiresAt`. -/
def put (c : Cache κ ν) (key : κ) (value : ν) (expiresAt : Nat) : Cache κ ν :=
  ⟨⟨key, value, expiresAt⟩ :: c.entries.filter fun e => e.key ≠ key⟩

/-- The cache with a value stored for `ttl`, unless that leads beyond the clock. -/
def set? (c : Cache κ ν) (now : Nat) (key : κ) (value : ν) (ttl : Nat) :
    Option (Cache κ ν) :=
  (Clock.after? now ttl).map (c.put key value)

/-- The cache without its expired values. -/
def purge (c : Cache κ ν) (now : Nat) : Cache κ ν :=
  ⟨c.entries.filter fun e => e.expiresAt > now⟩

/-- The number of values that a purge removes. -/
def expired (c : Cache κ ν) (now : Nat) : Nat :=
  c.size - (c.purge now).size

end Cache

end QuoteFeed
