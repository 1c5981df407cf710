/-!
# A bounded cache

The cache keeps as many entries as its capacity allows and drops the oldest first. Putting a key
that is present changes its value and not its age. Hits, misses and evictions are counted. Keys are
compared as their kind has it.
-/

namespace Unformat

/-- A bounded map that counts how it is used; the oldest entry comes first. -/
structure Cache (κ ν : Type) where
  capacity : Nat
  entries : List (κ × ν) := []
  hits : Nat := 0
  misses : Nat := 0
  evictions : Nat := 0
  deriving Repr

namespace Cache

variable {κ ν : Type} [BEq κ]

/-- The value of a key, and the cache that has counted the look-up. -/
def get (cache : Cache κ ν) (key : κ) : Option ν × Cache κ ν :=
  match cache.entries.lookup key with
  | some value => (some value, { cache with hits := cache.hits + 1 })
  | none => (none, { cache with misses := cache.misses + 1 })

/-- Drop the oldest entries that exceed the capacity. -/
def evict (cache : Cache κ ν) : Cache κ ν :=
  let excess := cache.entries.length - cache.capacity
  { cache with
    entries := cache.entries.drop excess
    evictions := cache.evictions + excess }

def put (cache : Cache κ ν) (key : κ) (value : ν) : Cache κ ν :=
  if cache.entries.any (·.1 == key) then
    { cache with
      entries := cache.entries.map fun entry =>
        if entry.1 == key then (entry.1, value) else entry }
  else evict { cache with entries := cache.entries ++ [(key, value)] }

def resize (cache : Cache κ ν) (capacity : Nat) : Cache κ ν := evict { cache with capacity }

def clear (cache : Cache κ ν) : Cache κ ν := { cache with entries := [] }

def size (cache : Cache κ ν) : Nat := cache.entries.length

end Cache

end Unformat
