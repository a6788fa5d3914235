/-!
# Bounded caches

A cache of at most so many entries. What is asked for or set moves to the front; where there is no
more room, the entry at the end goes. A cache without room keeps nothing.
-/

namespace PhoenixLens

/-- Entries by key, the one used last first. -/
structure BoundedCache (κ ν : Type) where
  capacity : Nat
  entries : List (κ × ν) := []
deriving Repr

namespace BoundedCache

variable {κ ν : Type} [BEq κ]

def find? (cache : BoundedCache κ ν) (key : κ) : Option ν := cache.entries.lookup key

def erase (cache : BoundedCache κ ν) (key : κ) : BoundedCache κ ν :=
  { cache with entries := cache.entries.filter fun e => !(e.1 == key) }

/-- Moves a key to the front. -/
def touch (cache : BoundedCache κ ν) (key : κ) : BoundedCache κ ν :=
  match cache.find? key with
  | some value => { cache.erase key with entries := (key, value) :: (cache.erase key).entries }
  | none => cache

/-- Sets the value of a key and moves it to the front. -/
def set (cache : BoundedCache κ ν) (key : κ) (value : ν) : BoundedCache κ ν :=
  { cache with entries := ((key, value) :: (cache.erase key).entries).take cache.capacity }

def clear (cache : BoundedCache κ ν) : BoundedCache κ ν := { cache with entries := [] }

def size (cache : BoundedCache κ ν) : Nat := cache.entries.length

/-- A cache that has just been set holds no more than there is room for. -/
theorem size_set_le (cache : BoundedCache κ ν) (key : κ) (value : ν) :
    (cache.set key value).size ≤ cache.capacity := by
  simp only [size, set, List.length_take]
  omega

end BoundedCache

end PhoenixLens
