import Mediatheque.Media.Container

/-!
# The object cache

A bounded cache of objects by their id, which the backends share. The entries are
found by id, and a queue of ids remembers the order in which they came: the oldest
give way when the cache is full. Storing an id again makes it the youngest.

* `ObjectCache.put`, `ObjectCache.get?`, `ObjectCache.invalidate`, `ObjectCache.clear`.
-/

namespace Mediatheque

/-- A cached object with the time, in milliseconds, at which it was stored. -/
structure CacheEntry where
  object : Container
  stored : Nat
deriving Inhabited

/-- Entries by id, and their ids from the oldest to the youngest. -/
structure ObjectCache where
  capacity : Nat
  entries : Dictionary CacheEntry := .empty
  order : List String := []
deriving Inhabited

namespace ObjectCache

/-- An empty cache, which holds at least one object. -/
def new (capacity : Nat) : ObjectCache := { capacity := max capacity 1 }

def size (c : ObjectCache) : Nat := c.entries.entries.length

/-- The object with an id, unless it is older than asked for. -/
def get? (c : ObjectCache) (id : String) (maxAge : Option Nat) (now : Nat) : Option Container := do
  let entry ← c.entries.get? id
  match maxAge with
  | some age => if age < now - entry.stored then none else some entry.object
  | none => some entry.object

/-- Drops the oldest entries while there are more than the capacity. -/
def evict : Nat → ObjectCache → ObjectCache
  | 0, c => c
  | fuel + 1, c =>
    if c.size ≤ c.capacity then c
    else
      match c.order with
      | [] => c
      | oldest :: rest => evict fuel { c with entries := c.entries.erase oldest, order := rest }

/-- Stores an object under an id. -/
def put (c : ObjectCache) (id : String) (object : Container) (now : Nat) : ObjectCache :=
  let kept := if c.entries.contains id then c.order.filter (· ≠ id) else c.order
  let stored := { c with
    entries := c.entries.insert id ⟨object, now⟩
    order := kept ++ [id] }
  evict stored.order.length stored

/-- Forgets an id. -/
def invalidate (c : ObjectCache) (id : String) : ObjectCache :=
  if c.entries.contains id then
    { c with entries := c.entries.erase id, order := c.order.filter (· ≠ id) }
  else c

/-- Forgets everything. -/
def clear (c : ObjectCache) : ObjectCache := { c with entries := .empty, order := [] }

end ObjectCache

end Mediatheque
