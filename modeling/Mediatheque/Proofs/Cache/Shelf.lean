import Mathlib.Data.List.Nodup
import Mathlib.Data.List.Perm.Basic
import Mediatheque.Cache.ObjectCache

/-!
# The object cache as a shelf

A cache finds its entries by their ids, and remembers the order in which they came beside that.
Seen from outside it is a shelf with room for so many objects: an object is put at its young end,
and those at its old end make room (`Shelf.put`).

The cache holds what the shelf holds (`Holds`), which is kept by each of its operations: the loop
that drops the oldest entries leaves the youngest of them (`stands_evict`), a new object comes
behind the others (`holds_put`), and one that is forgotten is taken out (`holds_invalidate`). So
whatever is done with a cache, it answers as the shelf does (`cache_is_shelf`).
-/

namespace Mediatheque

/-! ## Shelves -/

/-- Objects by their ids, from the oldest to the youngest. -/
abbrev Shelf := List (String × Container)

namespace Shelf

def ids (s : Shelf) : List String := s.map (·.1)

def without (s : Shelf) (id : String) : Shelf := s.filter (·.1 ≠ id)

/-- Drops objects from the old end until there are no more than so many. -/
def trim (room : Nat) (s : Shelf) : Shelf := s.drop (s.length - room)

/-- Puts an object at the young end, and takes away another with its id. -/
def put (room : Nat) (s : Shelf) (id : String) (object : Container) : Shelf :=
  (s.without id ++ [(id, object)]).trim room

end Shelf

/-! ## Use -/

/-- What is done with a cache; an object is asked for whatever its age. -/
inductive CacheUse where
  | put (id : String) (object : Container) (now : Nat)
  | get (id : String) (now : Nat)
  | invalidate (id : String)
  | clear

/-- What a use of a cache answers, and what it leaves. -/
def ObjectCache.perform (c : ObjectCache) : CacheUse → Option Container × ObjectCache
  | .put id object now => (none, c.put id object now)
  | .get id now => (c.get? id none now, c)
  | .invalidate id => (none, c.invalidate id)
  | .clear => (none, c.clear)

/-- What a use of a shelf answers, and what it leaves. -/
def Shelf.perform (room : Nat) (s : Shelf) : CacheUse → Option Container × Shelf
  | .put id object _ => (none, s.put room id object)
  | .get id _ => (s.lookup id, s)
  | .invalidate id => (none, s.without id)
  | .clear => (none, [])

/-- The answers to some uses one after the other, and what is left in the end. -/
def performUses {σ : Type} (perform : σ → CacheUse → Option Container × σ) :
    σ → List CacheUse → List (Option Container) × σ
  | s, [] => ([], s)
  | s, u :: rest =>
    let next := perform s u
    let last := performUses perform next.2 rest
    (next.1 :: last.1, last.2)

namespace Shelf

variable {s : Shelf} {id : String}

theorem ids_append_singleton (s : Shelf) (id : String) (object : Container) :
    ids (s ++ [(id, object)]) = s.ids ++ [id] := by
  rw [ids, ids, List.map_append, List.map_singleton]

theorem ids_without (s : Shelf) (id : String) : (s.without id).ids = s.ids.filter (· ≠ id) := by
  rw [ids, ids, without, List.filter_map]
  rfl

theorem without_of_not_mem (h : id ∉ s.ids) : s.without id = s := by
  refine List.filter_eq_self.2 fun e he => ?_
  have hne : e.1 ≠ id := fun hid => h (hid ▸ List.mem_map_of_mem he)
  simpa using hne

theorem nodup_without (h : s.ids.Nodup) (id : String) : (s.without id).ids.Nodup := by
  rw [ids_without]
  exact h.filter _

/-- No id stands twice on a shelf behind whose others it is put. -/
theorem nodup_without_append (h : s.ids.Nodup) (id : String) (object : Container) :
    ids (s.without id ++ [(id, object)]) |>.Nodup := by
  rw [ids_append_singleton, ids_without]
  refine List.nodup_append.2 ⟨h.filter _, List.nodup_singleton _, fun a ha b hb => ?_⟩
  obtain rfl : b = id := List.mem_singleton.1 hb
  simpa using (List.mem_filter.1 ha).2

theorem lookup_without_append (s : Shelf) (id : String) (object : Container) (k : String) :
    (s.without id ++ [(id, object)]).lookup k = if k = id then some object else s.lookup k := by
  rw [List.lookup_append, without, Dictionary.lookup_filter_ne]
  by_cases hk : k = id
  · subst hk
    simp
  · rw [if_neg hk, if_neg hk, List.lookup_cons, beq_false_of_ne hk, List.lookup_nil, Option.or_none]

theorem length_trim_le (room : Nat) (s : Shelf) : (s.trim room).length ≤ room := by
  rw [trim, List.length_drop]
  omega

theorem trim_of_length_le {room : Nat} (h : s.length ≤ room) : s.trim room = s := by
  rw [trim, Nat.sub_eq_zero_of_le h, List.drop_zero]

theorem trim_cons_of_lt {room : Nat} {e : String × Container} (h : room < (e :: s).length) :
    trim room (e :: s) = s.trim room := by
  rw [List.length_cons] at h
  have hlength : (e :: s).length - room = s.length - room + 1 := by
    rw [List.length_cons]
    omega
  rw [trim, hlength, List.drop_succ_cons, trim]

/-- The youngest object stays as long as there is room for one. -/
theorem lookup_put_self {room : Nat} (hroom : 1 ≤ room) (s : Shelf) (id : String)
    (object : Container) : (s.put room id object).lookup id = some object := by
  have hlength : (s.without id ++ [(id, object)]).length - room ≤ (s.without id).length := by
    rw [List.length_append, List.length_singleton]
    omega
  have hnone : (List.drop ((s.without id ++ [(id, object)]).length - room)
      (s.without id)).lookup id = none := by
    refine List.lookup_eq_none_iff.2 fun e he => ?_
    have hne : e.1 ≠ id := by simpa using (List.mem_filter.1 (List.mem_of_mem_drop he)).2
    exact bne_iff_ne.2 hne.symm
  rw [put, trim, List.drop_append_of_le_length hlength, List.lookup_append, hnone,
    Option.none_or, List.lookup_cons, beq_self_eq_true]

end Shelf

namespace ObjectCache

variable {c : ObjectCache} {s : Shelf} {room : Nat}

/-! ## What stands in a cache -/

/-- The entries of a cache are the objects of a shelf, and its queue are their ids. -/
structure Stands (room : Nat) (c : ObjectCache) (s : Shelf) : Prop where
  capacity : c.capacity = room
  order : c.order = s.ids
  distinct : s.ids.Nodup
  objects : ∀ id, (c.entries.get? id).map (·.object) = s.lookup id

theorem Stands.get? (h : Stands room c s) (id : String) (now : Nat) :
    c.get? id none now = s.lookup id := by
  rw [ObjectCache.get?, ← h.objects id]
  cases c.entries.get? id <;> rfl

theorem Stands.contains_iff (h : Stands room c s) {id : String} :
    c.entries.contains id ↔ id ∈ s.ids := by
  rw [Shelf.ids, ← Dictionary.isSome_lookup_iff, ← h.objects id, Option.isSome_map]
  rfl

/-- The queue has the keys of the entries, each once. -/
theorem Stands.perm_keys (h : Stands room c s) : c.order.Perm c.entries.keys := by
  rw [h.order, List.perm_ext_iff_of_nodup h.distinct c.entries.nodup_keys]
  intro id
  rw [← h.contains_iff, Dictionary.contains_iff]

theorem Stands.size (h : Stands room c s) : c.size = s.length := by
  have hlength := h.perm_keys.length_eq
  rw [h.order, Shelf.ids, Dictionary.keys, List.length_map, List.length_map] at hlength
  exact hlength.symm

/-- The oldest entry is taken out of both. -/
theorem Stands.tail {e : String × Container} (h : Stands room c (e :: s)) :
    Stands room { c with entries := c.entries.erase e.1, order := s.ids } s := by
  obtain ⟨hnew, hdistinct⟩ := List.nodup_cons.1 h.distinct
  refine ⟨h.capacity, rfl, hdistinct, fun id => ?_⟩
  rw [Dictionary.get?_erase]
  by_cases hid : id = e.1
  · subst hid
    have hnone : s.lookup e.1 = none := by
      rw [← Option.not_isSome_iff_eq_none, Dictionary.isSome_lookup_iff]
      exact hnew
    rw [if_pos rfl, hnone, Option.map_none]
  · rw [if_neg hid, h.objects id, List.lookup_cons, beq_false_of_ne hid]

/-- What is left when the oldest entries have given way. The fuel lasts, as each turn takes one
entry away. -/
theorem stands_evict (h : Stands room c s) {fuel : Nat} (hfuel : s.length ≤ fuel) :
    Stands room (evict fuel c) (s.trim room) := by
  induction fuel generalizing c s with
  | zero =>
    rw [evict, Shelf.trim_of_length_le (Nat.le_trans hfuel (Nat.zero_le room))]
    exact h
  | succ fuel ih =>
    have hsize : c.size ≤ c.capacity ↔ s.length ≤ room := by rw [h.size, h.capacity]
    rw [evict]
    by_cases hfits : s.length ≤ room
    · rw [if_pos (hsize.2 hfits), Shelf.trim_of_length_le hfits]
      exact h
    · rw [if_neg (mt hsize.1 hfits), h.order]
      cases s with
      | nil => exact absurd (Nat.zero_le room) hfits
      | cons e s =>
        rw [Shelf.trim_cons_of_lt (Nat.lt_of_not_le hfits)]
        exact ih h.tail (Nat.le_of_succ_le_succ hfuel)

/-! ## Operations -/

/-- A cache holds what a shelf holds, on which there is room for all of it. -/
structure Holds (room : Nat) (c : ObjectCache) (s : Shelf) : Prop extends Stands room c s where
  fits : s.length ≤ room

theorem holds_new (capacity : Nat) : Holds (max capacity 1) (new capacity) [] :=
  ⟨⟨rfl, rfl, List.nodup_nil, fun _ => rfl⟩, Nat.zero_le _⟩

/-- Storing an object takes its id out of the queue, if it is there, and puts it at the end. -/
theorem holds_put (h : Holds room c s) (id : String) (object : Container) (now : Nat) :
    Holds room (c.put id object now) (s.put room id object) := by
  have hkept : (if c.entries.contains id then c.order.filter (· ≠ id) else c.order) =
      (s.without id).ids := by
    rw [h.order]
    split
    · exact (s.ids_without id).symm
    · rename_i hnew
      rw [Shelf.without_of_not_mem fun hmem => hnew (h.contains_iff.2 hmem)]
  have hstored : Stands room
      { c with
        entries := c.entries.insert id ⟨object, now⟩
        order := (s.without id).ids ++ [id] } (s.without id ++ [(id, object)]) := by
    refine ⟨h.capacity, ?_, Shelf.nodup_without_append h.distinct id object, fun k => ?_⟩
    · exact (Shelf.ids_append_singleton ..).symm
    · rw [Dictionary.get?_insert, Shelf.lookup_without_append, ← h.objects k]
      split <;> rfl
  have hfuel : (s.without id ++ [(id, object)]).length ≤ ((s.without id).ids ++ [id]).length := by
    rw [List.length_append, List.length_append, Shelf.ids, List.length_map]
    exact Nat.le_refl _
  rw [put, hkept]
  exact ⟨stands_evict hstored hfuel, Shelf.length_trim_le room _⟩

theorem holds_invalidate (h : Holds room c s) (id : String) :
    Holds room (c.invalidate id) (s.without id) := by
  have hfits : (s.without id).length ≤ room := Nat.le_trans (List.length_filter_le _ s) h.fits
  rw [invalidate]
  split
  · refine ⟨⟨h.capacity, ?_, Shelf.nodup_without h.distinct id, fun k => ?_⟩, hfits⟩
    · rw [h.order, Shelf.ids_without]
    · rw [Dictionary.get?_erase, Shelf.without, Dictionary.lookup_filter_ne, ← h.objects k]
      split <;> rfl
  · rename_i hnew
    rw [Shelf.without_of_not_mem fun hmem => hnew (h.contains_iff.2 hmem)]
    exact h

theorem holds_clear (h : Holds room c s) : Holds room c.clear [] :=
  ⟨⟨h.capacity, rfl, List.nodup_nil, fun _ => rfl⟩, Nat.zero_le _⟩

/-! ## Runs -/

/-- A use of a cache answers as it does on the shelf, and leaves what it leaves there. -/
theorem holds_perform (h : Holds room c s) (u : CacheUse) :
    (c.perform u).1 = (s.perform room u).1 ∧ Holds room (c.perform u).2 (s.perform room u).2 := by
  cases u with
  | put id object now => exact ⟨rfl, holds_put h id object now⟩
  | get id now => exact ⟨h.get? id now, h⟩
  | invalidate id => exact ⟨rfl, holds_invalidate h id⟩
  | clear => exact ⟨rfl, holds_clear h⟩

theorem holds_performUses (h : Holds room c s) (uses : List CacheUse) :
    (performUses perform c uses).1 = (performUses (Shelf.perform room) s uses).1 ∧
      Holds room (performUses perform c uses).2 (performUses (Shelf.perform room) s uses).2 := by
  induction uses generalizing c s with
  | nil => exact ⟨rfl, h⟩
  | cons u rest ih =>
    obtain ⟨hanswer, hnext⟩ := holds_perform h u
    obtain ⟨hanswers, hlast⟩ := ih hnext
    exact ⟨congrArg₂ List.cons hanswer hanswers, hlast⟩

/-- Whatever is done with a cache of some capacity, it answers and holds what a shelf does that
has room for so many objects, and for one at least: the ids stand in its queue in the order of
the shelf, each once and none without an entry; it finds every object of the shelf and no other;
and it finds an object that has just been stored. -/
theorem cache_is_shelf (capacity : Nat) (uses : List CacheUse) :
    let c := (performUses perform (new capacity) uses).2
    let s := (performUses (Shelf.perform (max capacity 1)) [] uses).2
    (performUses perform (new capacity) uses).1 =
        (performUses (Shelf.perform (max capacity 1)) [] uses).1 ∧
      s.ids.Nodup ∧ s.length ≤ max capacity 1 ∧
      c.order = s.ids ∧ c.order.Perm c.entries.keys ∧ c.size = s.length ∧
      (∀ id now, c.get? id none now = s.lookup id) ∧
      ∀ id object now later, (c.put id object now).get? id none later = some object := by
  intro c s
  obtain ⟨hanswers, h⟩ := holds_performUses (holds_new capacity) uses
  refine ⟨hanswers, h.distinct, h.fits, h.order, h.perm_keys, h.size, h.get?, ?_⟩
  intro id object now later
  rw [(holds_put h id object now).get? id later]
  exact Shelf.lookup_put_self (Nat.le_max_right capacity 1) s id object

end ObjectCache

end Mediatheque
