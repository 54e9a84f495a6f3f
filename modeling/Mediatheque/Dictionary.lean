/-!
# Dictionaries

Finite maps from text to values, kept in ascending order of their keys, so
that two dictionaries with the same entries are equal and are printed alike.
Field maps of an object, the sections of the settings file and the schemas of
the contexts are dictionaries.

* `Dictionary.get?_insert`: what a look-up finds after an insertion;
* `Dictionary.get?_erase`: what a look-up finds after a removal;
* `Dictionary.ofList_entries`: a dictionary is the dictionary of its entries.
-/

namespace Mediatheque

/-- A finite map from text to values, as the list of its entries in ascending
order of their keys. -/
structure Dictionary (α : Type) where
  entries : List (String × α)
  sorted : entries.Pairwise fun a b => a.1 < b.1

namespace Dictionary

variable {α β : Type}

theorem ext {d e : Dictionary α} (h : d.entries = e.entries) : d = e := by
  cases d; cases e; simp_all

instance [DecidableEq α] : DecidableEq (Dictionary α) := fun d e =>
  decidable_of_iff (d.entries = e.entries) ⟨ext, fun h => h ▸ rfl⟩

/-- The dictionary without entries. -/
def empty : Dictionary α := ⟨[], .nil⟩

instance : EmptyCollection (Dictionary α) := ⟨empty⟩

instance : Inhabited (Dictionary α) := ⟨empty⟩

def isEmpty (d : Dictionary α) : Bool := d.entries.isEmpty

def keys (d : Dictionary α) : List String := d.entries.map (·.1)

/-- The value under a key. -/
def get? (d : Dictionary α) (key : String) : Option α := d.entries.lookup key

def contains (d : Dictionary α) (key : String) : Bool := (d.get? key).isSome

theorem isSome_lookup_iff {l : List (String × α)} {key : String} :
    (l.lookup key).isSome ↔ key ∈ l.map (·.1) := by
  rw [List.lookup_isSome_iff, List.mem_map]
  constructor
  · rintro ⟨e, he, hkey⟩
    exact ⟨e, he, (eq_of_beq hkey).symm⟩
  · rintro ⟨e, he, rfl⟩
    exact ⟨e, he, beq_self_eq_true e.1⟩

theorem contains_iff {d : Dictionary α} {key : String} : d.contains key ↔ key ∈ d.keys :=
  isSome_lookup_iff

/-- No key of a dictionary stands twice in it. -/
theorem nodup_keys (d : Dictionary α) : d.keys.Nodup :=
  List.pairwise_map.2 (d.sorted.imp fun h => String.ne_of_lt h)

/-! ## Insertion -/

/-- The entries with `key` set to `value`, at the place its order gives it. -/
def insertEntry (key : String) (value : α) : List (String × α) → List (String × α)
  | [] => [(key, value)]
  | e :: rest =>
    if key < e.1 then (key, value) :: e :: rest
    else if key = e.1 then (key, value) :: rest
    else e :: insertEntry key value rest

theorem mem_insertEntry {key : String} {value : α} {l : List (String × α)} {e : String × α}
    (h : e ∈ insertEntry key value l) : e = (key, value) ∨ e ∈ l := by
  induction l with
  | nil => simpa [insertEntry] using h
  | cons x rest ih =>
    rw [insertEntry] at h
    split at h
    · simpa using h
    · split at h
      · rcases List.mem_cons.1 h with h | h
        · exact .inl h
        · exact .inr (List.mem_cons_of_mem _ h)
      · rcases List.mem_cons.1 h with h | h
        · exact .inr (h ▸ List.mem_cons_self)
        · exact (ih h).imp_right (List.mem_cons_of_mem _)

theorem sorted_insertEntry (key : String) (value : α) {l : List (String × α)}
    (h : l.Pairwise fun a b => a.1 < b.1) :
    (insertEntry key value l).Pairwise fun a b => a.1 < b.1 := by
  induction l with
  | nil => simp [insertEntry]
  | cons x rest ih =>
    obtain ⟨hx, hrest⟩ := List.pairwise_cons.1 h
    rw [insertEntry]
    split
    next hlt =>
      refine List.pairwise_cons.2 ⟨fun e he => ?_, h⟩
      rcases List.mem_cons.1 he with rfl | he
      · exact hlt
      · exact String.lt_trans hlt (hx e he)
    next hlt =>
      split
      next heq => exact List.pairwise_cons.2 ⟨fun e he => heq ▸ hx e he, hrest⟩
      next hne =>
        refine List.pairwise_cons.2 ⟨fun e he => ?_, ih hrest⟩
        rcases mem_insertEntry he with rfl | he
        · grind
        · exact hx e he

/-- Sets the value under a key, which replaces the value it had. -/
def insert (d : Dictionary α) (key : String) (value : α) : Dictionary α :=
  ⟨insertEntry key value d.entries, sorted_insertEntry key value d.sorted⟩

theorem lookup_insertEntry (key : String) (value : α) (l : List (String × α)) (k : String) :
    (insertEntry key value l).lookup k = if k = key then some value else l.lookup k := by
  induction l with
  | nil =>
    by_cases h : k = key
    · simp [insertEntry, h]
    · simp [insertEntry, List.lookup_cons, h, beq_false_of_ne h]
  | cons x rest ih =>
    obtain ⟨xk, xv⟩ := x
    rw [insertEntry]
    split
    · simp [List.lookup_cons, Bool.beq_eq_decide_eq]
      split <;> simp_all
    · split
      next heq =>
        subst heq
        by_cases hk : k = key <;> simp [List.lookup_cons, hk, beq_false_of_ne]
      next hne =>
        by_cases hx : k = xk
        · subst hx
          simp [Ne.symm hne]
        · simp [List.lookup_cons, beq_false_of_ne hx, ih]

/-- A look-up finds the value just inserted, and any other key as before. -/
theorem get?_insert (d : Dictionary α) (key : String) (value : α) (k : String) :
    (d.insert key value).get? k = if k = key then some value else d.get? k :=
  lookup_insertEntry key value d.entries k

/-- A value that stands under a key already is not inserted again. -/
theorem insertEntry_of_lookup {key : String} {value : α} {l : List (String × α)}
    (hsorted : l.Pairwise fun a b => a.1 < b.1) (h : l.lookup key = some value) :
    insertEntry key value l = l := by
  induction l with
  | nil => cases h
  | cons x rest ih =>
    obtain ⟨xk, xv⟩ := x
    obtain ⟨hx, hrest⟩ := List.pairwise_cons.1 hsorted
    rw [List.lookup_cons] at h
    by_cases hk : key = xk
    · rw [hk, beq_self_eq_true] at h
      obtain rfl := Option.some.inj h
      rw [insertEntry, hk, if_neg (String.lt_irrefl xk), if_pos rfl]
    · rw [beq_false_of_ne hk] at h
      have hmem := isSome_lookup_iff.1 (Option.isSome_of_eq_some h)
      obtain ⟨e, he, hkey⟩ := List.mem_map.1 hmem
      have hlt : xk < key := hkey ▸ hx e he
      rw [insertEntry, if_neg (String.lt_asymm hlt), if_neg hk, ih hrest h]

theorem insert_of_get? {d : Dictionary α} {key : String} {value : α}
    (h : d.get? key = some value) : d.insert key value = d :=
  ext (insertEntry_of_lookup d.sorted h)

/-- Sets every pair of a list in turn: of two pairs with one key the later wins. -/
def insertMany (d : Dictionary α) (pairs : List (String × α)) : Dictionary α :=
  pairs.foldl (fun d p => d.insert p.1 p.2) d

/-- The dictionary of a list of pairs: of two pairs with one key the later wins. -/
def ofList (pairs : List (String × α)) : Dictionary α := empty.insertMany pairs

/-! ## Removal and change of values -/

/-- Removes a key. -/
def erase (d : Dictionary α) (key : String) : Dictionary α :=
  ⟨d.entries.filter (·.1 ≠ key), d.sorted.filter _⟩

/-- Among the pairs that are left when a key is removed, a look-up finds nothing under that key,
and any other key as before. -/
theorem lookup_filter_ne (key : String) (l : List (String × α)) (k : String) :
    (l.filter (·.1 ≠ key)).lookup k = if k = key then none else l.lookup k := by
  induction l with
  | nil => simp
  | cons x rest ih =>
    obtain ⟨xk, xv⟩ := x
    rw [List.filter_cons, List.lookup_cons]
    by_cases hx : xk = key
    · rw [if_neg (by simpa using hx), ih]
      by_cases hk : k = key
      · simp [hk]
      · simp [hk, beq_false_of_ne (hx ▸ hk : k ≠ xk)]
    · rw [if_pos (by simpa using hx), List.lookup_cons, ih]
      by_cases hk : k = xk
      · simp [hk, hx]
      · simp [beq_false_of_ne hk]

/-- A look-up finds nothing under a removed key, and any other key as before. -/
theorem get?_erase (d : Dictionary α) (key k : String) :
    (d.erase key).get? k = if k = key then none else d.get? k :=
  lookup_filter_ne key d.entries k

@[simp] theorem entries_empty : (empty : Dictionary α).entries = [] := rfl

@[simp] theorem get?_empty (k : String) : (empty : Dictionary α).get? k = none := rfl

/-! ## Equality of dictionaries -/

theorem insertEntry_of_all_lt {key : String} {value : α} {l : List (String × α)}
    (h : ∀ e ∈ l, e.1 < key) : insertEntry key value l = l ++ [(key, value)] := by
  induction l with
  | nil => rfl
  | cons x rest ih =>
    have hx := h x List.mem_cons_self
    rw [insertEntry, if_neg (String.lt_asymm hx), if_neg (fun e => String.lt_irrefl _ (e ▸ hx)),
      ih fun e he => h e (List.mem_cons_of_mem _ he)]
    rfl

theorem entries_insertMany_of_sorted (l : List (String × α)) (d : Dictionary α)
    (h : (d.entries ++ l).Pairwise fun a b => a.1 < b.1) :
    (d.insertMany l).entries = d.entries ++ l := by
  induction l generalizing d with
  | nil => simp [insertMany]
  | cons x rest ih =>
    have hx : (d.insert x.1 x.2).entries = d.entries ++ [x] :=
      insertEntry_of_all_lt fun e he =>
        (List.pairwise_append.1 h).2.2 e he x List.mem_cons_self
    have := ih (d.insert x.1 x.2) (by rw [hx]; simpa using h)
    rw [hx] at this
    simpa [insertMany] using this

/-- A dictionary is the dictionary of its entries. -/
theorem ofList_entries (d : Dictionary α) : ofList d.entries = d := by
  have hsorted := entries_insertMany_of_sorted d.entries empty (by simpa using d.sorted)
  exact ext (by simpa [ofList] using hsorted)

end Dictionary

end Mediatheque
