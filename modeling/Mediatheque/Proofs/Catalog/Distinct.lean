import Mathlib.Data.List.Induction
import Mathlib.Data.List.Perm.Basic
import Mediatheque.Proofs.Catalog.Listing

/-!
# Distinct ids of the top-level containers

Adding a container puts it in the place of the one with its id, whereas asking for the
container of a class goes by the class alone: where no container has the class, a new one is
put in, and its id may be taken already (`Collides`). So, with distinct ids before a call:

* `nodup_perform_iff`: the ids are distinct after the call unless it collides;
* `nodup_performAll_iff`: they are so throughout a sequence of calls if none collides, and
  only then.

The calls that do not ask for a class keep the ids distinct by themselves (`nodup_add`,
`nodup_delete`, `perm_ids_merge`).
-/

namespace Mediatheque

namespace Catalog

open Container (heading)

/-- The ids of the top-level containers, in the order of the listing. -/
def ids (c : Catalog) : List String := c.children.map (·.id)

/-- A call puts in a new container beside one that has its id: the container of a class is
asked for that no top-level container has, and one has the id that the new one gets. -/
def Collides (c : Catalog) : Change → Prop
  | .ensure mediaClass _ =>
    (∀ node ∈ c.children, node.mediaClass ≠ mediaClass) ∧
      (Container.ofRootClass mediaClass).id ∈ c.ids
  | _ => False

/-! ## The ids after a call -/

theorem perm_ids_insertChild (c : Catalog) (x : Container) :
    (c.insertChild x).1.ids.Perm (x.id :: c.ids) := by
  have hp := List.perm_insertIdx x c.children (insertPosition_le x c.children)
  exact hp.map (·.id)

/-- A new container leaves the ids distinct if none had its id. -/
theorem nodup_insertChild_iff {c : Catalog} (h : c.ids.Nodup) (x : Container) :
    (c.insertChild x).1.ids.Nodup ↔ x.id ∉ c.ids := by
  rw [(perm_ids_insertChild c x).nodup_iff, List.nodup_cons, and_iff_left h]

/-- What is deleted is gone, and the other ids stay distinct. -/
theorem nodup_delete {c : Catalog} (h : c.ids.Nodup) (id : String) :
    (c.delete id).1.ids.Nodup ∧ id ∉ (c.delete id).1.ids := by
  rcases delete_cases c id with ⟨hi, hd⟩ | ⟨position, node, -, hnode, hid, hd⟩
  · rw [hd]
    refine ⟨h, fun hm => ?_⟩
    obtain ⟨node, hn, hid⟩ := List.mem_map.1 hm
    have hne := List.findIdx?_eq_none_iff.1 hi node hn
    simp [hid] at hne
  · have hids : (c.delete id).1.ids = c.ids.eraseIdx position := by
      rw [hd]
      exact (List.eraseIdx_map ..).symm
    have hat : c.ids[position]? = some id := by
      rw [ids, List.getElem?_map, hnode, Option.map_some, hid]
    rw [hids]
    exact ⟨h.eraseIdx position, not_mem_eraseIdx h hat⟩

theorem nodup_add {c : Catalog} (h : c.ids.Nodup) (x : Container) : (c.add x).1.ids.Nodup := by
  obtain ⟨hrest, hx⟩ := nodup_delete h x.id
  rw [add_eq_insertChild]
  exact (nodup_insertChild_iff hrest x).2 hx

/-- Changed fields move one top-level container at most, and leave all ids. -/
theorem perm_ids_merge {c c' : Catalog} {id : String} {fields : Dictionary Json} {m : Merge}
    (h : c.merge id fields = .ok (c', m)) : c'.ids.Perm c.ids := by
  rcases merge_cases h with
    ⟨rfl, -⟩ | ⟨root, hm, ⟨-, rfl, -⟩ | ⟨source, node, -, hat, -, rfl, -⟩⟩
  · exact List.Perm.refl _
  · exact List.Perm.of_eq hm.ids_eq
  · obtain ⟨hlt, rfl⟩ := List.getElem?_eq_some_iff.1 hat
    have hput := List.perm_insertIdx root.children[source] (root.children.eraseIdx source)
      (insertPosition_le root.children[source] _)
    have hmoved := hput.trans (List.getElem_cons_eraseIdx_perm hlt)
    exact (hmoved.map (·.id)).trans (List.Perm.of_eq hm.ids_eq)

/-- A container that keeps its heading keeps its id. -/
theorem ids_modifyChild (c : Catalog) (position : Nat) {touch : Container → Container}
    (ht : ∀ node, heading (touch node) = heading node) :
    (c.modifyChild position touch).ids = c.ids :=
  map_modify_of_eq fun node _ => (Container.heading_eq_iff.1 (ht node)).1

/-- Asking for the container of a class leaves the ids distinct unless it collides. -/
theorem nodup_ensure_iff {c : Catalog} (h : c.ids.Nodup) (k : MediaClass)
    (touch : Container → Container) :
    (c.ensure k).1.ids.Nodup ↔ ¬ c.Collides (.ensure k touch) := by
  cases hf : c.children.findIdx? (·.mediaClass = k) with
  | some position =>
    have hsame : (c.ensure k).1 = c := by rw [ensure, hf]
    obtain ⟨hlt, hk, -⟩ := List.findIdx?_eq_some_iff_getElem.1 hf
    rw [hsame]
    refine iff_of_true h fun hc => hc.1 _ (List.getElem_mem hlt) ?_
    simpa using hk
  | none =>
    have hnew : (c.ensure k).1 = (c.insertChild (.ofRootClass k)).1 := by rw [ensure, hf]
    have hfresh : ∀ node ∈ c.children, node.mediaClass ≠ k := fun node hn => by
      simpa using List.findIdx?_eq_none_iff.1 hf node hn
    rw [hnew, nodup_insertChild_iff h]
    exact not_congr (and_iff_right hfresh).symm

/-! ## Calls -/

/-- After a call the ids are distinct unless it collides. -/
theorem nodup_perform_iff {c c' : Catalog} {change : Change} {reply : Reply} (h : c.ids.Nodup)
    (hk : change.Keeps) (hp : c.perform change = .ok (c', reply)) :
    c'.ids.Nodup ↔ ¬ c.Collides change := by
  cases change with
  | ensure k touch =>
    cases hp
    rw [ids_modifyChild _ _ hk]
    exact nodup_ensure_iff h k touch
  | add x =>
    cases hp
    exact iff_of_true (nodup_add h x) not_false
  | delete id =>
    cases hp
    exact iff_of_true (nodup_delete h id).1 not_false
  | merge id fields =>
    obtain ⟨m, hm, -⟩ := perform_merge_eq_ok hp
    exact iff_of_true ((perm_ids_merge hm).nodup_iff.2 h) not_false

/-- A call that collides is answered, as every call for the container of a class is. -/
theorem perform_of_collides {c : Catalog} {change : Change} (h : c.Collides change) :
    ∃ r, c.perform change = .ok r := by
  cases change with
  | ensure k touch => exact ⟨_, rfl⟩
  | _ => exact h.elim

/-- The last of several calls starts where the ones before it have led. -/
theorem performAll_append_singleton_eq_ok_iff {c c' : Catalog} {changes : List Change}
    {change : Change} :
    c.performAll (changes ++ [change]) = .ok c' ↔
      ∃ c₁ reply, c.performAll changes = .ok c₁ ∧ c₁.perform change = .ok (c', reply) := by
  simp only [performAll, List.foldlM_append, List.foldlM_cons, List.foldlM_nil, bind_pure,
    Fault.bind_eq_ok_iff, Fault.map_eq_ok_iff]
  constructor
  · rintro ⟨c₁, hc₁, ⟨c₂, reply⟩, hp, rfl⟩
    exact ⟨c₁, reply, hc₁, hp⟩
  · rintro ⟨c₁, reply, hc₁, hp⟩
    exact ⟨c₁, hc₁, (c', reply), hp, rfl⟩

/-- The ids of the top-level containers are distinct after all calls of a sequence, taken from
its start, if none of them collides, and only then. -/
theorem nodup_performAll_iff {changes : List Change} (hk : ∀ change ∈ changes, change.Keeps) :
    (∀ done c, done <+: changes → empty.performAll done = .ok c → c.ids.Nodup) ↔
      ∀ done change c, done ++ [change] <+: changes → empty.performAll done = .ok c →
        ¬ c.Collides change := by
  constructor
  · intro hids done change c hdone hc hcol
    have hbefore := hids done c ((List.prefix_append _ _).trans hdone) hc
    obtain ⟨⟨c', reply⟩, hp⟩ := perform_of_collides hcol
    have hrun : empty.performAll (done ++ [change]) = .ok c' :=
      performAll_append_singleton_eq_ok_iff.2 ⟨c, reply, hc, hp⟩
    have hkeeps := hk change (hdone.subset (by simp))
    exact (nodup_perform_iff hbefore hkeeps hp).1 (hids _ c' hdone hrun) hcol
  · intro hfree done
    -- The invariant is carried from the start of the sequence, one call at a time.
    induction done using List.reverseRecOn with
    | nil =>
      intro c _ hc
      cases hc
      exact List.nodup_nil
    | append_singleton done change ih =>
      intro c hdone hc
      obtain ⟨c₁, reply, hc₁, hp⟩ := performAll_append_singleton_eq_ok_iff.1 hc
      have hbefore := ih c₁ ((List.prefix_append _ _).trans hdone) hc₁
      have hkeeps := hk change (hdone.subset (by simp))
      exact (nodup_perform_iff hbefore hkeeps hp).2 (hfree done change c₁ hdone hc₁)

/-- Adding a container in the place of one that was asked for keeps the ids distinct, and so
does asking for another after that. -/
theorem nodup_performAll_replaced :
    ∃ c, empty.performAll [.ensure .rootSongs id, .add (.new "/songs" "Mine" .directory),
        .ensure .rootLibrary id] = .ok c ∧ c.ids = ["/library", "/songs"] ∧ c.ids.Nodup := by
  have hkeeps : ∀ change ∈ [Change.ensure .rootSongs id,
      .add (.new "/songs" "Mine" .directory), .ensure .rootLibrary id], change.Keeps := by
    simp [Change.Keeps]
  refine ⟨_, rfl, rfl, (nodup_performAll_iff hkeeps).2 ?_ _ _ List.prefix_rfl rfl⟩
  rintro done change c ⟨after, hafter⟩ hc hcol
  rcases done with _ | ⟨first, _ | ⟨second, _ | ⟨third, done⟩⟩⟩
  · cases hafter
    cases hc
    exact absurd hcol.2 (by decide)
  · cases hafter
    exact hcol
  · cases hafter
    cases hc
    exact absurd hcol.2 (by decide)
  · simp at hafter

/-- A container of some other class has the id that the one for songs gets. -/
theorem not_nodup_ids_ensure :
    ¬ ∀ changes c, (∀ change ∈ changes, change.Keeps) → empty.performAll changes = .ok c →
      c.ids.Nodup := by
  intro h
  have hids := h [.add (.new "/songs" "Mine" .directory), .ensure .rootSongs id] _
    (by simp [Change.Keeps]) rfl
  revert hids
  decide

end Catalog

end Mediatheque
