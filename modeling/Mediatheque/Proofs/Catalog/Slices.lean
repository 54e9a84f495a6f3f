import Mediatheque.Catalog.Basic
import Mediatheque.Proofs.Catalog.Offsets

/-!
# Following an id by byte positions

Changed fields find their node by a loop that keeps how many bytes of the id are matched, as
resolving does (`followAt`, `nodeAt`), but takes the first byte for a slash unseen. So its
first slice is a fault if the id is empty or starts with a longer character, and no other one
is (`nodeAt_eq_follow?`, `wayTo_ok_iff`).
-/

namespace Mediatheque

namespace Container

open ObjectId (normalize prefixesFrom)

/-! ## The loop -/

/-- Follows an id from a node, `matched` bytes of it being matched. -/
def followAt (id : List Char) (node : Container) (matched : Nat) :
    Except Fault (Option Container) :=
  match _ : bytesFrom id matched with
  | .error fault => .error fault
  | .ok rest =>
    match bytesTo id (stepEnd id rest matched) with
    | .error fault => .error fault
    | .ok step =>
      match node.child? (String.ofList step) with
      | none => .ok none
      | some child =>
        if stepEnd id rest matched = byteLength id then .ok (some child)
        else followAt id child (stepEnd id rest matched + 1)
termination_by byteLength id + 1 - matched
decreasing_by
  have hle := le_byteLength_of_bytesFrom ‹_›
  have := le_stepEnd rest hle
  omega

/-- The node with an id below a root, by the loop. A first byte is matched, whatever it is. -/
def nodeAt (root : Container) (id : String) : Except Fault (Option Container) :=
  if normalize id = "/" then .ok (some root) else followAt (normalize id).toList root 1

/-- A turn of the loop behind a beginning of the id, up to another. -/
theorem followAt_of_append {id done step rest : List Char} (hid : id = done ++ rest)
    (hend : stepEnd id rest (byteLength done) = byteLength step) (hstep : step <+: id)
    (node : Container) :
    followAt id node (byteLength done) =
      match node.child? (String.ofList step) with
      | none => .ok none
      | some child =>
        if byteLength step = byteLength id then .ok (some child)
        else followAt id child (byteLength step + 1) := by
  obtain ⟨t, ht⟩ := hstep
  have hrest : bytesFrom id (byteLength done) = .ok rest := by
    rw [hid, bytesFrom_byteLength]
  have hto : bytesTo id (byteLength step) = .ok step := by
    rw [← ht, bytesTo_byteLength]
  rw [followAt]
  split
  · rename_i hf
    rw [hrest] at hf
    cases hf
  · rename_i hf
    rw [hrest] at hf
    cases hf
    rw [hend, hto]

/-- The loop follows the path prefixes. -/
theorem followAt_eq_follow? {id : List Char} {node : Container} (done : List Char)
    {rest : List Char} (hid : id = done ++ rest) :
    followAt id node (byteLength done) =
      .ok (node.follow? ((prefixesFrom done rest).map String.ofList)) := by
  induction hn : rest.length using Nat.strongRecOn generalizing node done rest with
  | ind n ih =>
    by_cases hs : '/' ∈ rest
    · obtain ⟨s, t, rfl, hst⟩ := List.eq_append_cons_of_mem hs
      have hend := stepEnd_append_slash id done hst t
      have hid' : id = done ++ s ++ ['/'] ++ t := by simp [hid]
      have hne : byteLength (done ++ s) ≠ byteLength id := by
        rw [hid', byteLength_append _ t, byteLength_append_slash]
        omega
      rw [followAt_of_append hid hend ⟨'/' :: t, by simp [hid]⟩,
        ObjectId.prefixesFrom_append_slash, ObjectId.prefixesFrom_of_not_mem hst,
        List.singleton_append, List.map_cons, follow?]
      cases node.child? (String.ofList (done ++ s)) with
      | none => rfl
      | some child =>
        simp only [← byteLength_append_slash, hne, if_false]
        refine ih _ ?_ _ hid' rfl
        rw [← hn, List.length_append, List.length_cons]
        omega
    · -- The last step ends with the id.
      have hend := stepEnd_of_not_mem id hs (byteLength done)
      rw [followAt_of_append hid hend List.prefix_rfl, ObjectId.prefixesFrom_of_not_mem hs,
        ← hid, List.map_singleton, follow?]
      cases node.child? (String.ofList id) with
      | none => rfl
      | some child => simp only [if_true, bind, Option.bind, follow?]

/-- The first slice is behind a byte. -/
theorem followAt_of_error {id : List Char} {fault : Fault} (h : bytesFrom id 1 = .error fault)
    (node : Container) : followAt id node 1 = .error fault := by
  rw [followAt]
  split
  · rename_i hf
    rw [h] at hf
    cases hf
    rfl
  · rename_i hf
    rw [h] at hf
    cases hf

/-- The loop goes the way of the id, and meets the faults of that way. -/
theorem nodeAt_eq_follow? (root : Container) (id : String) :
    root.nodeAt id = root.follow? <$> Catalog.wayTo (normalize id).toList := by
  unfold nodeAt
  by_cases hroot : normalize id = "/"
  · rw [if_pos hroot, hroot]
    rfl
  · rw [if_neg hroot]
    cases hn : (normalize id).toList with
    | nil => exact followAt_of_error rfl root
    | cons c rest =>
      have hne : c :: rest ≠ ['/'] := fun he => hroot (String.toList_inj.1 (hn.trans he))
      rw [Catalog.wayTo, if_neg hne]
      by_cases hc : c.utf8Size = 1
      · have hlen : byteLength [c] = 1 := hc
        rw [if_pos hc, ObjectId.prefixes, ← hlen]
        exact followAt_eq_follow? [c] rfl
      · have hpos := c.utf8Size_pos
        have hslice : bytesFrom (c :: rest) 1 = .error .insideCharacter := by
          rw [bytesFrom, if_neg (by omega)]
        rw [if_neg hc]
        exact followAt_of_error hslice root

end Container

namespace Catalog

/-! ## Faults -/

/-- Whether an id can be sliced behind its first byte. -/
def Sliceable (id : String) : Prop := ∃ c, id.toList.head? = some c ∧ c.utf8Size = 1

theorem sliceable_of_slash {id : String} (h : id.toList.head? = some '/') : Sliceable id :=
  ⟨'/', h, rfl⟩

/-- There is a way to an id if it can be sliced behind its first byte, and only then. -/
theorem wayTo_ok_iff (id : String) :
    (∃ way, wayTo (ObjectId.normalize id).toList = .ok way) ↔ Sliceable id := by
  have hhead : (ObjectId.normalize id).toList.head? = id.toList.head? := by
    rw [ObjectId.normalize, String.toList_ofList, ObjectId.head?_normalizeChars]
  rw [Sliceable, ← hhead]
  cases (ObjectId.normalize id).toList with
  | nil => simp [wayTo]
  | cons c rest =>
    rw [wayTo, List.head?_cons]
    split
    · rename_i hroot
      cases hroot
      exact iff_of_true ⟨[], rfl⟩ ⟨'/', rfl, rfl⟩
    · split
      · exact iff_of_true ⟨_, rfl⟩ ⟨c, rfl, ‹_›⟩
      · rename_i hc
        refine iff_of_false ?_ ?_
        · rintro ⟨_, hway⟩
          cases hway
        · rintro ⟨_, hs, hone⟩
          cases hs
          exact hc hone

/-- Changed fields meet a fault on the way to their node, and nowhere else. -/
theorem merge_ok_iff (c : Catalog) (id : String) (fields : Dictionary Json) :
    (∃ r, c.merge id fields = .ok r) ↔ Sliceable id := by
  rw [← wayTo_ok_iff, merge]
  refine Fault.bind_ok_iff fun way => ?_
  cases c.root.follow? way with
  | none => exact ⟨_, rfl⟩
  | some node =>
    dsimp only
    split <;> exact ⟨_, rfl⟩

/-- The loop that finds the node meets the faults of changed fields. -/
theorem nodeAt_ok_iff (root : Container) (id : String) :
    (∃ node?, root.nodeAt id = .ok node?) ↔ Sliceable id := by
  rw [← wayTo_ok_iff, Container.nodeAt_eq_follow?]
  simp only [Fault.map_eq_ok_iff]
  constructor
  · rintro ⟨_, way, hway, -⟩
    exact ⟨way, hway⟩
  · rintro ⟨way, hway⟩
    exact ⟨_, way, hway, rfl⟩

end Catalog

end Mediatheque
