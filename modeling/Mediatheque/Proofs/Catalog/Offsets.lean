import Mediatheque.Fault
import Mediatheque.Proofs.Catalog.Walk

/-!
# Walking by byte positions

The walk to an id as a loop that keeps how many bytes of the id are matched, and slices the
id at such positions (`walkAt`, `resolveAt`). A slice is a fault if the position is beyond
the end of the text or inside a character. The loop ends because every turn matches more
bytes, and it meets no fault, because the positions are those behind path prefixes
(`walkAt_eq_walk`). So it finds what the walk along the path prefixes does
(`resolveAt_eq_resolve`).
-/

namespace Mediatheque

namespace Container

open ObjectId (normalize normalizeChars prefixesFrom IsTrimmed)

/-! ## Slices -/

/-- The number of bytes of a text. -/
def byteLength : List Char → Nat
  | [] => 0
  | c :: rest => c.utf8Size + byteLength rest

/-- What stands behind a number of bytes of a text. -/
def bytesFrom : List Char → Nat → Except Fault (List Char)
  | text, 0 => .ok text
  | [], _ + 1 => .error .outOfRange
  | c :: rest, n + 1 =>
    if c.utf8Size ≤ n + 1 then bytesFrom rest (n + 1 - c.utf8Size)
    else .error .insideCharacter

/-- The first bytes of a text. -/
def bytesTo : List Char → Nat → Except Fault (List Char)
  | _, 0 => .ok []
  | [], _ + 1 => .error .outOfRange
  | c :: rest, n + 1 =>
    if c.utf8Size ≤ n + 1 then (c :: ·) <$> bytesTo rest (n + 1 - c.utf8Size)
    else .error .insideCharacter

/-- How many bytes stand before the first slash of a text. -/
def slashAt? : List Char → Option Nat
  | [] => none
  | c :: rest => if c = '/' then some 0 else (slashAt? rest).map (c.utf8Size + ·)

theorem byteLength_cons (c : Char) (rest : List Char) :
    byteLength (c :: rest) = c.utf8Size + byteLength rest := rfl

theorem byteLength_append (s t : List Char) :
    byteLength (s ++ t) = byteLength s + byteLength t := by
  induction s with
  | nil => rw [List.nil_append, byteLength, Nat.zero_add]
  | cons c s ih => rw [List.cons_append, byteLength_cons, byteLength_cons, ih, Nat.add_assoc]

theorem bytesFrom_byteLength (s t : List Char) : bytesFrom (s ++ t) (byteLength s) = .ok t := by
  induction s with
  | nil => cases t <;> rfl
  | cons c s ih =>
    have hc := c.utf8Size_pos
    rw [List.cons_append, show byteLength (c :: s) = (c.utf8Size + byteLength s - 1) + 1 by
      rw [byteLength_cons]; omega, bytesFrom, if_pos (by omega),
      show c.utf8Size + byteLength s - 1 + 1 - c.utf8Size = byteLength s by omega, ih]

theorem bytesTo_byteLength (s t : List Char) : bytesTo (s ++ t) (byteLength s) = .ok s := by
  induction s with
  | nil => cases t <;> rfl
  | cons c s ih =>
    have hc := c.utf8Size_pos
    rw [List.cons_append, show byteLength (c :: s) = (c.utf8Size + byteLength s - 1) + 1 by
      rw [byteLength_cons]; omega, bytesTo, if_pos (by omega),
      show c.utf8Size + byteLength s - 1 + 1 - c.utf8Size = byteLength s by omega, ih]
    rfl

/-- There is nothing behind more bytes than a text has. -/
theorem le_byteLength_of_bytesFrom {text rest : List Char} {n : Nat}
    (h : bytesFrom text n = .ok rest) : n ≤ byteLength text := by
  induction text generalizing n with
  | nil =>
    cases n with
    | zero => exact Nat.zero_le _
    | succ n => cases h
  | cons c text ih =>
    cases n with
    | zero => exact Nat.zero_le _
    | succ n =>
      rw [bytesFrom] at h
      split at h
      · have := ih h
        rw [byteLength_cons]
        omega
      · cases h

theorem slashAt?_eq_none {text : List Char} (h : '/' ∉ text) : slashAt? text = none := by
  induction text with
  | nil => rfl
  | cons c text ih =>
    obtain ⟨hc, ht⟩ := not_or.1 (mt List.mem_cons.2 h)
    rw [slashAt?, if_neg (Ne.symm hc), ih ht, Option.map_none]

theorem slashAt?_append {s : List Char} (h : '/' ∉ s) (t : List Char) :
    slashAt? (s ++ '/' :: t) = some (byteLength s) := by
  induction s with
  | nil => rfl
  | cons c s ih =>
    obtain ⟨hc, hs⟩ := not_or.1 (mt List.mem_cons.2 h)
    rw [List.cons_append, slashAt?, if_neg (Ne.symm hc), ih hs, byteLength_cons, Option.map_some]

/-! ## The loop -/

/-- Where the step ends that starts behind the matched bytes of an id: before the next
slash, or with the id. -/
def stepEnd (id rest : List Char) (matched : Nat) : Nat :=
  match slashAt? rest with
  | some n => matched + n
  | none => byteLength id

theorem le_stepEnd {id : List Char} (rest : List Char) {matched : Nat}
    (h : matched ≤ byteLength id) : matched ≤ stepEnd id rest matched := by
  unfold stepEnd
  split <;> omega

/-- A step behind a beginning of the id ends before the next slash. -/
theorem stepEnd_append_slash (id done : List Char) {s : List Char} (h : '/' ∉ s) (t : List Char) :
    stepEnd id (s ++ '/' :: t) (byteLength done) = byteLength (done ++ s) := by
  rw [stepEnd, slashAt?_append h, byteLength_append]

/-- The last step ends with the id. -/
theorem stepEnd_of_not_mem (id : List Char) {rest : List Char} (h : '/' ∉ rest) (matched : Nat) :
    stepEnd id rest matched = byteLength id := by
  rw [stepEnd, slashAt?_eq_none h]

theorem byteLength_append_slash (s : List Char) :
    byteLength (s ++ ['/']) = byteLength s + 1 := by
  rw [byteLength_append]
  rfl

/-- Walks from a node, `matched` bytes of the id being matched. -/
def walkAt (id : String) (node : Container) (matched : Nat) : Except Fault Resolution :=
  match node.backend with
  | some backend => .ok (.delegated backend node (node.id = id))
  | none =>
    if node.id = id then .ok (.served node)
    else
      match _ : bytesFrom id.toList matched with
      | .error fault => .error fault
      | .ok rest =>
        match bytesTo id.toList (stepEnd id.toList rest matched) with
        | .error fault => .error fault
        | .ok step =>
          match node.child? (String.ofList step) with
          | none => .ok .missing
          | some child =>
            if byteLength id.toList < stepEnd id.toList rest matched + 1 ∧ child.id ≠ id then
              .ok .missing
            else walkAt id child (stepEnd id.toList rest matched + 1)
termination_by byteLength id.toList + 1 - matched
decreasing_by
  have hle := le_byteLength_of_bytesFrom ‹_›
  have := le_stepEnd rest hle
  omega

/-- Who answers for an id below a root, by the loop. The slash of the root is matched. -/
def resolveAt (root : Container) (id : String) : Except Fault Resolution :=
  if (normalize id).toList.head? = some '/' then walkAt (normalize id) root 1 else .ok .missing

theorem walkAt_of_answerAt {id : String} {node : Container} {r : Resolution}
    (h : answerAt id node = some r) (matched : Nat) : walkAt id node matched = .ok r := by
  unfold walkAt
  cases hb : node.backend with
  | some backend =>
    rw [answerAt_of_some hb] at h
    cases h
    rfl
  | none =>
    rw [answerAt_of_none hb] at h
    by_cases hid : node.id = id
    · rw [if_pos hid] at h
      cases h
      simp only [hid, if_true]
    · rw [if_neg hid] at h
      cases h

/-- A turn of the loop behind a beginning of the id, up to another. -/
theorem walkAt_of_none {id : String} {node : Container} (h : answerAt id node = none)
    {done step rest : List Char} (hid : id.toList = done ++ rest)
    (hend : stepEnd id.toList rest (byteLength done) = byteLength step)
    (hstep : step <+: id.toList) :
    walkAt id node (byteLength done) =
      match node.child? (String.ofList step) with
      | none => .ok .missing
      | some child =>
        if byteLength id.toList < byteLength step + 1 ∧ child.id ≠ id then .ok .missing
        else walkAt id child (byteLength step + 1) := by
  obtain ⟨hb, hne⟩ := answerAt_eq_none_iff.1 h
  obtain ⟨t, ht⟩ := hstep
  have hrest : bytesFrom id.toList (byteLength done) = .ok rest := by
    rw [hid, bytesFrom_byteLength]
  have hto : bytesTo id.toList (byteLength step) = .ok step := by
    rw [← ht, bytesTo_byteLength]
  rw [walkAt, hb]
  simp only [hne, if_false]
  split
  · rename_i hf
    rw [hrest] at hf
    cases hf
  · rename_i hf
    rw [hrest] at hf
    cases hf
    rw [hend, hto]

/-- The last step of the loop ends with the id, which the child has. -/
theorem walkAt_of_not_mem {id : String} {node : Container} {done rest : List Char}
    (ha : answerAt id node = none) (hid : id.toList = done ++ rest) (hrest : '/' ∉ rest) :
    walkAt id node (byteLength done) = .ok (node.walk id [id]) := by
  rw [walkAt_of_none ha hid (stepEnd_of_not_mem _ hrest _) List.prefix_rfl,
    walk_cons_of_none ha, String.ofList_toList]
  cases hc : node.child? id with
  | none => rfl
  | some child =>
    have hchild : child.id = id := by simpa using List.find?_some hc
    simp only [hchild, ne_eq, not_true_eq_false, and_false, if_false]
    cases hr : answerAt id child with
    | some r => rw [walkAt_of_answerAt hr, walk_of_answerAt hr]
    | none => exact absurd hchild (answerAt_eq_none_iff.1 hr).2

/-- The loop does what the walk along the path prefixes does. -/
theorem walkAt_eq_walk {id : String} {node : Container} (done : List Char) {rest : List Char}
    (hid : id.toList = done ++ rest) :
    walkAt id node (byteLength done) =
      .ok (node.walk id ((prefixesFrom done rest).map String.ofList)) := by
  induction hn : rest.length using Nat.strongRecOn generalizing node done rest with
  | ind n ih =>
    cases ha : answerAt id node with
    | some r => rw [walkAt_of_answerAt ha, walk_of_answerAt ha]
    | none =>
      by_cases hs : '/' ∈ rest
      · obtain ⟨s, t, rfl, hst⟩ := List.eq_append_cons_of_mem hs
        have hend := stepEnd_append_slash id.toList done hst t
        have hid' : id.toList = done ++ s ++ ['/'] ++ t := by simp [hid]
        have hle : ¬ byteLength id.toList < byteLength (done ++ s ++ ['/']) := by
          rw [hid', byteLength_append _ t]
          omega
        rw [walkAt_of_none ha hid hend ⟨'/' :: t, by simp [hid]⟩,
          ObjectId.prefixesFrom_append_slash, ObjectId.prefixesFrom_of_not_mem hst,
          List.singleton_append, List.map_cons, walk_cons_of_none ha]
        cases node.child? (String.ofList (done ++ s)) with
        | none => rfl
        | some child =>
          simp only [← byteLength_append_slash, hle, false_and, if_false]
          refine ih _ ?_ _ hid' rfl
          rw [← hn, List.length_append, List.length_cons]
          omega
      · rw [walkAt_of_not_mem ha hid hs, ObjectId.prefixesFrom_of_not_mem hs, ← hid,
          List.map_singleton, String.ofList_toList]

/-- The loop meets no fault, and finds who answers. -/
theorem resolveAt_eq_resolve (root : Container) (id : String) :
    root.resolveAt id = .ok (root.resolve id) := by
  unfold resolveAt
  split
  · rename_i h
    obtain ⟨rest, hrest⟩ := List.head?_eq_some_iff.1 h
    rw [resolve_of_toList hrest]
    exact walkAt_eq_walk ['/'] hrest
  · rename_i h
    rw [resolve_of_head?_ne h]

/-- Who answers for an id in a tree below a root that carries no backend's name: the loop
meets no fault and tells what the chain for the id without trailing slashes tells. Slashes
at the end of the id make no difference, and a backend that answers for the id answers for
all that is below it, with one node. -/
theorem resolve_follows_chain (root : Container) (hroot : root.id = "/")
    (hb : root.backend = none) (id : String) :
    root.resolveAt id = .ok (root.resolve id) ∧
      IsTrimmed id.toList (normalize id).toList ∧
      ((normalize id).toList.head? ≠ some '/' → root.resolve id = .missing) ∧
      ((normalize id).toList.head? = some '/' →
        (∀ backend node exact, root.resolve id = .delegated backend node exact ↔
          (∃ passed, Chain (normalize id) 0 root passed node ∧ Untagged passed) ∧
            node.backend = some backend ∧ exact = decide (node.id = normalize id)) ∧
        (∀ node, root.resolve id = .served node ↔
          (∃ passed, Chain (normalize id) 0 root passed node ∧ Untagged passed) ∧
            node.backend = none ∧ node.id = normalize id) ∧
        (root.resolve id = .missing ↔
          ∀ passed node, Chain (normalize id) 0 root passed node → Untagged passed →
            node.backend = none ∧ node.id ≠ normalize id)) ∧
      (id.toList.head? = some '/' →
        ∀ k, root.resolve (id ++ String.ofList (List.replicate k '/')) = root.resolve id) ∧
      (∀ backend node exact, root.resolve id = .delegated backend node exact →
        ∀ id', ObjectId.isAncestor id id' = true →
          ∃ exact', root.resolve id' = .delegated backend node exact') := by
  refine ⟨resolveAt_eq_resolve root id, ?_, fun h => resolve_of_head?_ne h root, fun h => ?_,
    fun h k => resolve_append_replicate h k root,
    fun _ _ _ h _ ha => resolve_of_isAncestor hroot hb h ha⟩
  · rw [toList_normalize]
    exact ObjectId.isTrimmed_normalizeChars id.toList
  · exact ⟨fun _ _ _ => resolve_eq_delegated_iff h, fun _ => resolve_eq_served_iff h,
      resolve_eq_missing_iff h⟩

/-- All at and below a node that a backend put up is that backend's. -/
theorem resolve_below_tagged :
    ∃ root dirs : Container, root.id = "/" ∧ root.backend = none ∧ root.children = [dirs] ∧
      root.resolve "/dirs//" = .delegated "files" dirs true ∧
      ∃ exact, root.resolve "/dirs/é/a" = .delegated "files" dirs exact := by
  refine ⟨{ Container.root with children := [_] },
    { Container.new "/dirs" "Directories" .directory with backend := some "files" },
    rfl, rfl, rfl, rfl, ?_⟩
  obtain ⟨-, -, -, -, -, below⟩ := resolve_follows_chain
    { Container.root with children := [{ Container.new "/dirs" "Directories" .directory
      with backend := some "files" }] } rfl rfl "/dirs"
  exact below "files" _ true rfl "/dirs/é/a" rfl

end Container

end Mediatheque
