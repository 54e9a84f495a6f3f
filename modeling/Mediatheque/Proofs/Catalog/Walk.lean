import Mediatheque.Catalog.Resolution
import Mediatheque.Proofs.ObjectId.Ancestors
import Mediatheque.Proofs.ObjectId.Prefixes
import Mediatheque.Proofs.ObjectId.Trim

/-!
# The chain of nodes for an id

For an id without trailing slashes a chain of nodes leads down from the root, each the first
child of the one before that has the next path prefix for its id, until a node has the id
itself (`Chain`). Who answers for the id is told at the first node of the chain that carries
a backend's name or has the id (`answerAt`), and nobody does if there is none
(`walk_eq_iff`, `walk_eq_missing_iff`).

A backend answers for what is below an id that it answers for: the chain for the longer id
starts with the same nodes (`resolve_of_isAncestor`).
-/

namespace Mediatheque

namespace Container

open ObjectId (Ahead IsNextPrefix normalize normalizeChars prefixesFrom)

/-- The chain for an id from a node on, `n` characters of the id being matched: the nodes
that it passes, and one that it reaches. -/
inductive Chain (id : String) : Nat → Container → List Container → Container → Prop where
  | here (n : Nat) (node : Container) : Chain id n node [] node
  | step {n : Nat} {node child last : Container} {p : List Char} {passed : List Container}
      (hid : node.id ≠ id) (hp : IsNextPrefix id.toList n p)
      (hc : node.child? (String.ofList p) = some child)
      (rest : Chain id p.length child passed last) : Chain id n node (node :: passed) last

/-- No node of a list carries a backend's name. -/
def Untagged (nodes : List Container) : Prop := ∀ node ∈ nodes, node.backend = none

/-- What a node of the chain tells: it belongs to a backend, or it has the id itself. -/
def answerAt (id : String) (node : Container) : Option Resolution :=
  match node.backend with
  | some backend => some (.delegated backend node (node.id = id))
  | none => if node.id = id then some (.served node) else none

theorem answerAt_of_some {id backend : String} {node : Container}
    (hb : node.backend = some backend) :
    answerAt id node = some (.delegated backend node (node.id = id)) := by
  rw [answerAt, hb]

theorem answerAt_of_none {id : String} {node : Container} (hb : node.backend = none) :
    answerAt id node = if node.id = id then some (.served node) else none := by
  rw [answerAt, hb]

theorem answerAt_eq_none_iff {id : String} {node : Container} :
    answerAt id node = none ↔ node.backend = none ∧ node.id ≠ id := by
  cases hb : node.backend with
  | none =>
    rw [answerAt_of_none hb]
    simp
  | some b =>
    rw [answerAt_of_some hb]
    simp

theorem answerAt_eq_delegated_iff {id backend : String} {node x : Container} {exact : Bool} :
    answerAt id node = some (.delegated backend x exact) ↔
      node = x ∧ node.backend = some backend ∧ exact = decide (node.id = id) := by
  cases hb : node.backend with
  | none =>
    rw [answerAt_of_none hb]
    by_cases hid : node.id = id <;> simp [hid]
  | some b =>
    rw [answerAt_of_some hb]
    simp only [Option.some.injEq, Resolution.delegated.injEq]
    constructor
    · rintro ⟨rfl, rfl, rfl⟩
      exact ⟨rfl, rfl, rfl⟩
    · rintro ⟨rfl, rfl, rfl⟩
      exact ⟨rfl, rfl, rfl⟩

theorem answerAt_eq_served_iff {id : String} {node x : Container} :
    answerAt id node = some (.served x) ↔ node = x ∧ node.backend = none ∧ node.id = id := by
  cases hb : node.backend with
  | none =>
    rw [answerAt_of_none hb]
    by_cases hid : node.id = id <;> simp [hid]
  | some b =>
    rw [answerAt_of_some hb]
    simp

theorem answerAt_ne_missing (id : String) (node : Container) :
    answerAt id node ≠ some .missing := by
  cases hb : node.backend with
  | none =>
    rw [answerAt_of_none hb]
    by_cases hid : node.id = id <;> simp [hid]
  | some b =>
    rw [answerAt_of_some hb]
    simp

/-! ## The walk -/

theorem walk_of_answerAt {id : String} {node : Container} {r : Resolution}
    (h : answerAt id node = some r) (steps : List String) : node.walk id steps = r := by
  cases hb : node.backend with
  | some backend =>
    rw [answerAt_of_some hb] at h
    cases h
    cases steps <;> rw [walk, hb]
  | none =>
    rw [answerAt_of_none hb] at h
    by_cases hid : node.id = id
    · rw [if_pos hid] at h
      cases h
      cases steps <;>
      · rw [walk, hb]
        simp only [hid, if_true]
    · rw [if_neg hid] at h
      cases h

theorem walk_nil_of_none {id : String} {node : Container} (h : answerAt id node = none) :
    node.walk id [] = .missing := by
  obtain ⟨hb, hid⟩ := answerAt_eq_none_iff.1 h
  rw [walk, hb]
  simp only [hid, if_false]

theorem walk_cons_of_none {id : String} {node : Container} (h : answerAt id node = none)
    (step : String) (rest : List String) :
    node.walk id (step :: rest) =
      match node.child? step with
      | some child => child.walk id rest
      | none => .missing := by
  obtain ⟨hb, hid⟩ := answerAt_eq_none_iff.1 h
  rw [walk, hb]
  exact if_neg hid

/-- A chain whose nodes tell nothing goes on, or it is where it starts. -/
theorem chain_iff_of_none {id : String} {n : Nat} {node last : Container} {p : List Char}
    {steps : List (List Char)} {passed : List Container} (ha : Ahead id.toList n (p :: steps))
    (hid : node.id ≠ id) : Chain id n node passed last ↔
      (passed = [] ∧ last = node) ∨ ∃ child rest, node.child? (String.ofList p) = some child ∧
        passed = node :: rest ∧ Chain id p.length child rest last := by
  constructor
  · intro h
    cases h with
    | here => exact .inl ⟨rfl, rfl⟩
    | step _ hq hc rest =>
      obtain rfl := ha.isNextPrefix_iff.1 hq
      exact .inr ⟨_, _, hc, rfl, rest⟩
  · rintro (⟨rfl, rfl⟩ | ⟨child, rest, hc, rfl, h⟩)
    · exact .here n last
    · exact .step hid ha.isNextPrefix hc h

/-- The walk finds what the first node of the chain tells that tells anything. -/
theorem walk_eq_iff {id : String} {n : Nat} {node : Container} {steps : List (List Char)}
    {r : Resolution} (ha : Ahead id.toList n steps) (hr : r ≠ .missing) :
    node.walk id (steps.map String.ofList) = r ↔
      ∃ passed last, Chain id n node passed last ∧ Untagged passed ∧
        answerAt id last = some r := by
  induction steps generalizing n node with
  | nil =>
    cases h : answerAt id node with
    | some s =>
      rw [walk_of_answerAt h]
      constructor
      · rintro rfl
        exact ⟨[], node, .here n node, by simp [Untagged], h⟩
      · rintro ⟨passed, last, hch, -, hl⟩
        cases hch with
        | here => rw [h] at hl; exact Option.some.inj hl
        | step _ hp _ _ => exact absurd hp ha.not_isNextPrefix
    | none =>
      rw [List.map_nil, walk_nil_of_none h]
      refine iff_of_false hr.symm ?_
      rintro ⟨passed, last, hch, -, hl⟩
      cases hch with
      | here => rw [h] at hl; cases hl
      | step _ hp _ _ => exact absurd hp ha.not_isNextPrefix
  | cons p steps ih =>
    cases h : answerAt id node with
    | some s =>
      rw [walk_of_answerAt h]
      constructor
      · rintro rfl
        exact ⟨[], node, .here n node, by simp [Untagged], h⟩
      · rintro ⟨passed, last, hch, hu, hl⟩
        cases hch with
        | here => rw [h] at hl; exact Option.some.inj hl
        | step hid _ _ _ =>
          -- A node that is passed is not tagged, and has not got the id.
          rw [answerAt_eq_none_iff.2 ⟨hu node List.mem_cons_self, hid⟩] at h
          cases h
    | none =>
      obtain ⟨hb, hid⟩ := answerAt_eq_none_iff.1 h
      rw [List.map_cons, walk_cons_of_none h]
      simp only [chain_iff_of_none ha hid]
      cases hc : node.child? (String.ofList p) with
      | none =>
        refine iff_of_false hr.symm ?_
        rintro ⟨passed, last, ⟨-, rfl⟩ | ⟨child, rest, hc', -, -⟩, -, hl⟩
        · rw [h] at hl
          cases hl
        · cases hc'
      | some child =>
        rw [ih ha.tail]
        constructor
        · rintro ⟨passed, last, hch, hu, hl⟩
          exact ⟨node :: passed, last, .inr ⟨child, passed, rfl, rfl, hch⟩,
            List.forall_mem_cons.2 ⟨hb, hu⟩, hl⟩
        · rintro ⟨passed, last, ⟨-, rfl⟩ | ⟨_, rest, hc', rfl, hch⟩, hu, hl⟩
          · rw [h] at hl
            cases hl
          · cases hc'
            exact ⟨rest, last, hch, (List.forall_mem_cons.1 hu).2, hl⟩

/-- The walk finds nobody if no node of the chain tells anything. -/
theorem walk_eq_missing_iff {id : String} {n : Nat} {node : Container}
    {steps : List (List Char)} (ha : Ahead id.toList n steps) :
    node.walk id (steps.map String.ofList) = .missing ↔
      ∀ passed last, Chain id n node passed last → Untagged passed →
        answerAt id last = none := by
  constructor
  · intro h passed last hch hu
    cases hl : answerAt id last with
    | none => rfl
    | some r =>
      have hr : r ≠ .missing := fun e => answerAt_ne_missing id last (e ▸ hl)
      rw [(walk_eq_iff ha hr).2 ⟨passed, last, hch, hu, hl⟩] at h
      exact absurd h hr
  · intro h
    by_contra hr
    obtain ⟨passed, last, hch, hu, hl⟩ := (walk_eq_iff ha hr).1 rfl
    rw [h passed last hch hu] at hl
    cases hl

/-! ## Who answers -/

theorem toList_normalize (id : String) : (normalize id).toList = normalizeChars id.toList :=
  String.toList_ofList

theorem resolve_congr {id id' : String} (h : normalize id' = normalize id) (root : Container) :
    root.resolve id' = root.resolve id := by
  rw [resolve, h, resolve]

theorem resolve_of_head?_ne {id : String} (h : (normalize id).toList.head? ≠ some '/')
    (root : Container) : root.resolve id = .missing :=
  if_neg h

theorem resolve_of_toList {id : String} {rest : List Char}
    (h : (normalize id).toList = '/' :: rest) (root : Container) :
    root.resolve id =
      root.walk (normalize id) ((prefixesFrom ['/'] rest).map String.ofList) := by
  have hp : ObjectId.prefixes (normalize id).toList =
      (prefixesFrom ['/'] rest).map String.ofList := by
    rw [h, ObjectId.prefixes]
  rw [← hp]
  exact if_pos (by rw [h, List.head?_cons])

/-- The chain for an id with a slash in front, from the root on. -/
theorem ahead_of_toList {text rest : List Char} (h : text = '/' :: rest) :
    Ahead text 0 (prefixesFrom ['/'] rest) :=
  h ▸ ObjectId.ahead_prefixesFrom '/' rest

section

variable {root : Container} {id : String} (h : (normalize id).toList.head? = some '/')
include h

/-- An id is delegated to the backend of the first node of the chain that has one, unless a
node before has the id. -/
theorem resolve_eq_delegated_iff {backend : String} {node : Container} {exact : Bool} :
    root.resolve id = .delegated backend node exact ↔
      (∃ passed, Chain (normalize id) 0 root passed node ∧ Untagged passed) ∧
        node.backend = some backend ∧ exact = decide (node.id = normalize id) := by
  obtain ⟨rest, hrest⟩ := List.head?_eq_some_iff.1 h
  rw [resolve_of_toList hrest, walk_eq_iff (ahead_of_toList hrest) (by simp)]
  constructor
  · rintro ⟨passed, last, hch, hu, hl⟩
    obtain ⟨rfl, hb, he⟩ := answerAt_eq_delegated_iff.1 hl
    exact ⟨⟨passed, hch, hu⟩, hb, he⟩
  · rintro ⟨⟨passed, hch, hu⟩, hb, he⟩
    exact ⟨passed, node, hch, hu, answerAt_eq_delegated_iff.2 ⟨rfl, hb, he⟩⟩

/-- The catalog serves a node that the chain reaches with the id. -/
theorem resolve_eq_served_iff {node : Container} :
    root.resolve id = .served node ↔
      (∃ passed, Chain (normalize id) 0 root passed node ∧ Untagged passed) ∧
        node.backend = none ∧ node.id = normalize id := by
  obtain ⟨rest, hrest⟩ := List.head?_eq_some_iff.1 h
  rw [resolve_of_toList hrest, walk_eq_iff (ahead_of_toList hrest) (by simp)]
  constructor
  · rintro ⟨passed, last, hch, hu, hl⟩
    obtain ⟨rfl, hb, hid⟩ := answerAt_eq_served_iff.1 hl
    exact ⟨⟨passed, hch, hu⟩, hb, hid⟩
  · rintro ⟨⟨passed, hch, hu⟩, hb, hid⟩
    exact ⟨passed, node, hch, hu, answerAt_eq_served_iff.2 ⟨rfl, hb, hid⟩⟩

/-- Nobody answers for an id if the chain meets neither a backend nor the id. -/
theorem resolve_eq_missing_iff :
    root.resolve id = .missing ↔
      ∀ passed node, Chain (normalize id) 0 root passed node → Untagged passed →
        node.backend = none ∧ node.id ≠ normalize id := by
  obtain ⟨rest, hrest⟩ := List.head?_eq_some_iff.1 h
  rw [resolve_of_toList hrest, walk_eq_missing_iff (ahead_of_toList hrest)]
  simp only [answerAt_eq_none_iff]

end

theorem resolve_append_replicate {id : String} (h : id.toList.head? = some '/') (k : Nat)
    (root : Container) :
    root.resolve (id ++ String.ofList (List.replicate k '/')) = root.resolve id := by
  refine resolve_congr ?_ root
  rw [ObjectId.normalize, String.toList_append, String.toList_ofList,
    ObjectId.normalizeChars_append_replicate h, ObjectId.normalize]

/-! ## Below an id -/

/-- A walk that ends with a backend ends there for a longer id, too, unless it meets that. -/
theorem walk_append_of_delegated {id id' backend : String} {node last : Container}
    {steps : List String} {exact : Bool} (hid : node.id ≠ id') (hs : ∀ s ∈ steps, s ≠ id')
    (h : node.walk id steps = .delegated backend last exact) (more : List String) :
    ∃ exact', node.walk id' (steps ++ more) = .delegated backend last exact' := by
  induction steps generalizing node with
  | nil =>
    cases ha : answerAt id node with
    | some r =>
      rw [walk_of_answerAt ha] at h
      obtain ⟨rfl, hb, -⟩ := answerAt_eq_delegated_iff.1 (h ▸ ha)
      exact ⟨_, walk_of_answerAt (answerAt_of_some hb) _⟩
    | none =>
      rw [walk_nil_of_none ha] at h
      cases h
  | cons step steps ih =>
    cases ha : answerAt id node with
    | some r =>
      rw [walk_of_answerAt ha] at h
      obtain ⟨rfl, hb, -⟩ := answerAt_eq_delegated_iff.1 (h ▸ ha)
      exact ⟨_, walk_of_answerAt (answerAt_of_some hb) _⟩
    | none =>
      have hb := (answerAt_eq_none_iff.1 ha).1
      rw [walk_cons_of_none ha] at h
      rw [List.cons_append, walk_cons_of_none (answerAt_eq_none_iff.2 ⟨hb, hid⟩)]
      obtain ⟨hstep, hs⟩ := List.forall_mem_cons.1 hs
      cases hc : node.child? step with
      | none =>
        rw [hc] at h
        cases h
      | some child =>
        rw [hc] at h
        have hchild : child.id = step := by simpa using List.find?_some hc
        exact ih (hchild ▸ hstep) hs h

/-- What lies below an id that is not the root's keeps it, without the slashes at its end,
for a beginning, and goes on with a slash if at all. -/
theorem normalizeChars_of_isAncestor {id id' : List Char} {c : Char} {k : Nat}
    (hk : id = normalizeChars id ++ List.replicate k '/')
    (hl : (normalizeChars id).getLast? = some c) (hc : c ≠ '/')
    (h : ObjectId.isAncestorChars id id' = true) :
    normalizeChars id' = normalizeChars id ∨
      ∃ u, normalizeChars id' = normalizeChars id ++ '/' :: u := by
  have hid : id ≠ ['/'] := by
    rintro rfl
    exact hc (Option.some.inj hl).symm
  obtain ⟨t, rfl, ht⟩ := (ObjectId.isAncestorChars_iff.1 h).resolve_left hid
  have hn : normalizeChars (id ++ t) =
      normalizeChars id ++ dropTrailing (· = '/') (List.replicate k '/' ++ t) := by
    conv_lhs => rw [hk, List.append_assoc]
    exact ObjectId.normalizeChars_append_of_getLast? hl hc _
  rw [hn]
  have hpre : dropTrailing (· = '/') (List.replicate k '/' ++ t) <+: List.replicate k '/' ++ t := by
    rw [dropTrailing_eq_rdropWhile]
    exact List.rdropWhile_prefix _ _
  cases hu : dropTrailing (· = '/') (List.replicate k '/' ++ t) with
  | nil => exact .inl (List.append_nil _)
  | cons d u =>
    rw [hu] at hpre
    suffices d = '/' from .inr ⟨u, by rw [this]⟩
    cases k with
    | zero =>
      rw [List.replicate_zero, List.nil_append] at hpre
      rcases ht with rfl | ht
      · exact absurd (List.prefix_nil.1 hpre) (List.cons_ne_nil d u)
      · obtain ⟨t, rfl⟩ := List.head?_eq_some_iff.1 ht
        exact (List.cons_prefix_cons.1 hpre).1
    | succ k =>
      rw [List.replicate_succ, List.cons_append] at hpre
      exact (List.cons_prefix_cons.1 hpre).1

/-- An id that a backend answers for starts with a slash and is not the root's. -/
theorem normalize_of_delegated {root : Container} (hroot : root.id = "/")
    (hb : root.backend = none) {id backend : String} {node : Container} {exact : Bool}
    (h : root.resolve id = .delegated backend node exact) :
    ∃ rest, (normalize id).toList = '/' :: rest ∧ rest ≠ [] := by
  have hhead : (normalize id).toList.head? = some '/' := by
    by_contra hne
    rw [resolve_of_head?_ne hne] at h
    cases h
  obtain ⟨rest, hrest⟩ := List.head?_eq_some_iff.1 hhead
  refine ⟨rest, hrest, ?_⟩
  rintro rfl
  have hid : root.id = normalize id := by
    rw [hroot, ← String.ofList_toList (s := normalize id), hrest]
  have hs : answerAt (normalize id) root = some (.served root) :=
    answerAt_eq_served_iff.2 ⟨rfl, hb, hid⟩
  rw [resolve_of_toList hrest, walk_of_answerAt hs] at h
  cases h

/-- An id that starts with a slash and is not the root's goes without slashes at its end. -/
theorem isTrimmed_cases {id : String} {rest : List Char}
    (h : (normalize id).toList = '/' :: rest) (hrest : rest ≠ []) :
    ∃ k c, id.toList = normalizeChars id.toList ++ List.replicate k '/' ∧
      (normalizeChars id.toList).getLast? = some c ∧ c ≠ '/' := by
  rw [toList_normalize] at h
  obtain ⟨hslashes, htrim⟩ := ObjectId.isTrimmed_normalizeChars id.toList
  obtain ⟨⟨k, hk⟩, hlast⟩ := htrim fun hs => by
    rw [hslashes hs] at h
    exact hrest (List.cons.inj h).2.symm
  obtain ⟨c, hc⟩ : ∃ c, (normalizeChars id.toList).getLast? = some c :=
    Option.ne_none_iff_exists'.1 (by simp [h])
  exact ⟨k, c, hk, hc, fun e => hlast (e ▸ hc)⟩

/-- A backend that answers for an id answers for one that goes on behind a slash. -/
theorem resolve_of_append {root : Container} (hroot : root.id = "/") {id id' backend : String}
    {node : Container} {exact : Bool} {rest u : List Char}
    (h : (normalize id).toList = '/' :: rest)
    (h' : (normalize id').toList = '/' :: (rest ++ '/' :: u))
    (hr : root.resolve id = .delegated backend node exact) :
    ∃ exact', root.resolve id' = .delegated backend node exact' := by
  -- The longer id is longer than every id that the walk meets.
  have hlong {p : List Char} (hp : p.length ≤ rest.length + 1) :
      String.ofList p ≠ normalize id' := by
    intro e
    have hl := congrArg (fun s => s.toList.length) e
    simp only [String.toList_ofList, h', List.length_cons, List.length_append] at hl
    omega
  rw [resolve_of_toList h] at hr
  rw [resolve_of_toList h', ObjectId.prefixesFrom_append_slash, List.map_append]
  refine walk_append_of_delegated ?_ ?_ hr _
  · rw [hroot]
    exact hlong (p := ['/']) (Nat.le_add_left 1 _)
  · intro s hs
    obtain ⟨p, hp, rfl⟩ := List.mem_map.1 hs
    have hle := ((ahead_of_toList h).mem_iff p).1 hp |>.1.isPrefix.length_le
    rw [h] at hle
    exact hlong hle

/-- A backend that answers for an id answers for all that is below it, with one node. -/
theorem resolve_of_isAncestor {root : Container} (hroot : root.id = "/")
    (hb : root.backend = none) {id id' backend : String} {node : Container} {exact : Bool}
    (h : root.resolve id = .delegated backend node exact)
    (ha : ObjectId.isAncestor id id' = true) :
    ∃ exact', root.resolve id' = .delegated backend node exact' := by
  obtain ⟨rest, hrest, hne⟩ := normalize_of_delegated hroot hb h
  obtain ⟨k, c, hk, hc, hcs⟩ := isTrimmed_cases hrest hne
  rcases normalizeChars_of_isAncestor hk hc hcs ha with he | ⟨u, hu⟩
  · have hn : normalize id' = normalize id := by
      rw [ObjectId.normalize, he, ObjectId.normalize]
    exact ⟨exact, (resolve_congr hn root).trans h⟩
  · rw [← toList_normalize, ← toList_normalize, hrest] at hu
    exact resolve_of_append hroot hrest hu h

end Container

end Mediatheque
