import Mathlib.Data.List.Chain
import Mediatheque.ObjectId

/-!
# Ancestors and parents

An ancestor of an id is read off the beginning of its text (`isAncestorChars_iff`), and its parent
off the last slash (`eq_append_of_beforeLastSlash?`). The two agree: above an id stand those that
are above its parent and the parent itself, and no others (`isAncestorChars_parent_iff`). So the
ancestors of an id with a slash in front are the ids on the way from it to the root, parent by
parent (`isAncestorChars_iff_mem`), and as they are beginnings of one text, any two of them stand
one above the other (`isAncestorChars_or`).

Main statement: `ancestors_are_parents`.
-/

namespace Mediatheque

namespace ObjectId

variable {a b d s t p : List Char}

/-! ## Ancestors -/

/-- What can follow an ancestor: nothing, or a slash and more. -/
def GoesBelow (t : List Char) : Prop := t = [] ∨ t.head? = some '/'

theorem GoesBelow.append (hs : GoesBelow s) (ht : GoesBelow t) : GoesBelow (s ++ t) := by
  rcases hs with rfl | hs
  · exact ht
  · obtain ⟨s, rfl⟩ := List.head?_eq_some_iff.1 hs
    exact .inr rfl

theorem GoesBelow.of_append (h : GoesBelow (s ++ t)) : GoesBelow s := by
  cases s with
  | nil => exact .inl rfl
  | cons c s => exact h.imp nofun id

theorem isAncestorChars_iff :
    isAncestorChars a d = true ↔ a = ['/'] ∨ ∃ t, d = a ++ t ∧ GoesBelow t := by
  rw [isAncestorChars]
  split
  next ha => simp [ha]
  next ha =>
    simp only [ha, false_or, ← dropPrefix?_eq_some_iff]
    cases hd : dropPrefix? a d with
    | none => simp
    | some t => cases t <;> simp [GoesBelow]

theorem isAncestorChars_append (ht : GoesBelow t) : isAncestorChars a (a ++ t) = true :=
  isAncestorChars_iff.2 (.inr ⟨t, rfl, ht⟩)

theorem isAncestorChars_self (a : List Char) : isAncestorChars a a = true :=
  isAncestorChars_iff.2 (.inr ⟨[], (List.append_nil a).symm, .inl rfl⟩)

/-- Above the root stands the root alone. -/
theorem eq_root_of_isAncestorChars (ha : a ≠ []) (h : isAncestorChars a ['/'] = true) :
    a = ['/'] := by
  rcases isAncestorChars_iff.1 h with h | ⟨t, ht, -⟩
  · exact h
  · obtain ⟨c, a, rfl⟩ := List.exists_cons_of_ne_nil ha
    obtain ⟨rfl, hnil⟩ := List.cons.inj ht
    rw [(List.append_eq_nil_iff.1 hnil.symm).1]

theorem isAncestorChars_trans (ha : a ≠ []) (hab : isAncestorChars a b = true)
    (hbd : isAncestorChars b d = true) : isAncestorChars a d = true := by
  rcases isAncestorChars_iff.1 hbd with rfl | ⟨t, rfl, ht⟩
  · exact isAncestorChars_iff.2 (.inl (eq_root_of_isAncestorChars ha hab))
  rcases isAncestorChars_iff.1 hab with rfl | ⟨s, rfl, hs⟩
  · exact isAncestorChars_iff.2 (.inl rfl)
  · rw [List.append_assoc]
    exact isAncestorChars_append (hs.append ht)

theorem isAncestorChars_antisymm (ha : a ≠ []) (hb : b ≠ []) (hab : isAncestorChars a b = true)
    (hba : isAncestorChars b a = true) : a = b := by
  rcases isAncestorChars_iff.1 hab with rfl | ⟨t, rfl, -⟩
  · exact (eq_root_of_isAncestorChars hb hba).symm
  rcases isAncestorChars_iff.1 hba with hroot | ⟨s, hs, -⟩
  · rw [hroot] at hab ⊢
    exact eq_root_of_isAncestorChars ha hab
  · have hlength := congrArg List.length hs
    simp only [List.length_append] at hlength
    rw [List.length_eq_zero_iff.1 (by omega : t.length = 0), List.append_nil]

/-- Of two ancestors the shorter text is the beginning of the longer. -/
theorem isAncestorChars_or (had : isAncestorChars a d = true) (hbd : isAncestorChars b d = true) :
    isAncestorChars a b = true ∨ isAncestorChars b a = true := by
  rcases isAncestorChars_iff.1 had with rfl | ⟨t, rfl, ht⟩
  · exact .inl (isAncestorChars_iff.2 (.inl rfl))
  rcases isAncestorChars_iff.1 hbd with rfl | ⟨s, hs, hbelow⟩
  · exact .inr (isAncestorChars_iff.2 (.inl rfl))
  rcases List.append_eq_append_iff.1 hs with ⟨u, rfl, rfl⟩ | ⟨u, rfl, rfl⟩
  · exact .inl (isAncestorChars_append ht.of_append)
  · exact .inr (isAncestorChars_append hbelow.of_append)

/-! ## Parents -/

theorem beforeLastSlash?_eq_none_iff : beforeLastSlash? s = none ↔ '/' ∉ s := by
  induction s with
  | nil => simp [beforeLastSlash?]
  | cons c s ih =>
    rw [beforeLastSlash?, List.mem_cons, not_or, ← ih]
    cases hs : beforeLastSlash? s with
    | some start => simp
    | none => by_cases hc : c = '/' <;> simp [hc, eq_comm]

/-- The last slash has a text before it and a name without a slash behind it. -/
theorem eq_append_of_beforeLastSlash? (h : beforeLastSlash? s = some t) :
    ∃ name, s = t ++ '/' :: name ∧ '/' ∉ name := by
  induction s generalizing t with
  | nil => cases h
  | cons c s ih =>
    rw [beforeLastSlash?] at h
    cases hs : beforeLastSlash? s with
    | some start =>
      rw [hs] at h
      obtain ⟨name, rfl, hname⟩ := ih hs
      cases h
      exact ⟨name, rfl, hname⟩
    | none =>
      rw [hs] at h
      by_cases hc : c = '/'
      · simp only [hc, if_true, Option.some.injEq] at h
        exact ⟨s, by rw [← h, hc]; rfl, beforeLastSlash?_eq_none_iff.1 hs⟩
      · simp [hc] at h

/-- The parent of an id with a slash in front: what is before its last slash, or the root. -/
theorem parentChars?_cases (h : d.head? = some '/') :
    (d = ['/'] ∧ parentChars? d = none) ∨
      ∃ t name, d = t ++ '/' :: name ∧ '/' ∉ name ∧
        parentChars? d = some (if t = [] then ['/'] else t) := by
  obtain ⟨rest, rfl⟩ := List.head?_eq_some_iff.1 h
  by_cases hroot : '/' :: rest = ['/']
  · exact .inl ⟨hroot, if_pos hroot⟩
  cases hs : beforeLastSlash? ('/' :: rest) with
  | none => exact absurd List.mem_cons_self (beforeLastSlash?_eq_none_iff.1 hs)
  | some t =>
    obtain ⟨name, heq, hname⟩ := eq_append_of_beforeLastSlash? hs
    refine .inr ⟨t, name, heq, hname, ?_⟩
    rw [parentChars?, if_neg hroot, hs]
    cases t <;> rfl

theorem head?_of_parentChars? (h : d.head? = some '/') (hp : parentChars? d = some p) :
    p.head? = some '/' := by
  rcases parentChars?_cases h with ⟨-, hnone⟩ | ⟨t, name, rfl, -, hparent⟩
  · rw [hnone] at hp
    cases hp
  · rw [hparent] at hp
    cases hp
    cases t with
    | nil => rfl
    | cons c t => exact h

/-- Above an id stand its parent and what is above that. -/
theorem isAncestorChars_parent_iff (ha : a ≠ []) (h : d.head? = some '/')
    (hp : parentChars? d = some p) :
    isAncestorChars a d = true ↔ a = d ∨ isAncestorChars a p = true := by
  rcases parentChars?_cases h with ⟨-, hnone⟩ | ⟨t, name, rfl, hname, hparent⟩
  · rw [hnone] at hp
    cases hp
  rw [hparent] at hp
  cases hp
  constructor
  · intro had
    rcases isAncestorChars_iff.1 had with rfl | ⟨s, hs, rfl | hslash⟩
    · exact .inr (isAncestorChars_iff.2 (.inl rfl))
    · exact .inl (by rw [hs, List.append_nil])
    obtain ⟨s, rfl⟩ := List.head?_eq_some_iff.1 hslash
    -- The slash behind `a` is the last one or comes before it.
    rcases List.append_eq_append_iff.1 hs with ⟨u, rfl, hu⟩ | ⟨u, rfl, hu⟩
    · cases u with
      | nil =>
        rw [List.append_nil] at ha ⊢
        rw [if_neg ha]
        exact .inr (isAncestorChars_self t)
      | cons c u =>
        refine absurd ?_ hname
        rw [(List.cons.inj hu).2]
        simp
    · have hne : a ++ u ≠ [] := List.append_ne_nil_of_left_ne_nil ha u
      rw [if_neg hne]
      refine .inr (isAncestorChars_append ?_)
      cases u with
      | nil => exact .inl rfl
      | cons c u => exact .inr (by rw [(List.cons.inj hu).1]; rfl)
  · rintro (rfl | hap)
    · exact isAncestorChars_self _
    split at hap
    · exact isAncestorChars_iff.2 (.inl (eq_root_of_isAncestorChars ha hap))
    · exact isAncestorChars_trans ha hap (isAncestorChars_append (.inr rfl))

/-! ## The way to the root -/

theorem parentsChars_of_none (h : parentChars? d = none) : parentsChars d = [] := by
  rw [parentsChars]
  split
  next => rfl
  next heq => rw [h] at heq; cases heq

theorem parentsChars_of_some (h : parentChars? d = some p) :
    parentsChars d = p :: parentsChars p := by
  rw [parentsChars]
  split
  next heq => rw [h] at heq; cases heq
  next heq => rw [h] at heq; cases heq; rfl

/-- Induction on an id with a slash in front: the root, and an id from its parent. -/
theorem parent_induction {motive : (d : List Char) → d.head? = some '/' → Prop}
    (root : motive ['/'] rfl)
    (below : ∀ d p (h : d.head? = some '/') (hp : parentChars? d = some p),
      motive p (head?_of_parentChars? h hp) → motive d h)
    (d : List Char) (h : d.head? = some '/') : motive d h := by
  match hp : parentChars? d with
  | none =>
    rcases parentChars?_cases h with ⟨rfl, -⟩ | ⟨t, name, -, -, hsome⟩
    · exact root
    · rw [hsome] at hp
      cases hp
  | some p => exact below d p h hp (parent_induction root below p (head?_of_parentChars? h hp))
termination_by parentWeight d
decreasing_by exact parentWeight_lt hp

/-- The ancestors of an id are the id and its parents, one after the other. -/
theorem isAncestorChars_iff_mem (ha : a ≠ []) (h : d.head? = some '/') :
    isAncestorChars a d = true ↔ a ∈ d :: parentsChars d := by
  induction d, h using parent_induction with
  | root =>
    rw [parentsChars_of_none rfl, List.mem_singleton]
    exact ⟨eq_root_of_isAncestorChars ha, fun heq => heq ▸ isAncestorChars_self _⟩
  | below d p hd hp ih =>
    rw [isAncestorChars_parent_iff ha hd hp, ih, parentsChars_of_some hp, List.mem_cons (b := d)]

/-- Step by step to the parent, every id with a slash in front comes to the root. -/
theorem isChain_parentsChars (h : d.head? = some '/') :
    (d :: parentsChars d).IsChain (fun x p => parentChars? x = some p) ∧
      (d :: parentsChars d).getLast? = some ['/'] := by
  induction d, h using parent_induction with
  | root =>
    rw [parentsChars_of_none rfl]
    exact ⟨.singleton _, rfl⟩
  | below d p _ hp ih =>
    rw [parentsChars_of_some hp]
    exact ⟨.cons_cons hp ih.1, by rw [List.getLast?_cons_cons]; exact ih.2⟩

/-! ## Ids -/

theorem parent?_ofList (x : List Char) :
    parent? (String.ofList x) = (parentChars? x).map String.ofList := by
  rw [parent?, String.toList_ofList]

theorem toList_ne_nil {id : String} (h : id.toList.head? = some '/') : id.toList ≠ [] := by
  rintro hnil
  rw [hnil] at h
  cases h

/-- For every id with a slash in front: step by step to the parent it comes to the root, which has
none, and its ancestors are the ids that it passes on this way, itself among them. It is its own
ancestor; what is above an ancestor of it is above it; what is above it and below it is the id
itself; and of two ancestors of it one is above the other. -/
theorem ancestors_are_parents {d : String} (hd : d.toList.head? = some '/') :
    ((d :: parents d).IsChain (fun x p => parent? x = some p) ∧
      (d :: parents d).getLast? = some "/" ∧ parent? "/" = none) ∧
    (∀ a, a ≠ "" → (isAncestor a d = true ↔ a = d ∨ a ∈ parents d)) ∧
    isAncestor d d = true ∧
    (∀ a b, a.toList.head? = some '/' → b.toList.head? = some '/' →
      isAncestor a b = true → isAncestor b d = true → isAncestor a d = true) ∧
    (∀ a, a.toList.head? = some '/' → isAncestor a d = true → isAncestor d a = true → a = d) ∧
    ∀ a b, a.toList.head? = some '/' → b.toList.head? = some '/' →
      isAncestor a d = true → isAncestor b d = true →
      isAncestor a b = true ∨ isAncestor b a = true := by
  have hparents : d :: parents d = (d.toList :: parentsChars d.toList).map String.ofList := by
    rw [List.map_cons, String.ofList_toList, parents]
  obtain ⟨hchain, hlast⟩ := isChain_parentsChars hd
  refine ⟨⟨?_, ?_, rfl⟩, fun a ha => ?_, isAncestorChars_self _, fun a b ha _ hab hbd => ?_,
    fun a ha hab hba => ?_, fun a b _ _ had hbd => ?_⟩
  · rw [hparents, List.isChain_map]
    refine hchain.imp fun x p hp => ?_
    rw [parent?_ofList, hp, Option.map_some]
  · rw [hparents, List.getLast?_map, hlast]
    rfl
  · have hne : a.toList ≠ [] := fun hnil => ha (String.toList_inj.1 hnil)
    rw [isAncestor, isAncestorChars_iff_mem hne hd, ← List.mem_cons, hparents,
      ← List.mem_map_of_injective (fun _ _ => String.ofList_injective), String.ofList_toList]
  · exact isAncestorChars_trans (toList_ne_nil ha) hab hbd
  · exact String.toList_inj.1
      (isAncestorChars_antisymm (toList_ne_nil ha) (toList_ne_nil hd) hab hba)
  · exact isAncestorChars_or had hbd

/-- An id with a doubled slash and one at its end: of two ids that differ in a slash, one is on the
way to the root. -/
theorem ancestors_are_parents_doubled :
    "/é//b/".toList.head? = some '/' ∧ parents "/é//b/" = ["/é//b", "/é/", "/é", "/"] ∧
      isAncestor "/é/" "/é//b/" = true ∧ isAncestor "/é//" "/é//b/" ≠ true := by
  have hparents : parents "/é//b/" = ["/é//b", "/é/", "/é", "/"] := by decide +kernel
  have hiff := (ancestors_are_parents (d := "/é//b/") (by decide)).2.1
  refine ⟨by decide, hparents, (hiff "/é/" (by decide)).2 ?_, mt (hiff "/é//" (by decide)).1 ?_⟩
  · rw [hparents]
    exact .inr (by simp)
  · rw [hparents]
    decide

end ObjectId

end Mediatheque
