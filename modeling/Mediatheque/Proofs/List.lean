/-!
# Lists: changes of one item, folds and reading back
-/

namespace Mediatheque

variable {α β : Type}

/-- A map that does not see the change of one item. -/
theorem map_modify_of_eq {g : α → β} {f : α → α} {l : List α} {i : Nat}
    (h : ∀ a, l[i]? = some a → g (f a) = g a) : (l.modify i f).map g = l.map g := by
  induction l generalizing i with
  | nil => rw [List.modify_nil]
  | cons a l ih =>
    cases i with
    | zero => rw [List.modify_zero_cons, List.map_cons, h a rfl, List.map_cons]
    | succ i =>
      rw [List.modify_succ_cons, List.map_cons, ih fun b hb => h b (by simpa using hb),
        List.map_cons]

/-- A map that does not see that one item takes the place of another. -/
theorem map_set_of_eq {g : α → β} {l : List α} {i : Nat} {a b : α} (ha : l[i]? = some a)
    (h : g b = g a) : (l.set i b).map g = l.map g := by
  obtain ⟨hlt, rfl⟩ := List.getElem?_eq_some_iff.1 ha
  rw [List.map_set, h, ← List.getElem_map g (h := by simpa using hlt), List.set_getElem_self]

/-- What holds of all items before and after the change of one. -/
theorem forall_mem_modify {p : α → Prop} {f : α → α} {l : List α} {i : Nat}
    (h : ∀ a ∈ l, p a) (hf : ∀ a ∈ l, p (f a)) : ∀ a ∈ l.modify i f, p a := by
  intro a ha
  obtain ⟨j, hj⟩ := List.mem_iff_getElem?.1 ha
  rw [List.getElem?_modify] at hj
  obtain ⟨b, hb, rfl⟩ := Option.map_eq_some_iff.1 hj
  have hmem := List.mem_of_getElem? hb
  split
  · exact hf b hmem
  · exact h b hmem

/-- What holds of all items after one has taken the place of another. -/
theorem forall_mem_set {p : α → Prop} {l : List α} {i : Nat} {b : α} (hb : p b)
    (h : ∀ j a, j ≠ i → l[j]? = some a → p a) : ∀ a ∈ l.set i b, p a := by
  intro a ha
  obtain ⟨j, hj⟩ := List.mem_iff_getElem?.1 ha
  by_cases hji : j = i
  · rw [hji, List.getElem?_set_self (by simpa [hji] using (List.getElem?_eq_some_iff.1 hj).1)] at hj
    exact Option.some.inj hj ▸ hb
  · rw [List.getElem?_set_ne (Ne.symm hji)] at hj
    exact h j a hji hj

/-- A list before and after one item has taken the place of another. -/
theorem exists_append_set {l : List α} {i : Nat} {a : α} (ha : l[i]? = some a) (b : α) :
    ∃ before after, l = before ++ a :: after ∧ l.set i b = before ++ b :: after := by
  obtain ⟨hlt, rfl⟩ := List.getElem?_eq_some_iff.1 ha
  have h : ∃ before after, l = before ++ l[i] :: after ∧ before.length = i ∧
      l.set i b = before ++ b :: after := List.exists_of_set hlt
  obtain ⟨before, after, hsplit, -, hset⟩ := h
  exact ⟨before, after, hsplit, hset⟩

theorem modify_append_singleton (f : α → α) (l : List α) (a : α) :
    (l ++ [a]).modify l.length f = l ++ [f a] := by
  induction l with
  | nil => rfl
  | cons b l ih =>
    rw [List.cons_append, List.length_cons, List.modify_succ_cons, ih, List.cons_append]

theorem insertIdx_eq_take_cons_drop {l : List α} {i : Nat} (h : i ≤ l.length) (a : α) :
    l.insertIdx i a = l.take i ++ a :: l.drop i := by
  induction l generalizing i with
  | nil =>
    obtain rfl : i = 0 := Nat.le_zero.1 h
    rfl
  | cons b l ih =>
    cases i with
    | zero => rfl
    | succ i =>
      rw [List.insertIdx_succ_cons, ih (Nat.le_of_succ_le_succ h), List.take_succ_cons,
        List.drop_succ_cons, List.cons_append]

/-- Where an item is put in cannot be seen without it. -/
theorem filter_insertIdx_of_false {p : α → Bool} {l : List α} {i : Nat} {a : α} (ha : p a = false)
    (h : i ≤ l.length) : (l.insertIdx i a).filter p = l.filter p := by
  rw [insertIdx_eq_take_cons_drop h, List.filter_append, List.filter_cons, ha, if_neg (by simp),
    ← List.filter_append, List.take_append_drop]

/-- An item that is not repeated is gone once it is taken out. -/
theorem not_mem_eraseIdx {l : List α} (h : l.Nodup) {i : Nat} {a : α} (ha : l[i]? = some a) :
    a ∉ l.eraseIdx i := by
  intro hm
  obtain ⟨j, hj, hja⟩ := List.mem_eraseIdx_iff_getElem?.1 hm
  obtain ⟨hlt, -⟩ := List.getElem?_eq_some_iff.1 hja
  exact hj ((List.getElem?_inj hlt h).1 (hja.trans ha.symm))

theorem map_eq_self_iff {f : α → α} {l : List α} : l.map f = l ↔ ∀ a ∈ l, f a = a := by
  have h := List.map_inj_left (f := f) (g := id) (l := l)
  rwa [List.map_id] at h

/-- A fold whose steps all leave its start stays there. -/
theorem foldl_eq_self {f : β → α → β} {l : List α} {b : β} (h : ∀ a ∈ l, f b a = b) :
    l.foldl f b = b := by
  induction l with
  | nil => rfl
  | cons a l ih =>
    obtain ⟨ha, hl⟩ := List.forall_mem_cons.1 h
    rw [List.foldl_cons, ha, ih hl]

/-- The last item that gives something. -/
theorem findSome?_reverse_append_singleton (f : α → Option β) (l : List α) (a : α) :
    (l ++ [a]).reverse.findSome? f = (f a).or (l.reverse.findSome? f) := by
  rw [List.reverse_concat, List.findSome?_cons]
  cases f a <;> rfl

theorem eraseDups_eq_nil_iff [DecidableEq α] {l : List α} : l.eraseDups = [] ↔ l = [] := by
  cases l with
  | nil => simp
  | cons a l => simp [List.eraseDups_cons]

theorem eraseDups_of_nodup [DecidableEq α] {l : List α} (h : l.Nodup) : l.eraseDups = l := by
  induction l with
  | nil => simp
  | cons a l ih =>
    obtain ⟨ha, hl⟩ := List.nodup_cons.1 h
    have hf : l.filter (fun b => !b == a) = l := by
      refine List.filter_eq_self.2 fun b hb => ?_
      have hne : b ≠ a := fun e => ha (e ▸ hb)
      simpa using hne
    rw [List.eraseDups_cons, hf, ih hl]

theorem nodup_eraseDups [DecidableEq α] (l : List α) : l.eraseDups.Nodup := by
  match l with
  | [] => exact List.nodup_nil
  | a :: l =>
    have hlength := List.length_filter_le (fun b => !b == a) l
    rw [List.eraseDups_cons]
    refine List.nodup_cons.2 ⟨fun hmem => ?_, nodup_eraseDups _⟩
    simpa using (List.mem_filter.1 (List.mem_eraseDups.1 hmem)).2
termination_by l.length
decreasing_by exact Nat.lt_succ_of_le hlength

/-- What is written for every item of a list is read back as the list. -/
theorem mapM_map_eq_some {f : α → β} {g : β → Option α} {l : List α}
    (h : ∀ a ∈ l, g (f a) = some a) : (l.map f).mapM g = some l := by
  induction l with
  | nil => rfl
  | cons a l ih =>
    obtain ⟨ha, hl⟩ := List.forall_mem_cons.1 h
    rw [List.map_cons, List.mapM_cons, ha, ih hl]
    rfl

/-- All items one after the other, by their positions. -/
theorem filterMap_range_getElem? (f : α → β) (l : List α) :
    (List.range l.length).filterMap (fun i => l[i]?.map f) = l.map f := by
  induction l with
  | nil => rfl
  | cons a l ih =>
    rw [List.length_cons, List.range_succ_eq_map, List.filterMap_cons, List.filterMap_map,
      List.map_cons, ← ih]
    rfl

end Mediatheque
