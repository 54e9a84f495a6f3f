import Mediatheque.Bus.Sink

/-!
# What a sink holds

A message that is put into a sink is the last of its queue, or it is lost (`queue_put`); so a
queue only grows until something is taken (`exists_queue_foldl_put`). A pass changes the state of
its handler by messages of the sink and by nothing else (`pass_preserves`).
-/

namespace Mediatheque

namespace Sink

variable {α σ : Type}

/-- Whether a message that is put into a sink is kept. -/
def accepts (s : Sink α) : Bool := s.isOpen && !s.isFull

theorem accepts_eq_true {s : Sink α} :
    s.accepts = true ↔ s.isOpen = true ∧ s.queue.length < s.capacity := by
  rw [accepts, Bool.and_eq_true, Bool.not_eq_true', isFull, decide_eq_false_iff_not, Nat.not_le]

theorem offer_of_accepts {s : Sink α} (h : s.accepts = true) (m : α) :
    s.offer m = .ok { s with queue := s.queue ++ [m] } := by
  rw [accepts, Bool.and_eq_true, Bool.not_eq_true'] at h
  rw [offer, h.1, h.2, if_neg Bool.false_ne_true]
  exact if_neg Bool.false_ne_true

/-- Why a message may be refused. -/
theorem eq_full_or_disconnected {s : Sink α} {m : α} {e : BusError} (h : s.offer m = .error e) :
    e = .full ∨ e = .disconnected := by
  rw [offer] at h
  split at h
  · exact .inr (Except.error.inj h).symm
  · split at h
    · exact .inl (Except.error.inj h).symm
    · cases h

theorem put_eq (s : Sink α) (m : α) :
    s.put m = if s.accepts then { s with queue := s.queue ++ [m] } else s := by
  rw [put, offer, accepts]
  cases s.isOpen with
  | false => rfl
  | true => cases s.isFull <;> rfl

/-- Why a message that is offered to a sink is refused, if it is. -/
def refusal (s : Sink α) (m : α) : Option BusError :=
  match s.offer m with
  | .ok _ => none
  | .error e => some e

theorem refusal_eq_none {s : Sink α} {m : α} : s.refusal m = none ↔ s.accepts = true := by
  rw [refusal, offer, accepts]
  cases s.isOpen with
  | false => simp
  | true => cases s.isFull <;> simp

theorem put_of_refusal {s : Sink α} {m : α} {e : BusError} (h : s.refusal m = some e) :
    s.put m = s := by
  rw [put_eq, if_neg]
  intro haccepts
  rw [refusal_eq_none.2 haccepts] at h
  cases h

/-- A message that is put into a sink is the last of the queue, or it is lost. -/
theorem queue_put (s : Sink α) (m : α) :
    (s.put m).queue = s.queue ∨ (s.put m).queue = s.queue ++ [m] := by
  rw [put_eq]
  split
  · exact .inr rfl
  · exact .inl rfl

theorem queue_next? {s rest : Sink α} {m : α} (h : s.next? = (some m, rest)) :
    s.queue = m :: rest.queue := by
  rw [next?] at h
  split at h
  · cases h
  · rename_i hq
    cases h
    exact hq

/-- The first message is taken, and the rest stays as it is. -/
theorem next?_eq (s : Sink α) : s.next? = (s.queue.head?, { s with queue := s.queue.tail }) := by
  obtain ⟨capacity, queue, isOpen⟩ := s
  cases queue <;> rfl

theorem mem_queue_put {s : Sink α} {m a : α} (h : a ∈ (s.put m).queue) : a ∈ s.queue ∨ a = m := by
  rcases queue_put s m with hq | hq
  · exact .inl (hq ▸ h)
  · rw [hq] at h
    simpa using h

theorem countP_queue_put_le (s : Sink α) (m : α) (test : α → Bool) :
    (s.put m).queue.countP test ≤ s.queue.countP test + if test m then 1 else 0 := by
  rcases queue_put s m with hq | hq
  · rw [hq]
    exact Nat.le_add_right _ _
  · exact Nat.le_of_eq (by rw [hq, List.countP_append, List.countP_singleton])

/-- Of the messages that are put in some are queued, in their order behind those that wait. -/
theorem exists_queue_foldl_put (messages : List α) (s : Sink α) :
    ∃ taken, taken.Sublist messages ∧ (messages.foldl put s).queue = s.queue ++ taken := by
  induction messages generalizing s with
  | nil => exact ⟨[], .slnil, (List.append_nil _).symm⟩
  | cons m messages ih =>
    obtain ⟨taken, hsub, hqueue⟩ := ih (s.put m)
    rw [List.foldl_cons, hqueue]
    rcases queue_put s m with h | h
    · exact ⟨taken, hsub.cons m, by rw [h]⟩
    · exact ⟨m :: taken, hsub.cons_cons m, by rw [h, List.append_assoc]; rfl⟩

theorem mem_queue_foldl_put {messages : List α} {s : Sink α} {a : α}
    (h : a ∈ (messages.foldl put s).queue) : a ∈ s.queue ∨ a ∈ messages := by
  obtain ⟨taken, hsub, hqueue⟩ := exists_queue_foldl_put messages s
  rw [hqueue] at h
  rcases List.mem_append.1 h with hold | hnew
  · exact .inl hold
  · exact .inr (hsub.subset hnew)

/-! ## Passes -/

section

variable [BusMessage α] {handle : σ → α → σ × List α × Flow} {p : σ → Prop}
  (hstep : ∀ state m, p state → p (handle state m).1)
include hstep

theorem passUpTo_preserves (n : Nat) {state : σ} (h : p state) (s : Sink α) :
    p (passUpTo handle n state s).2.1 := by
  induction n generalizing state s with
  | zero => exact h
  | succ n ih =>
    rw [passUpTo]
    split
    · exact h
    · rename_i m rest _
      split
      · exact h
      · have hm := hstep state m h
        generalize handle state m = answer at hm ⊢
        obtain ⟨state', back, flow⟩ := answer
        cases flow with
        | stop => exact hm
        | go => exact ih hm _

/-- What every message keeps of the state of the handler, a pass keeps. -/
theorem pass_preserves {state : σ} (h : p state) (s : Sink α) : p (s.pass handle state).2.1 :=
  passUpTo_preserves hstep s.queue.length h s

end

end Sink

end Mediatheque
