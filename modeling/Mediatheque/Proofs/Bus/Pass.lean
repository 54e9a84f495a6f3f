import Mediatheque.Proofs.Bus.Sink

/-!
# Passes

A pass takes messages that were queued when it began, and no others: it comes to the end of them,
to a message to quit, or to one after which the handler asks it to stop (`Ends`). Meanwhile the
handler puts messages back, of which the sink accepts what it has room for (`acceptedAmid`). They
queue up behind what the pass leaves, so that none of them is handed over in the same pass
(`ends_pass`).

The handler may be any: one that wants to know which of its messages are accepted can keep the sink
in its state.
-/

namespace Mediatheque

namespace Sink

variable {α σ : Type}

/-! ## Messages that are put back -/

/-- Of messages that are put in one after the other, those that the sink accepts. -/
def accepted (s : Sink α) : List α → List α
  | [] => []
  | m :: messages =>
    if s.accepts then m :: (s.put m).accepted messages else (s.put m).accepted messages

/-- What is accepted queues up, and nothing else changes. -/
theorem foldl_put_eq (messages : List α) (s : Sink α) :
    messages.foldl put s = { s with queue := s.queue ++ s.accepted messages } := by
  induction messages generalizing s with
  | nil => rw [List.foldl_nil, accepted, List.append_nil]
  | cons m messages ih =>
    rw [List.foldl_cons, ih, accepted, put_eq]
    cases s.accepts with
    | true => simp
    | false => rfl

variable (handle : σ → α → σ × List α × Flow)

/-- What a sink accepts of the messages that a handler puts back, each time after one has been
taken from the sink and handed over. -/
def acceptedAmid (state : σ) (s : Sink α) : List α → List α
  | [] => []
  | m :: handed =>
    s.next?.2.accepted (handle state m).2.1 ++
      acceptedAmid (handle state m).1 ((handle state m).2.1.foldl put s.next?.2) handed

/-! ## Where a pass ends -/

/-- The state of a handler that has been handed messages. -/
def stateAfter (state : σ) (messages : List α) : σ :=
  messages.foldl (fun state m => (handle state m).1) state

/-- A handler that is handed messages asks for more after each of them. -/
def AsksForMore (state : σ) (messages : List α) : Prop :=
  ∀ before m after, messages = before ++ m :: after →
    (handle (stateAfter handle state before) m).2.2 = .go

variable {handle} {state : σ}

theorem asksForMore_nil : AsksForMore handle state [] := fun before _ _ h =>
  absurd h.symm (List.append_ne_nil_of_right_ne_nil before (List.cons_ne_nil _ _))

theorem AsksForMore.cons {m : α} {messages : List α} (hgo : (handle state m).2.2 = .go)
    (h : AsksForMore handle (handle state m).1 messages) :
    AsksForMore handle state (m :: messages) := by
  intro before n after hsplit
  cases before with
  | nil =>
    obtain ⟨rfl, -⟩ := List.cons.inj hsplit
    exact hgo
  | cons b before =>
    obtain ⟨rfl, hrest⟩ := List.cons.inj hsplit
    exact h before n after hrest

variable [BusMessage α]

variable (handle state) in
/-- How a pass ends that begins with the messages of a queue: which of them are handed over, which
are left, and what the pass tells. -/
inductive Ends : List α → List α → List α → Pass → Prop where
  /-- All are handed over. -/
  | through {queue : List α} (hstay : ∀ m ∈ queue, BusMessage.isQuit m = false)
      (hgo : AsksForMore handle state queue) : Ends queue queue [] ⟨queue.length, true⟩
  /-- The first message to quit is taken, but not handed over. -/
  | quit {handed rest : List α} {m : α} (hstay : ∀ m ∈ handed, BusMessage.isQuit m = false)
      (hgo : AsksForMore handle state handed) (hquit : BusMessage.isQuit m = true) :
      Ends (handed ++ m :: rest) handed rest ⟨handed.length + 1, false⟩
  /-- The handler asks to stop after a message. -/
  | stop {handed rest : List α} {m : α} (hstay : ∀ m ∈ handed, BusMessage.isQuit m = false)
      (hgo : AsksForMore handle state handed) (hm : BusMessage.isQuit m = false)
      (hstop : (handle (stateAfter handle state handed) m).2.2 = .stop) :
      Ends (handed ++ m :: rest) (handed ++ [m]) rest ⟨handed.length + 1, false⟩

/-- Before a pass that ends somewhere, one more message may be handed over. -/
theorem Ends.cons {m : α} {queue handed rest : List α} {pass : Pass}
    (hstay : BusMessage.isQuit m = false) (hgo : (handle state m).2.2 = .go)
    (h : Ends handle (handle state m).1 queue handed rest pass) :
    Ends handle state (m :: queue) (m :: handed) rest ⟨pass.handled + 1, pass.keepRunning⟩ := by
  cases h with
  | through hall hmore => exact .through (List.forall_mem_cons.2 ⟨hstay, hall⟩) (.cons hgo hmore)
  | quit hall hmore hquit =>
    exact .quit (List.forall_mem_cons.2 ⟨hstay, hall⟩) (.cons hgo hmore) hquit
  | stop hall hmore hlast hstop =>
    exact .stop (List.forall_mem_cons.2 ⟨hstay, hall⟩) (.cons hgo hmore) hlast hstop

/-- A pass takes what it does not leave. -/
theorem Ends.handled_add_length {queue handed rest : List α} {pass : Pass}
    (h : Ends handle state queue handed rest pass) :
    pass.handled + rest.length = queue.length := by
  cases h with
  | through => rfl
  | quit => simp only [List.length_append, List.length_cons]; omega
  | stop => simp only [List.length_append, List.length_cons]; omega

/-! ## A pass -/

variable (handle) in
/-- What is queued behind the messages of a pass stays behind what the pass leaves, and what the
sink accepts meanwhile comes last. -/
theorem ends_passUpTo (capacity : Nat) (isOpen : Bool) (queue behind : List α) (state : σ) :
    ∃ handed rest pass, Ends handle state queue handed rest pass ∧
      passUpTo handle queue.length state ⟨capacity, queue ++ behind, isOpen⟩ =
        (pass, stateAfter handle state handed, ⟨capacity, rest ++ behind ++
          acceptedAmid handle state ⟨capacity, queue ++ behind, isOpen⟩ handed, isOpen⟩) := by
  induction queue generalizing behind state with
  | nil =>
    refine ⟨[], [], _, .through (List.forall_mem_nil _) asksForMore_nil, ?_⟩
    rw [acceptedAmid, List.append_nil]
    rfl
  | cons m queue ih =>
    have htaken : (⟨capacity, m :: queue ++ behind, isOpen⟩ : Sink α).next? =
        (some m, ⟨capacity, queue ++ behind, isOpen⟩) := rfl
    rw [List.length_cons, passUpTo, htaken]
    dsimp only
    cases hquit : BusMessage.isQuit m with
    | true =>
      refine ⟨[], queue, _, .quit (List.forall_mem_nil _) asksForMore_nil hquit, ?_⟩
      rw [if_pos rfl, acceptedAmid, List.append_nil]
      rfl
    | false =>
      -- What the handler puts back is accepted behind the rest of the queue.
      have hput := foldl_put_eq (handle state m).2.1 ⟨capacity, queue ++ behind, isOpen⟩
      rw [if_neg Bool.false_ne_true]
      cases hflow : (handle state m).2.2 with
      | stop =>
        refine ⟨[m], queue, _, .stop (List.forall_mem_nil _) asksForMore_nil hquit hflow, ?_⟩
        rw [hput, acceptedAmid, acceptedAmid, htaken, List.append_nil]
        rfl
      | go =>
        obtain ⟨handed, rest, pass, hends, hpass⟩ := ih (behind ++
          (⟨capacity, queue ++ behind, isOpen⟩ : Sink α).accepted (handle state m).2.1)
          (handle state m).1
        refine ⟨m :: handed, rest, _, hends.cons hquit hflow, ?_⟩
        rw [← List.append_assoc] at hpass
        rw [acceptedAmid, htaken, hput]
        dsimp only
        rw [hpass, ← List.append_assoc, ← List.append_assoc]
        rfl

/-- A pass hands over the messages of the queue in their order, up to where it ends. What it
leaves is first in the queue afterwards, and behind that is what the sink accepted meanwhile. -/
theorem ends_pass (handle : σ → α → σ × List α × Flow) (state : σ) (s : Sink α) :
    ∃ handed rest, Ends handle state s.queue handed rest (s.pass handle state).1 ∧
      (s.pass handle state).1.handled + rest.length = s.queue.length ∧
      (s.pass handle state).2.1 = stateAfter handle state handed ∧
      (s.pass handle state).2.2 =
        { s with queue := rest ++ s.acceptedAmid handle state handed } := by
  obtain ⟨handed, rest, pass, hends, hpass⟩ :=
    ends_passUpTo handle s.capacity s.isOpen s.queue [] state
  rw [List.append_nil, List.append_nil] at hpass
  have hsame : s.pass handle state = _ := hpass
  rw [hsame]
  exact ⟨handed, rest, hends, hends.handled_add_length, rfl, rfl⟩

end Sink

end Mediatheque
