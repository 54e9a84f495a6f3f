import Mediatheque.Proofs.Bus.Delivery

/-!
# Operations of a bus

Each operation of a bus is a run of acts on single sinks and hubs (`Traffic.Operations`). Others
may do something between any two of them. So what is true of runs (`Traffic.delivery_of_runs`) is
true of any interleaving of operations (`Traffic.operations_deliver`).
-/

namespace Mediatheque

namespace Bus

namespace Traffic

variable {α σ : Type}

/-! ## At one sink -/

/-- A sink has another content. -/
def withSink (s : Traffic α) (place : Nat) (t : Sink α) : Traffic α :=
  s.withBus (s.bus.setSink place t)

/-- What the consumer of a sink does, and what its handler does with the same sink. -/
def AtSink (place : Nat) (a : Act α) : Prop :=
  (∃ message, a = .take place message) ∨ ∃ m refusal, a = .offer none place m refusal

theorem withSink_withSink (s : Traffic α) (place : Nat) (t u : Sink α) :
    (s.withSink place t).withSink place u = s.withSink place u :=
  congrArg s.withBus (setSink_setSink s.bus place t u)

section

variable {s : Traffic α} {place : Nat} (h : place < s.bus.sinks.length)
include h

theorem withSink_sink : s.withSink place (s.bus.sink place) = s :=
  congrArg s.withBus (setSink_sink h)

theorem withSink_spec (t : Sink α) :
    (s.withSink place t).bus.sink place = t ∧
      place < (s.withSink place t).bus.sinks.length := by
  refine ⟨?_, (length_sinks_setSink s.bus place t).symm ▸ h⟩
  rw [withSink, withBus, sink_setSink, if_pos ⟨rfl, h⟩]

theorem step_put (t : Sink α) (m : α) :
    Step (s.withSink place t) (.offer none place m (t.refusal m)) (s.withSink place (t.put m)) := by
  obtain ⟨hsink, hplace⟩ := withSink_spec h t
  have hstep := Step.offer (s.withSink place t) hplace m
  rw [put, hsink] at hstep
  rw [← withSink_withSink s place t (t.put m)]
  exact hstep

theorem step_next? (t : Sink α) :
    Step (s.withSink place t) (.take place t.next?.1) (s.withSink place t.next?.2) := by
  obtain ⟨hsink, hplace⟩ := withSink_spec h t
  have hstep := Step.take (s.withSink place t) hplace
  rw [hsink] at hstep
  rw [← withSink_withSink s place t t.next?.2]
  exact hstep

theorem runs_put (messages : List α) (t : Sink α) :
    ∃ acts, (∀ a ∈ acts, AtSink place a) ∧ delivered acts place = [] ∧
      Runs (s.withSink place t) acts (s.withSink place (messages.foldl Sink.put t)) := by
  induction messages generalizing t with
  | nil => exact ⟨[], List.forall_mem_nil _, rfl, .nil _⟩
  | cons m rest ih =>
    obtain ⟨acts, hacts, hdelivered, hruns⟩ := ih (t.put m)
    exact ⟨_, List.forall_mem_cons.2 ⟨.inr ⟨m, _, rfl⟩, hacts⟩, hdelivered,
      .cons (step_put h t m) hruns⟩

theorem runs_drain (t : Sink α) :
    Runs (s.withSink place t) (t.drain.1.map fun m => .take place (some m))
      (s.withSink place t.drain.2) := by
  obtain ⟨capacity, queue, isOpen⟩ := t
  induction queue with
  | nil => exact .nil _
  | cons m rest ih => exact .cons (step_next? h ⟨capacity, m :: rest, isOpen⟩) ih

theorem runs_passUpTo [BusMessage α] (handle : σ → α → σ × List α × Flow) (n : Nat) (state : σ)
    (t : Sink α) :
    ∃ acts, (∀ a ∈ acts, AtSink place a) ∧
      (delivered acts place).length = (t.passUpTo handle n state).1.handled ∧
      Runs (s.withSink place t) acts (s.withSink place (t.passUpTo handle n state).2.2) := by
  induction n generalizing state t with
  | zero => exact ⟨[], List.forall_mem_nil _, rfl, .nil _⟩
  | succ n ih =>
    have hfirst := step_next? h t
    rw [Sink.passUpTo]
    generalize t.next? = next at hfirst ⊢
    rcases next with ⟨_ | m, rest⟩
    · exact ⟨_, List.forall_mem_singleton.2 (.inl ⟨none, rfl⟩), rfl, .single hfirst⟩
    · have htaken : AtSink place (.take place (some m)) := .inl ⟨some m, rfl⟩
      have hcount (acts : List (Act α)) :
          (delivered (.take place (some m) :: acts) place).length =
            (delivered acts place).length + 1 := by
        simp [delivered]
      dsimp only
      split
      · exact ⟨_, List.forall_mem_singleton.2 htaken, hcount [], .single hfirst⟩
      · generalize handle state m = answer
        obtain ⟨state', back, flow⟩ := answer
        obtain ⟨puts, hputs, hnone, hruns⟩ := runs_put h back rest
        cases flow with
        | stop =>
          refine ⟨.take place (some m) :: puts, List.forall_mem_cons.2 ⟨htaken, hputs⟩, ?_,
            .cons hfirst hruns⟩
          rw [hcount, hnone]
          rfl
        | go =>
          obtain ⟨acts, hacts, hhandled, hrest⟩ := ih state' (back.foldl Sink.put rest)
          refine ⟨.take place (some m) :: (puts ++ acts), List.forall_mem_cons.2
            ⟨htaken, List.forall_mem_append.2 ⟨hputs, hacts⟩⟩, ?_,
            .cons hfirst (hruns.trans hrest)⟩
          rw [hcount, delivered_append, hnone, List.nil_append, hhandled]

end

/-! ## At many sinks -/

/-- A publication reaches all that it has ahead. -/
theorem runs_reach (b : Bus α) (publications : List (Publication α)) (hub : Nat) (m : α)
    (connections : List (Nat × Nat)) :
    ∃ acts, (∀ a ∈ acts, ∃ number place refusal,
        a = .offer (some (publications.length, number)) place m refusal) ∧
      Runs ⟨b, publications ++ [⟨hub, m, connections⟩]⟩ acts
        ⟨connections.foldl (fun b c => b.put c.2 m) b, publications ++ [⟨hub, m, []⟩]⟩ := by
  induction connections generalizing b with
  | nil => exact ⟨[], List.forall_mem_nil _, .nil _⟩
  | cons c rest ih =>
    obtain ⟨number, place⟩ := c
    obtain ⟨acts, hacts, hruns⟩ := ih (b.put place m)
    have hreach := Step.reach
      ⟨b, publications ++ [⟨hub, m, (number, place) :: rest⟩]⟩ List.getElem?_concat_length
    rw [List.set_append_right _ _ (Nat.le_refl _), Nat.sub_self] at hreach
    exact ⟨_, List.forall_mem_cons.2 ⟨⟨number, place, _, rfl⟩, hacts⟩, .cons hreach hruns⟩

/-- A message that is refused changes nothing. -/
theorem bus_of_refused {s s' : Traffic α} {source : Option (Nat × Nat)} {place : Nat} {m : α}
    {e : BusError} (hstep : Step s (.offer source place m (some e)) s') : s'.bus = s.bus := by
  have hput (hrefusal : (s.bus.sink place).refusal m = some e) : s.bus.put place m = s.bus := by
    rw [put, Sink.put_of_refusal hrefusal]
    by_cases hplace : place < s.bus.sinks.length
    · exact setSink_sink hplace
    · rw [setSink, List.set_eq_of_length_le (Nat.le_of_not_lt hplace)]
  generalize hrefusal : some e = refusal at hstep
  cases hstep with
  | offer => exact hput hrefusal.symm
  | reach => exact hput hrefusal.symm

/-- A connection that is ended is one of that hub, and no sink loses what it has queued. -/
theorem bus_of_disconnected {s s' : Traffic α} {hub number : Nat}
    (hstep : Step s (.disconnect hub number) s') :
    s'.bus.sinks = s.bus.sinks ∧ ∀ q, (s'.bus.hub q).connections =
      (s.bus.hub q).connections.filter fun c => ¬ (q = hub ∧ c.1 = number) := by
  cases hstep with
  | disconnect =>
    refine ⟨rfl, fun q => ?_⟩
    rw [withBus, hub_disconnect]
    by_cases hq : q = hub
    · simp [hq]
    · simp [hq]

/-! ## Operations -/

/-- The operations of a bus are runs. -/
structure Operations [BusMessage α] (s : Traffic α) : Prop where
  drain : ∀ place, place < s.bus.sinks.length →
    Runs s ((s.bus.sink place).drain.1.map fun m => .take place (some m))
      (s.withSink place (s.bus.sink place).drain.2)
  pass : ∀ {σ : Type} (handle : σ → α → σ × List α × Flow) (state : σ) (place : Nat),
    place < s.bus.sinks.length →
      ∃ acts, (∀ a ∈ acts, AtSink place a) ∧
        (delivered acts place).length = ((s.bus.sink place).pass handle state).1.handled ∧
        Runs s acts (s.withSink place ((s.bus.sink place).pass handle state).2.2)
  publish : ∀ hub m, s.IsFree hub →
    ∃ acts, (∀ a ∈ acts, ∃ number place refusal,
        a = .offer (some (s.publications.length, number)) place m refusal) ∧
      Runs s (.publish hub m :: acts)
        ⟨s.bus.publish hub m, s.publications ++ [⟨hub, m, []⟩]⟩
  subscribe : ∀ hub, hub < s.bus.hubs.length → s.IsFree hub →
    Runs s [.addSink Sink.defaultCapacity,
        .connect hub s.bus.sinks.length (s.bus.subscribe hub).2.connection]
      (s.withBus (s.bus.subscribe hub).1)
  unsubscribe : ∀ u : Subscription, u.sink < s.bus.sinks.length → s.IsFree u.hub →
    Runs s [.disconnect u.hub u.connection, .drop u.sink] (s.withBus (s.bus.unsubscribe u))

theorem operations [BusMessage α] (s : Traffic α) : Operations s where
  drain place h := by
    have hruns := runs_drain h (s.bus.sink place)
    rw [withSink_sink h] at hruns
    exact hruns
  pass handle state place h := by
    have hruns := runs_passUpTo h handle (s.bus.sink place).queue.length state (s.bus.sink place)
    rw [withSink_sink h] at hruns
    exact hruns
  publish hub m hfree := by
    obtain ⟨acts, hacts, hruns⟩ :=
      runs_reach s.bus s.publications hub m (s.bus.hub hub).connections
    exact ⟨acts, hacts, .cons (.publish s hfree m) hruns⟩
  subscribe hub hhub hfree := by
    have hlength : (s.bus.sinks ++ [Sink.new Sink.defaultCapacity]).length =
        s.bus.sinks.length + 1 := List.length_append
    exact .cons (.addSink s _) (.single
      (.connect _ hhub (Nat.lt_of_lt_of_eq (Nat.lt_succ_self _) hlength.symm) hfree))
  unsubscribe u hsink hfree := .cons (.disconnect s hfree _) (.single (.drop _ hsink))

/-- However many use a bus, whatever they do in which order, it delivers from each sink what that
has accepted, once and in order. What is refused changes nothing, and a connection that is ended
changes nothing else. -/
theorem operations_deliver [BusMessage α] :
    (∀ (acts : List (Act α)) (s : Traffic α), Runs {} acts s → Delivery acts s) ∧
      (∀ s : Traffic α, Operations s) ∧
      (∀ (s s' : Traffic α) source place m e,
        Step s (.offer source place m (some e)) s' → s'.bus = s.bus) ∧
      ∀ (s s' : Traffic α) hub number, Step s (.disconnect hub number) s' →
        s'.bus.sinks = s.bus.sinks ∧ ∀ q, (s'.bus.hub q).connections =
          (s.bus.hub q).connections.filter fun c => ¬ (q = hub ∧ c.1 = number) :=
  ⟨fun _ _ => delivery_of_runs, operations, fun _ _ _ _ _ _ => bus_of_refused,
    fun _ _ _ _ => bus_of_disconnected⟩

/-- A hub with two connections to one sink and one to another. A message is taken, and one refused,
while the hub publishes; one of the connections ends, and a sink goes away. -/
theorem operations_deliver_two_sinks :
    let first : Event := .creationDone
    let second : Event := .rescanDone ⟨7⟩
    let acts : List (Act Event) := [
      .addSink 0, .addSink 2, .addHub, .connect 0 0 1, .connect 0 1 2, .connect 0 1 3,
      .publish 0 first, .offer (some (0, 1)) 0 first none, .offer none 0 second (some .full),
      .offer (some (0, 2)) 1 first none, .take 1 (some first), .offer (some (0, 3)) 1 first none,
      .disconnect 0 3, .drop 0, .offer none 0 second (some .disconnected),
      .publish 0 second, .offer (some (1, 1)) 0 second (some .disconnected),
      .offer (some (1, 2)) 1 second none]
    ∃ s, Runs {} acts s ∧ Delivery acts s ∧
      delivered acts 1 = [first] ∧ (s.bus.sink 1).queue = [first, second] ∧
      accepted acts 1 = [first, first, second] ∧ standing 0 acts = [(1, 0), (2, 1)] := by
  intro first second acts
  have hruns : ∃ s, Runs {} acts s ∧ (s.bus.sink 1).queue = [first, second] := by
    refine ⟨_, .cons (.addSink _ 0) <| .cons (.addSink _ 2) <| .cons (.addHub _) <|
      .cons (.connect _ (by decide) (by decide) (by decide)) <|
      .cons (.connect _ (by decide) (by decide) (by decide)) <|
      .cons (.connect _ (by decide) (by decide) (by decide)) <|
      .cons (.publish _ (by decide) first) <| .cons (.reach _ rfl) <|
      .cons (.offer _ (by decide) second) <| .cons (.reach _ rfl) <|
      .cons (.take _ (by decide)) <| .cons (.reach _ rfl) <|
      .cons (.disconnect _ (by decide) 3) <| .cons (.drop _ (by decide)) <|
      .cons (.offer _ (by decide) second) <| .cons (.publish _ (by decide) second) <|
      .cons (.reach _ rfl) <| .cons (.reach _ rfl) <| .nil _, rfl⟩
  obtain ⟨s, hruns, hqueue⟩ := hruns
  exact ⟨s, hruns, operations_deliver.1 acts s hruns, rfl, hqueue, rfl, rfl⟩

end Traffic

end Bus

end Mediatheque
