import Mediatheque.Proofs.Bus.Delivery
import Mediatheque.Proofs.Bus.Subscriptions

/-!
# What a call hears

A call takes from the sink of its subscription what has been published since it subscribed. If the
sink has had room for everything (`Bus.HasRoom`), what the call has taken and what it has not yet
read is all of that, in order and without gaps (`Caller.Hears`). This is so when it has subscribed
(`Hears.of_subscribe`), whatever others do (`Hears.runs`), and while it takes and leaves
(`Hears.take`, `Hears.leave`).
-/

namespace Mediatheque

namespace Bus

variable {α : Type}

/-- Whenever a message is offered to a sink, fewer wait there than a subscription has room for. -/
def HasRoom (acts : List (Act α)) (place : Nat) : Prop :=
  ∀ before source m refusal after, acts = before ++ .offer source place m refusal :: after →
    (waiting before place).length < Sink.defaultCapacity

theorem HasRoom.of_append {acts more : List (Act α)} {place : Nat}
    (h : HasRoom (acts ++ more) place) : HasRoom acts place := by
  intro before source m refusal after hacts
  refine h before source m refusal (after ++ more) ?_
  rw [hacts, List.append_assoc, List.cons_append]

/-- A run that is short enough leaves room in every sink. -/
theorem hasRoom_of_length {acts : List (Act α)} (h : acts.length ≤ Sink.defaultCapacity)
    (place : Nat) : HasRoom acts place := by
  rintro before source m refusal after rfl
  have hwaiting : (waiting before place).length ≤ before.length := by
    rw [waiting]
    split
    · exact Nat.le_trans (List.drop_sublist _ _).length_le (List.length_filterMap_le _ _)
    · exact Nat.zero_le _
  rw [List.length_append, List.length_cons] at h
  omega

end Bus

namespace Caller

open Bus (Act HasRoom Traffic waiting)

variable {acts : List (Act Event)} {s s' : Traffic Event} {c c' : Caller}

/-- What has been published by the hub of a call since it subscribed. -/
def publishedSince (c : Caller) (s : Traffic Event) : List Event :=
  (s.publishedBy c.call.subscription.hub).drop c.since

/-- A call takes what has been published since it subscribed. If its sink has always had room,
nothing of that is missing. -/
structure Hears (acts : List (Act Event)) (s : Traffic Event) (c : Caller) : Prop where
  linked : s.Linked c.call.subscription c.subscribed
  since : c.since ≤ (s.publishedBy c.call.subscription.hub).length
  sublist : (c.taken ++ s.unread c.place).Sublist (c.publishedSince s)
  gapless : HasRoom acts c.place → ∃ missed,
    c.taken ++ s.unread c.place ++ missed = c.publishedSince s ∧
      (c.subscribed = true → missed = [])

namespace Hears

/-- Whatever others do, the call goes on to hear what is published. -/
theorem step (h : Hears acts s c) (hwaiting : waiting acts c.place = (s.bus.sink c.place).queue)
    {a : Act Event} (hstep : s.Step a s') (hothers : ¬ a.Concerns c.call.subscription) :
    Hears (acts ++ [a]) s' c := by
  have hlinked := Bus.Traffic.linked_step h.linked hstep hothers
  obtain ⟨news, hnews, hsub, hall⟩ := Bus.Traffic.unread_step h.linked hstep hothers
  have hsince : c.publishedSince s' = c.publishedSince s ++ news := by
    rw [publishedSince, hnews, List.drop_append_of_le_length h.since, publishedSince]
  refine ⟨hlinked, ?_, ?_, fun hroom => ?_⟩
  · rw [hnews, List.length_append]
    exact Nat.le_trans h.since (Nat.le_add_right _ _)
  · rw [hsince]
    refine (hsub.append_left c.taken).trans ?_
    rw [← List.append_assoc]
    exact h.sublist.append_right news
  · obtain ⟨missed, hmissed, hnone⟩ := h.gapless hroom.of_append
    rw [hsince]
    cases hlive : c.subscribed with
    | true =>
      rw [hnone hlive, List.append_nil] at hmissed
      have hunread := hall hlive fun source m refusal ha =>
        hwaiting ▸ hroom acts source m refusal [] (ha ▸ rfl)
      refine ⟨[], ?_, fun _ => rfl⟩
      rw [List.append_nil, ← hmissed, List.append_assoc]
      exact congrArg (c.taken ++ ·) hunread
    | false =>
      rw [hlive] at hlinked
      have hbefore := h.linked
      rw [hlive] at hbefore
      refine ⟨missed ++ news, ?_, fun hn => absurd hn Bool.false_ne_true⟩
      rw [← hmissed, place, hlinked.unread_eq_nil, hbefore.unread_eq_nil, List.append_assoc,
        List.append_assoc, List.append_assoc]

theorem runs (h : Hears acts s c) (hkept : Bus.Traffic.Kept (.addHub :: acts) s)
    {more : List (Act Event)} (hruns : s.Runs more s')
    (hothers : ∀ a ∈ more, ¬ a.Concerns c.call.subscription) : Hears (acts ++ more) s' c := by
  induction hruns generalizing acts with
  | nil =>
    rw [List.append_nil]
    exact h
  | @cons s s₁ s' a more hstep _ ih =>
    obtain ⟨ha, hmore⟩ := List.forall_mem_cons.1 hothers
    have hwaiting : waiting acts c.place = (s.bus.sink c.place).queue :=
      (hkept.sinks.sinks c.place).waiting_eq
    rw [List.append_cons]
    exact ih (h.step hwaiting hstep ha) (Bus.Traffic.kept_step hkept hstep) hmore

/-- The record of a call changes in something else. -/
theorem congr (h : Hears acts s c) (hsubscription : c'.call.subscription = c.call.subscription)
    (hsince : c'.since = c.since) (htaken : c'.taken = c.taken)
    (hsubscribed : c'.subscribed = c.subscribed) : Hears acts s c' := by
  have hplace : c'.place = c.place := congrArg Subscription.sink hsubscription
  have hpublished : c'.publishedSince s = c.publishedSince s := by
    rw [publishedSince, hsubscription, hsince, publishedSince]
  refine ⟨?_, ?_, ?_, ?_⟩
  · rw [hsubscription, hsubscribed]
    exact h.linked
  · rw [hsubscription, hsince]
    exact h.since
  · rw [htaken, hplace, hpublished]
    exact h.sublist
  · rw [htaken, hplace, hpublished, hsubscribed]
    exact h.gapless

/-- A call that has just subscribed has missed nothing. -/
theorem of_subscribe (hplaced : s.Placed) {hub : Nat} (hhub : hub < s.bus.hubs.length)
    (hsubscription : c.call.subscription = (s.bus.subscribe hub).2)
    (hsince : c.since = (s.publishedBy hub).length) (htaken : c.taken = [])
    (hsubscribed : c.subscribed = true) (acts : List (Act Event)) :
    Hears acts (s.withBus (s.bus.subscribe hub).1) c := by
  have hpublished : c.publishedSince (s.withBus (s.bus.subscribe hub).1) = [] := by
    rw [publishedSince, hsubscription, hsince]
    exact List.drop_length
  have hunread : (s.withBus (s.bus.subscribe hub).1).unread c.place = [] := by
    have hqueue : ((s.bus.subscribe hub).1.sink (s.bus.subscribe hub).2.sink).queue = [] := by
      rw [Bus.sink_subscribe]
      rfl
    rw [Bus.Traffic.unread, place, hsubscription]
    exact List.append_eq_nil_iff.2 ⟨hqueue, Bus.pending_eq_nil hplaced.due_eq_nil⟩
  refine ⟨?_, ?_, ?_, fun _ => ⟨[], ?_, fun _ => rfl⟩⟩
  · rw [hsubscription, hsubscribed]
    exact Bus.Traffic.linked_subscribe hplaced hhub
  · rw [hsubscription, hsince]
    exact Nat.le_refl _
  · rw [hunread, htaken]
    exact List.nil_sublist _
  · rw [hunread, htaken, hpublished]
    rfl

/-- What a call takes was the first that it had not read. -/
theorem take (h : Hears acts s c) (left : Nat) (more : List (Act Event)) :
    Hears (acts ++ more) (s.withBus (s.bus.setSink c.place (s.bus.sink c.place).next?.2))
      (c.take left (s.bus.sink c.place).next?.1) := by
  have hsubscription := c.subscription_take left (s.bus.sink c.place).next?.1
  have hplace : (c.take left (s.bus.sink c.place).next?.1).place = c.place :=
    congrArg Subscription.sink hsubscription
  have hpublished : (c.take left (s.bus.sink c.place).next?.1).publishedSince
      (s.withBus (s.bus.setSink c.place (s.bus.sink c.place).next?.2)) = c.publishedSince s := by
    rw [publishedSince, hsubscription, since_take]
    rfl
  have hunread : (c.take left (s.bus.sink c.place).next?.1).taken ++
      (s.withBus (s.bus.setSink c.place (s.bus.sink c.place).next?.2)).unread c.place =
        c.taken ++ s.unread c.place := by
    have hsink : (s.bus.setSink c.place (s.bus.sink c.place).next?.2).sink c.place =
        (s.bus.sink c.place).next?.2 := by
      rw [Bus.sink_setSink, if_pos ⟨rfl, h.linked.place⟩]
    rw [taken_take, Bus.Traffic.unread, Bus.Traffic.unread, Bus.Traffic.withBus, hsink,
      Sink.next?_eq]
    cases (s.bus.sink c.place).queue <;> simp
  refine ⟨?_, ?_, ?_, fun hroom => ?_⟩
  · rw [hsubscription, subscribed_take]
    refine h.linked.withSink ?_ ?_ fun hgone => ?_
    · rw [Sink.next?_eq]
      rfl
    · rw [Sink.next?_eq]
      rfl
    · rw [Sink.next?_eq, place, h.linked.gone hgone]
      rfl
  · rw [hsubscription, since_take]
    exact h.since
  · rw [hplace, hpublished, hunread]
    exact h.sublist
  · rw [hplace, hpublished, hunread, subscribed_take]
    rw [hplace] at hroom
    exact h.gapless hroom.of_append

/-- When its subscription has ended a call hears nothing any more. -/
theorem leave (h : Hears acts s c) (hsubscribed : c.subscribed = true)
    (hfree : s.IsFree c.call.subscription.hub) (more : List (Act Event)) :
    Hears (acts ++ more) (s.withBus (s.bus.unsubscribe c.call.subscription))
      { c with subscribed := false } := by
  have hlinked := h.linked
  rw [hsubscribed] at hlinked
  have hgone := hlinked.unsubscribe hfree
  refine ⟨hgone, h.since, ?_, fun hroom => ?_⟩
  · rw [place, hgone.unread_eq_nil, List.append_nil]
    exact (List.sublist_append_left ..).trans h.sublist
  · obtain ⟨missed, hmissed, -⟩ := h.gapless hroom.of_append
    refine ⟨s.unread c.place ++ missed, ?_, fun hn => absurd hn Bool.false_ne_true⟩
    rw [place, hgone.unread_eq_nil, List.append_nil, ← List.append_assoc]
    exact hmissed

end Hears

end Caller

end Mediatheque
