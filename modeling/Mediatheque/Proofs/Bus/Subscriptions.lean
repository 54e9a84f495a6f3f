import Mathlib.Data.List.Basic
import Mediatheque.Proofs.Bus.Calls
import Mediatheque.Proofs.List

/-!
# Subscriptions

A subscription has a sink with one connection, and both are its own (`Traffic.Linked`), from its
beginning (`linked_subscribe`) to its end (`Linked.unsubscribe`). Of what others do on the bus only
publications have to do with it (`untouched_or_published`). So it stays as it is (`linked_step`),
and each message that its hub begins to publish waits first to be offered to the sink and then in
its queue (`unread_step`).
-/

namespace Mediatheque

namespace Bus

variable {α : Type}

/-! ## What a sink has yet to be offered -/

/-- A publication as often as it is yet to be offered to a sink. -/
def Publication.due (p : Publication α) (place : Nat) : List α :=
  (p.ahead.filter (·.2 = place)).map fun _ => p.message

/-- The messages that are being published and yet to be offered to a sink. -/
def pending (publications : List (Publication α)) (place : Nat) : List α :=
  publications.flatMap (·.due place)

theorem pending_eq_nil {publications : List (Publication α)} {place : Nat}
    (h : ∀ p ∈ publications, p.due place = []) : pending publications place = [] :=
  List.flatMap_eq_nil_iff.2 h

theorem pending_append (publications more : List (Publication α)) (place : Nat) :
    pending (publications ++ more) place =
      pending publications place ++ pending more place :=
  List.flatMap_append

theorem pending_singleton (p : Publication α) (place : Nat) : pending [p] place = p.due place :=
  List.flatMap_singleton ..

section

variable {publications : List (Publication α)} {k hub number place : Nat} {m : α}
  {ahead : List (Nat × Nat)}

/-- A publication reaches the sink in question. -/
theorem due_cons_self : (⟨hub, m, (number, place) :: ahead⟩ : Publication α).due place =
    m :: (⟨hub, m, ahead⟩ : Publication α).due place := by
  simp [Publication.due]

/-- A publication reaches another sink. -/
theorem due_cons_of_ne {q : Nat} (hq : q ≠ place) :
    (⟨hub, m, (number, q) :: ahead⟩ : Publication α).due place =
      (⟨hub, m, ahead⟩ : Publication α).due place := by
  rw [Publication.due, Publication.due, List.filter_cons_of_neg (by simpa using hq)]

theorem pending_set_of_ne {q : Nat} (hq : q ≠ place)
    (hk : publications[k]? = some ⟨hub, m, (number, q) :: ahead⟩) :
    pending (publications.set k ⟨hub, m, ahead⟩) place = pending publications place := by
  rw [pending, pending, List.flatMap_def, List.flatMap_def,
    map_set_of_eq hk (due_cons_of_ne hq).symm]

theorem pending_set_self (hone : (pending publications place).length ≤ 1)
    (hk : publications[k]? = some ⟨hub, m, (number, place) :: ahead⟩) :
    pending publications place = [m] ∧
      pending (publications.set k ⟨hub, m, ahead⟩) place = [] := by
  obtain ⟨before, after, hsplit, hset⟩ := exists_append_set hk ⟨hub, m, ahead⟩
  rw [hset]
  rw [hsplit, pending, List.flatMap_append, List.flatMap_cons, due_cons_self] at hone ⊢
  rw [pending, List.flatMap_append, List.flatMap_cons]
  -- What comes before and after would make more than one.
  simp only [List.length_append, List.length_cons] at hone
  rw [List.length_eq_zero_iff.1 (show (before.flatMap (·.due place)).length = 0 by omega),
    List.length_eq_zero_iff.1 (show (after.flatMap (·.due place)).length = 0 by omega),
    List.length_eq_zero_iff.1
      (show ((⟨hub, m, ahead⟩ : Publication α).due place).length = 0 by omega)]
  exact ⟨rfl, rfl⟩

end

namespace Traffic

variable {s s' : Traffic α} {u : Subscription} {live : Bool} {a : Act α}

/-- The messages that a hub has published. -/
def publishedBy (s : Traffic α) (hub : Nat) : List α :=
  (s.publications.filter (·.hub = hub)).map (·.message)

/-- What has been published for a sink and has not been taken from it. -/
def unread (s : Traffic α) (place : Nat) : List α :=
  (s.bus.sink place).queue ++ pending s.publications place

theorem publishedBy_set {k hub number place : Nat} {m : α} {ahead : List (Nat × Nat)}
    (hk : s.publications[k]? = some ⟨hub, m, (number, place) :: ahead⟩) (b : Bus α) (q : Nat) :
    (⟨b, s.publications.set k ⟨hub, m, ahead⟩⟩ : Traffic α).publishedBy q = s.publishedBy q := by
  obtain ⟨before, after, hsplit, hset⟩ := exists_append_set hk ⟨hub, m, ahead⟩
  rw [publishedBy, publishedBy, hset, hsplit]
  by_cases hq : hub = q <;> simp [hq]

/-! ## Subscriptions -/

/-- The sink of a subscription has one connection, as long as the subscription goes on, and none
afterwards. -/
structure Linked (s : Traffic α) (u : Subscription) (live : Bool) : Prop where
  place : u.sink < s.bus.sinks.length
  number : u.connection ≤ (s.bus.hub u.hub).connected
  connections : ∀ hub, (s.bus.hub hub).connections.filter (·.2 = u.sink) =
    if hub = u.hub ∧ live = true then [(u.connection, u.sink)] else []
  ahead : ∀ p ∈ s.publications, (p.hub = u.hub ∧ live = true) ∨ p.due u.sink = []
  once : (pending s.publications u.sink).length ≤ 1
  sink : live = true → (s.bus.sink u.sink).isOpen = true ∧
    (s.bus.sink u.sink).capacity = Sink.defaultCapacity
  gone : live = false → (s.bus.sink u.sink).queue = []

theorem Linked.unread_eq_nil (h : Linked s u false) : s.unread u.sink = [] := by
  rw [unread, h.gone rfl, pending_eq_nil fun p hp => (h.ahead p hp).resolve_left fun hn =>
    Bool.false_ne_true hn.2]
  rfl

/-- A hub that is free has nothing to offer to its subscriptions. -/
theorem Linked.pending_eq_nil_of_free (h : Linked s u live) (hfree : s.IsFree u.hub) :
    pending s.publications u.sink = [] := by
  refine pending_eq_nil fun p hp => ?_
  rcases h.ahead p hp with ⟨hhub, -⟩ | hnone
  · rw [Publication.due, hfree p hp hhub]
    rfl
  · exact hnone

/-- An act has nothing to do with the sink, its connections, and publications. -/
structure Untouched (s s' : Traffic α) (u : Subscription) : Prop where
  sinks : s.bus.sinks.length ≤ s'.bus.sinks.length
  sink : s'.bus.sink u.sink = s.bus.sink u.sink
  connected : (s.bus.hub u.hub).connected ≤ (s'.bus.hub u.hub).connected
  connections : ∀ hub, (s'.bus.hub hub).connections.filter (·.2 = u.sink) =
    (s.bus.hub hub).connections.filter (·.2 = u.sink)
  publications : s'.publications = s.publications

theorem Linked.untouched (h : Linked s u live) (ht : Untouched s s' u) : Linked s' u live where
  place := Nat.lt_of_lt_of_le h.place ht.sinks
  number := Nat.le_trans h.number ht.connected
  connections hub := (ht.connections hub).trans (h.connections hub)
  ahead := ht.publications ▸ h.ahead
  once := ht.publications ▸ h.once
  sink := ht.sink ▸ h.sink
  gone := ht.sink ▸ h.gone

/-- The content of another sink changes. -/
theorem untouched_setSink {place : Nat} (hplace : place ≠ u.sink) (t : Sink α) :
    Untouched s (s.withBus (s.bus.setSink place t)) u where
  sinks := Nat.le_of_eq (length_sinks_setSink ..).symm
  sink := (sink_setSink ..).trans (if_neg fun he => hplace he.1.symm)
  connected := Nat.le_refl _
  connections _ := rfl
  publications := rfl

/-- A hub begins to publish. -/
theorem Linked.publish (h : Linked s u live) {hub : Nat} (hfree : s.IsFree hub) (m : α) :
    Linked ⟨s.bus, s.publications ++ [⟨hub, m, (s.bus.hub hub).connections⟩]⟩ u live := by
  have hdue : (⟨hub, m, (s.bus.hub hub).connections⟩ : Publication α).due u.sink =
      if hub = u.hub ∧ live = true then [m] else [] := by
    rw [Publication.due, h.connections hub]
    split <;> rfl
  refine ⟨h.place, h.number, h.connections, ?_, ?_, h.sink, h.gone⟩
  · refine List.forall_mem_append.2 ⟨h.ahead, List.forall_mem_singleton.2 ?_⟩
    by_cases hlive : hub = u.hub ∧ live = true
    · exact .inl hlive
    · exact .inr (hdue.trans (if_neg hlive))
  · rw [pending_append, pending_singleton, hdue]
    split
    · rename_i hlive
      rw [h.pending_eq_nil_of_free (hlive.1 ▸ hfree)]
      exact Nat.le_refl 1
    · rw [List.append_nil]
      exact h.once

/-- A publication reaches the sink of a subscription that goes on. -/
theorem Linked.live_of_reach (h : Linked s u live) {k hub number : Nat} {m : α}
    {ahead : List (Nat × Nat)}
    (hk : s.publications[k]? = some ⟨hub, m, (number, u.sink) :: ahead⟩) : live = true := by
  rcases h.ahead _ (List.mem_of_getElem? hk) with ⟨-, hlive⟩ | hnone
  · exact hlive
  · rw [due_cons_self] at hnone
    cases hnone

theorem Linked.reach (h : Linked s u live) {k hub number place : Nat} {m : α}
    {ahead : List (Nat × Nat)}
    (hk : s.publications[k]? = some ⟨hub, m, (number, place) :: ahead⟩) :
    Linked ⟨s.bus.put place m, s.publications.set k ⟨hub, m, ahead⟩⟩ u live := by
  have hsinks : (s.bus.put place m).sinks.length = s.bus.sinks.length :=
    length_sinks_setSink ..
  refine ⟨hsinks.symm ▸ h.place, h.number, h.connections, fun p hp => ?_, ?_, fun hlive => ?_,
    fun hgone => ?_⟩
  · rcases List.mem_or_eq_of_mem_set hp with hold | rfl
    · exact h.ahead p hold
    · refine (h.ahead _ (List.mem_of_getElem? hk)).imp_right fun hnone => ?_
      by_cases hplace : place = u.sink
      · rw [hplace, due_cons_self] at hnone
        cases hnone
      · rwa [due_cons_of_ne hplace] at hnone
  · by_cases hplace : place = u.sink
    · rw [hplace] at hk
      rw [(pending_set_self h.once hk).2]
      exact Nat.zero_le 1
    · rw [pending_set_of_ne hplace hk]
      exact h.once
  · rw [sink_put]
    split
    · rename_i hplace
      rw [← hplace, Sink.put_eq]
      split
      · exact h.sink hlive
      · exact h.sink hlive
    · exact h.sink hlive
  · have hne : u.sink ≠ place := by
      rintro rfl
      cases (h.live_of_reach hk).symm.trans hgone
    rw [sink_put, if_neg hne]
    exact h.gone hgone

/-- Of the acts of others only publications have to do with a subscription. -/
theorem untouched_or_published (h : Linked s u live) (hstep : Step s a s')
    (hothers : ¬ a.Concerns u) :
    Untouched s s' u ∨
      (∃ hub m, s.IsFree hub ∧ a = .publish hub m ∧
        s' = ⟨s.bus, s.publications ++ [⟨hub, m, (s.bus.hub hub).connections⟩]⟩) ∨
      ∃ k hub number place m ahead,
        s.publications[k]? = some ⟨hub, m, (number, place) :: ahead⟩ ∧
        a = .offer (some (k, number)) place m ((s.bus.sink place).refusal m) ∧
        s' = ⟨s.bus.put place m, s.publications.set k ⟨hub, m, ahead⟩⟩ := by
  cases hstep with
  | addSink capacity =>
    refine .inl ⟨?_, ?_, Nat.le_refl _, fun _ => rfl, rfl⟩
    · exact (List.sublist_append_left ..).length_le
    · rw [withBus, sink_addSink, if_neg (Nat.ne_of_lt h.place)]
  | addHub =>
    have hhub (q : Nat) : s.bus.addHub.1.hub q = s.bus.hub q := hub_addHub s.bus q
    refine .inl ⟨Nat.le_refl _, rfl, ?_, fun q => ?_, rfl⟩
    · exact Nat.le_of_eq (congrArg Hub.connected (hhub _).symm)
    · rw [withBus, hhub]
  | offer | take | drop => exact .inl (untouched_setSink hothers _)
  | @connect hub place hhub hplace hfree =>
    refine .inl ⟨Nat.le_refl _, rfl, ?_, fun q => ?_, rfl⟩
    · rw [withBus, hub_connect hhub]
      split
      · rename_i hq
        rw [hq]
        exact Nat.le_succ _
      · exact Nat.le_refl _
    · rw [withBus, hub_connect hhub]
      split
      · rename_i hq
        have hplace : place ≠ u.sink := hothers
        rw [List.filter_append, List.filter_cons_of_neg (by simpa using hplace), hq]
        exact List.append_nil _
      · rfl
  | @disconnect hub hfree number =>
    refine .inl ⟨Nat.le_refl _, rfl, ?_, fun q => ?_, rfl⟩
    · rw [withBus, hub_disconnect]
      split
      · rename_i hq
        exact Nat.le_of_eq (congrArg (fun q => (s.bus.hub q).connected) hq)
      · exact Nat.le_refl _
    · rw [withBus, hub_disconnect]
      split
      · rename_i hq
        rw [List.filter_comm, ← hq, h.connections q]
        split
        · rename_i hlive
          have hnumber : u.connection ≠ number := fun he => hothers ⟨hq ▸ hlive.1, he.symm⟩
          exact List.filter_cons_of_pos (decide_eq_true hnumber)
        · rfl
      · rfl
  | @publish hub hfree m => exact .inr (.inl ⟨hub, m, hfree, rfl, rfl⟩)
  | @reach k hub number place m ahead hk =>
    exact .inr (.inr ⟨k, hub, number, place, m, ahead, hk, rfl, rfl⟩)

/-- Whatever others do leaves a subscription as it should be. -/
theorem linked_step (h : Linked s u live) (hstep : Step s a s') (hothers : ¬ a.Concerns u) :
    Linked s' u live := by
  obtain ht | ⟨hub, m, hfree, -, rfl⟩ | ⟨k, hub, number, place, m, ahead, hk, -, rfl⟩ :=
    untouched_or_published h hstep hothers
  · exact h.untouched ht
  · exact h.publish hfree m
  · exact h.reach hk

/-- What is published by the hub of a subscription comes behind what is unread. Its sink loses it
only if that has no room. -/
theorem unread_step (h : Linked s u live) (hstep : Step s a s') (hothers : ¬ a.Concerns u) :
    ∃ news, s'.publishedBy u.hub = s.publishedBy u.hub ++ news ∧
      (s'.unread u.sink).Sublist (s.unread u.sink ++ news) ∧
      (live = true → (∀ source m refusal, a = .offer source u.sink m refusal →
          (s.bus.sink u.sink).queue.length < Sink.defaultCapacity) →
        s'.unread u.sink = s.unread u.sink ++ news) := by
  obtain ht | ⟨hub, m, -, -, rfl⟩ | ⟨k, hub, number, place, m, ahead, hk, rfl, rfl⟩ :=
    untouched_or_published h hstep hothers
  · have hunread : s'.unread u.sink = s.unread u.sink ++ [] := by
      rw [unread, ht.sink, ht.publications, List.append_nil, unread]
    refine ⟨[], ?_, hunread ▸ .refl _, fun _ _ => hunread⟩
    rw [publishedBy, ht.publications, List.append_nil, publishedBy]
  · refine ⟨if hub = u.hub then [m] else [], ?_, ?_⟩
    · rw [publishedBy, List.filter_append, List.map_append, publishedBy]
      by_cases hhub : hub = u.hub <;> simp [hhub]
    · have hunread : (⟨s.bus, s.publications ++ [⟨hub, m, (s.bus.hub hub).connections⟩]⟩ :
          Traffic α).unread u.sink =
          s.unread u.sink ++ if hub = u.hub ∧ live = true then [m] else [] := by
        rw [unread, pending_append, pending_singleton, Publication.due, h.connections hub,
          ← List.append_assoc, unread]
        split <;> rfl
      rw [hunread]
      by_cases hhub : hub = u.hub
      · cases live with
        | true => simp [hhub]
        | false => simp [hhub]
      · simp [hhub]
  · refine ⟨[], by rw [publishedBy_set hk, List.append_nil], ?_⟩
    rw [List.append_nil, unread, sink_put]
    by_cases hplace : u.sink = place
    · -- It is at last offered to the sink of the subscription.
      rw [← hplace] at hk ⊢
      obtain ⟨hpending, hnone⟩ := pending_set_self h.once hk
      rw [if_pos rfl, hnone, List.append_nil, unread, hpending]
      refine ⟨?_, fun hlive hroom => ?_⟩
      · rcases Sink.queue_put (s.bus.sink u.sink) m with hqueue | hqueue
        · exact hqueue.symm ▸ List.sublist_append_left ..
        · exact hqueue.symm ▸ List.Sublist.refl _
      · obtain ⟨hopen, hcapacity⟩ := h.sink hlive
        have haccepts : (s.bus.sink u.sink).accepts = true :=
          Sink.accepts_eq_true.2 ⟨hopen, hcapacity ▸ hroom (some (k, number)) m _ (by rw [hplace])⟩
        rw [Sink.put_eq, if_pos haccepts]
    · rw [if_neg hplace, pending_set_of_ne (Ne.symm hplace) hk, unread]
      exact ⟨.refl _, fun _ _ => rfl⟩

/-! ## Connections -/

/-- Connections lead to sinks that are there. -/
structure Placed (s : Traffic α) : Prop where
  connections : ∀ hub, ∀ l ∈ (s.bus.hub hub).connections, l.2 < s.bus.sinks.length
  ahead : ∀ p ∈ s.publications, ∀ l ∈ p.ahead, l.2 < s.bus.sinks.length

theorem Placed.mono (h : Placed s) (hsinks : s.bus.sinks.length ≤ s'.bus.sinks.length)
    (hconnections : ∀ hub, ∀ l ∈ (s'.bus.hub hub).connections,
      l ∈ (s.bus.hub hub).connections ∨ l.2 < s'.bus.sinks.length)
    (hpublications : s'.publications = s.publications) : Placed s' where
  connections hub l hl := by
    rcases hconnections hub l hl with hold | hnew
    · exact Nat.lt_of_lt_of_le (h.connections hub l hold) hsinks
    · exact hnew
  ahead p hp l hl := Nat.lt_of_lt_of_le (h.ahead p (hpublications ▸ hp) l hl) hsinks

theorem placed_step (h : Placed s) (hstep : Step s a s') : Placed s' := by
  have hset (place : Nat) (t : Sink α) :
      s.bus.sinks.length ≤ (s.bus.setSink place t).sinks.length :=
    Nat.le_of_eq (length_sinks_setSink ..).symm
  cases hstep with
  | addSink capacity =>
    exact h.mono (List.sublist_append_left ..).length_le (fun _ _ hl => .inl hl) rfl
  | addHub =>
    have hhub (q : Nat) : s.bus.addHub.1.hub q = s.bus.hub q := hub_addHub s.bus q
    exact h.mono (Nat.le_refl _) (fun q l hl => .inl (hhub q ▸ hl)) rfl
  | offer | take | drop => exact h.mono (hset ..) (fun _ _ hl => .inl hl) rfl
  | @connect hub place hhub hplace hfree =>
    refine h.mono (Nat.le_refl _) (fun q l hl => ?_) rfl
    rw [withBus, hub_connect hhub] at hl
    split at hl
    · rename_i hq
      rcases List.mem_append.1 hl with hold | hnew
      · exact .inl (hq ▸ hold)
      · exact .inr (List.mem_singleton.1 hnew ▸ hplace)
    · exact .inl hl
  | @disconnect hub hfree number =>
    refine h.mono (Nat.le_refl _) (fun q l hl => .inl ?_) rfl
    rw [withBus, hub_disconnect] at hl
    split at hl
    · rename_i hq
      exact hq ▸ (List.mem_filter.1 hl).1
    · exact hl
  | @publish hub hfree m =>
    exact ⟨h.connections, List.forall_mem_append.2
      ⟨h.ahead, List.forall_mem_singleton.2 (h.connections hub)⟩⟩
  | @reach k hub number place m ahead hk =>
    have hsinks : (s.bus.put place m).sinks.length = s.bus.sinks.length := length_sinks_setSink ..
    refine ⟨fun q l hl => hsinks ▸ h.connections q l hl, fun p hp l hl => ?_⟩
    rw [hsinks]
    rcases List.mem_or_eq_of_mem_set hp with hold | rfl
    · exact h.ahead p hold l hl
    · exact h.ahead _ (List.mem_of_getElem? hk) l (List.mem_cons_of_mem _ hl)

theorem placed_runs {acts : List (Act α)} (h : Placed s) (hruns : Runs s acts s') : Placed s' := by
  induction hruns with
  | nil => exact h
  | cons head _ ih => exact ih (placed_step h head)

/-- No hub goes away. -/
theorem length_hubs_runs {acts : List (Act α)} (hruns : Runs s acts s') :
    s.bus.hubs.length ≤ s'.bus.hubs.length := by
  induction hruns with
  | nil => exact Nat.le_refl _
  | cons head _ ih =>
    refine Nat.le_trans ?_ ih
    cases head with
    | addSink | offer | take | drop | publish | reach => exact Nat.le_refl _
    | addHub => exact (List.sublist_append_left ..).length_le
    | connect | disconnect => exact Nat.le_of_eq List.length_set.symm

/-! ## A subscription that comes, is read, and goes -/

/-- At the place of the next sink nothing is due. -/
theorem Placed.due_eq_nil (h : Placed s) : ∀ p ∈ s.publications, p.due s.bus.sinks.length = [] := by
  intro p hp
  rw [Publication.due, List.map_eq_nil_iff, List.filter_eq_nil_iff]
  exact fun l hl he => Nat.ne_of_lt (h.ahead p hp l hl) (of_decide_eq_true he)

theorem linked_subscribe (h : Placed s) {hub : Nat} (hhub : hub < s.bus.hubs.length) :
    Linked (s.withBus (s.bus.subscribe hub).1) (s.bus.subscribe hub).2 true := by
  show Linked _ ⟨s.bus.sinks.length, hub, (s.bus.hub hub).connected + 1⟩ true
  have hconnections (q : Nat) :
      (s.bus.hub q).connections.filter (·.2 = s.bus.sinks.length) = [] :=
    List.filter_eq_nil_iff.2 fun l hl he =>
      Nat.ne_of_lt (h.connections q l hl) (of_decide_eq_true he)
  have hbus (q : Nat) : (s.bus.subscribe hub).1.hub q = if q = hub then
      { connected := (s.bus.hub hub).connected + 1
        connections := (s.bus.hub hub).connections ++
          [((s.bus.hub hub).connected + 1, s.bus.sinks.length)] }
      else s.bus.hub q := hub_connect (b := s.bus.addSink.1) hhub s.bus.sinks.length q
  refine ⟨?_, ?_, fun q => ?_, fun p hp => .inr (h.due_eq_nil p hp), ?_, fun _ => ?_,
    fun hgone => ?_⟩
  · have hlength : (s.bus.sinks ++ [Sink.new]).length = s.bus.sinks.length + 1 :=
      List.length_append
    exact Nat.lt_of_lt_of_eq (Nat.lt_succ_self _) hlength.symm
  · have hconnected : ((s.bus.subscribe hub).1.hub hub).connected =
        (s.bus.hub hub).connected + 1 := by rw [hbus, if_pos rfl]
    exact Nat.le_of_eq hconnected.symm
  · rw [withBus, hbus]
    by_cases hq : q = hub
    · rw [if_pos hq, if_pos ⟨hq, rfl⟩, List.filter_append]
      exact (congrArg (· ++ _) (hconnections hub)).trans (by simp)
    · rw [if_neg hq, if_neg fun hn => hq hn.1]
      exact hconnections q
  · exact Nat.le_trans (Nat.le_of_eq (congrArg List.length (pending_eq_nil h.due_eq_nil)))
      (Nat.zero_le 1)
  · have hsink : (s.bus.subscribe hub).1.sink s.bus.sinks.length = Sink.new :=
      sink_subscribe s.bus hub
    rw [withBus, hsink]
    exact ⟨rfl, rfl⟩
  · cases hgone

/-- The sink of a subscription has another content. -/
theorem Linked.withSink (h : Linked s u live) {t : Sink α}
    (hopen : t.isOpen = (s.bus.sink u.sink).isOpen)
    (hcapacity : t.capacity = (s.bus.sink u.sink).capacity)
    (hgone : live = false → t.queue = []) :
    Linked (s.withBus (s.bus.setSink u.sink t)) u live := by
  have hsink : (s.bus.setSink u.sink t).sink u.sink = t := by
    rw [sink_setSink, if_pos ⟨rfl, h.place⟩]
  refine ⟨?_, h.number, h.connections, h.ahead, h.once, fun hlive => ?_, fun hnot => ?_⟩
  · rw [withBus, length_sinks_setSink]
    exact h.place
  · rw [withBus, hsink, hopen, hcapacity]
    exact h.sink hlive
  · rw [withBus, hsink]
    exact hgone hnot

theorem Linked.unsubscribe (h : Linked s u true) (hfree : s.IsFree u.hub) :
    Linked (s.withBus (s.bus.unsubscribe u)) u false := by
  have hsink : (s.bus.unsubscribe u).sink u.sink = (s.bus.sink u.sink).close := by
    have hplace : u.sink < (s.bus.disconnect u.hub u.connection).sinks.length := h.place
    exact (sink_setSink ..).trans (if_pos ⟨rfl, hplace⟩)
  have hhub (q : Nat) : (s.bus.unsubscribe u).hub q = _ := hub_disconnect s.bus u.hub u.connection q
  refine ⟨?_, ?_, fun q => ?_, fun p hp => .inr ?_, h.once, fun hn => ?_, fun _ => ?_⟩
  · rw [withBus, Bus.unsubscribe, length_sinks_setSink]
    exact h.place
  · rw [withBus, hhub, if_pos rfl]
    exact h.number
  · have hnone : ¬ (q = u.hub ∧ false = true) := fun hn => Bool.false_ne_true hn.2
    rw [withBus, hhub, if_neg hnone]
    by_cases hq : q = u.hub
    · rw [if_pos hq, List.filter_comm, h.connections, if_pos ⟨rfl, rfl⟩]
      simp
    · have hother : ¬ (q = u.hub ∧ true = true) := fun hn => hq hn.1
      rw [if_neg hq, h.connections, if_neg hother]
  · rcases h.ahead p hp with ⟨hp', -⟩ | hnone
    · rw [Publication.due, hfree p hp hp']
      rfl
    · exact hnone
  · cases hn
  · rw [withBus, hsink]
    rfl

end Traffic

end Bus

end Mediatheque
