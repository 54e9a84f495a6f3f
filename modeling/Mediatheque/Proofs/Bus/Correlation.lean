import Mathlib.Data.List.Nodup
import Mathlib.Data.List.Perm.Basic
import Mediatheque.Proofs.Bus.Hearing
import Mediatheque.Proofs.Bus.Operations

/-!
# Whom an answer reaches

Every step at an endpoint keeps three things: the record of each call is consistent
(`consistent_step`), no token is drawn twice before the counter has gone round (`counted_step`), and
the subscriptions of the calls do not get in each other's way, so that each call hears what is
published (`wired_step`). So it is known what a call returns (`Sound.outcome`), and that no answer
to one call is among those of another (`Sound.apart`).
-/

namespace Mediatheque

namespace Switchboard

open Bus (Act HasRoom Traffic)

variable {x x' : Switchboard} {acts more : List (Act Event)}

/-! ## Records -/

theorem consistent_step (h : ∀ c ∈ x.callers, c.Consistent) (hstep : Step x more x') :
    ∀ c ∈ x'.callers, c.Consistent := by
  have hset {i : Nat} {c c' : Caller} (hc : x.callers[i]? = some c)
      (hnew : c.Consistent → c'.Consistent) : ∀ d ∈ x.callers.set i c', d.Consistent :=
    forall_mem_set (hnew (h c (List.mem_of_getElem? hc))) fun _ d _ hd =>
      h d (List.mem_of_getElem? hd)
  cases hstep with
  | draw | command | other => exact h
  | subscribe => exact List.forall_mem_append.2 ⟨h, List.forall_mem_singleton.2 ⟨rfl, rfl, rfl⟩⟩
  | send hc hstage command hsend now => exact hset hc fun hold => hold.sent hstage now
  | refuse hc hstage command hsend =>
    refine hset hc fun hold => hold.refused hstage fun time he => ?_
    rcases Sink.eq_full_or_disconnected hsend with hfull | hgone
    · cases hfull.symm.trans he
    · cases hgone.symm.trans he
  | look hc hstage => exact hset hc fun hold => hold.look hstage _
  | take hc hstage => exact hset hc fun hold => hold.take hstage _ _
  | read hc hstage now => exact hset hc fun hold => hold.read hstage now
  | leave hc => exact hset hc fun hold => ⟨hold.answers, hold.stands⟩

/-! ## Tokens -/

/-- The token that is drawn after a number of others. -/
def tokenAt (number : Nat) : Token := ⟨.ofNat (number + 1)⟩

/-- The tokens that have been drawn, with their numbers. -/
def tokens (x : Switchboard) : List (Nat × Token) :=
  x.held ++ x.callers.map fun c => (c.number, c.call.token)

/-- Each number has been given with one token, and each token is that of its number. -/
structure Counted (x : Switchboard) : Prop where
  counter : x.endpoint.nextToken = (tokenAt x.drawn).value
  tokens : x.tokens.Perm ((List.range x.drawn).map fun n => (n, tokenAt n))

theorem Counted.congr (h : Counted x)
    (hcounter : x'.endpoint.nextToken = x.endpoint.nextToken) (hdrawn : x'.drawn = x.drawn)
    (hheld : x'.held = x.held) (hcallers : x'.callers.map (fun c => (c.number, c.call.token)) =
      x.callers.map fun c => (c.number, c.call.token)) : Counted x' where
  counter := by rw [hcounter, hdrawn, h.counter]
  tokens := by
    rw [Switchboard.tokens, hheld, hcallers, hdrawn]
    exact h.tokens

theorem counted_step (h : Counted x) (hstep : Step x more x') : Counted x' := by
  have hset {i : Nat} {c c' : Caller} (hc : x.callers[i]? = some c)
      (hnumber : c'.number = c.number) (htoken : c'.call.token = c.call.token) :
      (x.callers.set i c').map (fun c => (c.number, c.call.token)) =
        x.callers.map fun c => (c.number, c.call.token) :=
    map_set_of_eq hc (Prod.ext hnumber htoken)
  cases hstep with
  | draw =>
    have hlast : x.endpoint.takeToken.2 = tokenAt x.drawn := congrArg Token.mk h.counter
    refine ⟨?_, ?_⟩
    · show x.endpoint.nextToken + 1 = .ofNat (x.drawn + 1 + 1)
      rw [h.counter, UInt64.ofNat_add]
      rfl
    · rw [Switchboard.tokens, List.range_succ, List.map_append, List.append_assoc, hlast]
      refine (List.perm_append_comm.append_left x.held).trans ?_
      rw [← List.append_assoc]
      exact h.tokens.append_right _
  | command | other => exact h.congr rfl rfl rfl rfl
  | @subscribe k number token hheld =>
    obtain ⟨hlt, hat⟩ := List.getElem?_eq_some_iff.1 hheld
    refine ⟨h.counter, ?_⟩
    have hback : (x.held.eraseIdx k ++ [(number, token)]).Perm x.held :=
      List.perm_append_comm.trans (hat ▸ List.getElem_cons_eraseIdx_perm hlt)
    rw [Switchboard.tokens, List.map_append]
    refine List.Perm.trans ?_ h.tokens
    rw [← List.append_assoc, List.append_assoc]
    refine (List.perm_append_comm.append_left _).trans ?_
    rw [← List.append_assoc]
    exact hback.append_right _
  | send hc | refuse hc | look hc | read hc | leave hc =>
    exact h.congr rfl rfl rfl (hset hc rfl rfl)
  | take hc =>
    exact h.congr rfl rfl rfl (hset hc (Caller.number_take ..) (Caller.token_take ..))

/-- A call has the token of its number. -/
theorem Counted.token_eq (h : Counted x) {c : Caller} (hc : c ∈ x.callers) :
    c.call.token = tokenAt c.number := by
  have hmem := h.tokens.subset (List.mem_append_right x.held (List.mem_map_of_mem hc))
  obtain ⟨n, -, hn⟩ := List.mem_map.1 hmem
  obtain ⟨hnumber, htoken⟩ := Prod.ext_iff.1 hn
  dsimp only at hnumber htoken
  rw [← htoken, hnumber]

theorem Counted.nodup_numbers (h : Counted x) : (x.callers.map (·.number)).Nodup := by
  have hnumbers : (x.tokens.map (·.1)).Nodup := by
    rw [(h.tokens.map (·.1)).nodup_iff, List.map_map]
    exact (List.map_id'' (fun _ => rfl) (List.range x.drawn)).symm ▸ List.nodup_range
  rw [Switchboard.tokens, List.map_append, List.map_map] at hnumbers
  exact hnumbers.of_append_right

theorem tokenAt_injective {n n' : Nat} (hn : n < n' + UInt64.size) (hn' : n' < n + UInt64.size)
    (h : tokenAt n = tokenAt n') : n = n' := by
  have hvalue := congrArg UInt64.toNat (Token.mk.inj h)
  rw [UInt64.toNat_ofNat', UInt64.toNat_ofNat'] at hvalue
  rw [show UInt64.size = 2 ^ 64 from rfl] at hn hn'
  omega

/-- Two calls have different tokens, unless the counter has gone round between them. -/
theorem Counted.token_ne (h : Counted x) {i j : Nat} (hij : i ≠ j) {c c' : Caller}
    (hc : x.callers[i]? = some c) (hc' : x.callers[j]? = some c')
    (hnear : c.number < c'.number + UInt64.size) (hnear' : c'.number < c.number + UInt64.size) :
    c.call.token ≠ c'.call.token := by
  intro he
  rw [h.token_eq (List.mem_of_getElem? hc), h.token_eq (List.mem_of_getElem? hc')] at he
  have hnumber := tokenAt_injective hnear hnear' he
  have hlt : i < (x.callers.map (·.number)).length := by
    rw [List.length_map]
    exact (List.getElem?_eq_some_iff.1 hc).1
  refine hij ((List.getElem?_inj hlt h.nodup_numbers).1 ?_)
  rw [List.getElem?_map, List.getElem?_map, hc, hc', Option.map_some, Option.map_some, hnumber]

/-! ## Subscriptions -/

/-- The calls hear what the hub of the endpoint publishes, each at a sink and a connection of its
own. -/
structure Wired (acts : List (Act Event)) (x : Switchboard) : Prop where
  kept : Traffic.Kept (.addHub :: acts) x.traffic
  placed : x.traffic.Placed
  hub : x.endpoint.events < x.endpoint.eventBus.hubs.length
  hears : ∀ c ∈ x.callers, c.Hears acts x.traffic ∧ c.call.subscription.hub = x.endpoint.events
  apart : (x.callers.map (·.call.subscription)).Pairwise fun u v =>
    u.sink ≠ v.sink ∧ u.connection ≠ v.connection

theorem Wired.next (h : Wired acts x) (hruns : x.traffic.Runs more x'.traffic)
    (hevents : x'.endpoint.events = x.endpoint.events)
    (hhears : ∀ c ∈ x'.callers, c.Hears (acts ++ more) x'.traffic ∧
      c.call.subscription.hub = x.endpoint.events)
    (hapart : (x'.callers.map (·.call.subscription)).Pairwise fun u v =>
      u.sink ≠ v.sink ∧ u.connection ≠ v.connection) : Wired (acts ++ more) x' where
  kept := Bus.Traffic.kept_runs h.kept hruns
  placed := Bus.Traffic.placed_runs h.placed hruns
  hub := hevents ▸ Nat.lt_of_lt_of_le h.hub (Bus.Traffic.length_hubs_runs hruns)
  hears := hevents ▸ hhears
  apart := hapart

/-- What is done elsewhere leaves a call hearing. -/
theorem Wired.elsewhere (h : Wired acts x) {t : Traffic Event} (hruns : x.traffic.Runs more t)
    {c : Caller} (hc : c ∈ x.callers)
    (hothers : ∀ a ∈ more, ¬ a.Concerns c.call.subscription) :
    c.Hears (acts ++ more) t ∧ c.call.subscription.hub = x.endpoint.events :=
  ⟨(h.hears c hc).1.runs h.kept hruns hothers, (h.hears c hc).2⟩

theorem Wired.apart_of_ne (h : Wired acts x) {i j : Nat} (hij : i ≠ j) {c c' : Caller}
    (hc : x.callers[i]? = some c) (hc' : x.callers[j]? = some c') :
    c.call.subscription.sink ≠ c'.call.subscription.sink ∧
      c.call.subscription.connection ≠ c'.call.subscription.connection := by
  have hapart := List.pairwise_iff_getElem.1 (List.pairwise_map.1 h.apart)
  obtain ⟨hlt, rfl⟩ := List.getElem?_eq_some_iff.1 hc
  obtain ⟨hlt', rfl⟩ := List.getElem?_eq_some_iff.1 hc'
  rcases Nat.lt_or_gt_of_ne hij with hbefore | hbehind
  · exact hapart i j hlt hlt' hbefore
  · exact (hapart j i hlt' hlt hbehind).imp Ne.symm Ne.symm

/-- A call does something at its own sink, and the others go on hearing. -/
theorem Wired.own (h : Wired acts x) (hruns : x.traffic.Runs more x'.traffic)
    (hevents : x'.endpoint.events = x.endpoint.events) {i : Nat} {c c' : Caller}
    (hc : x.callers[i]? = some c) (hcallers : x'.callers = x.callers.set i c')
    (hsubscription : c'.call.subscription = c.call.subscription)
    (hhears : c'.Hears (acts ++ more) x'.traffic)
    (hothers : ∀ a ∈ more, ∀ u : Subscription, c.call.subscription.sink ≠ u.sink →
      c.call.subscription.connection ≠ u.connection → ¬ a.Concerns u) :
    Wired (acts ++ more) x' := by
  refine h.next hruns hevents ?_ ?_
  · rw [hcallers]
    refine forall_mem_set ⟨hhears, ?_⟩ fun j d hji hd => ?_
    · rw [hsubscription]
      exact (h.hears c (List.mem_of_getElem? hc)).2
    · obtain ⟨hsink, hconnection⟩ := h.apart_of_ne (Ne.symm hji) hc hd
      exact h.elsewhere hruns (List.mem_of_getElem? hd) fun a ha => hothers a ha _ hsink hconnection
  · rw [hcallers, map_set_of_eq hc hsubscription]
    exact h.apart

/-- A call does something that cannot be seen on the bus of events. -/
theorem Wired.quiet (h : Wired acts x) (htraffic : x'.traffic = x.traffic)
    (hevents : x'.endpoint.events = x.endpoint.events) {i : Nat} {c c' : Caller}
    (hc : x.callers[i]? = some c) (hcallers : x'.callers = x.callers.set i c')
    (hcall : c'.call = c.call) (hsince : c'.since = c.since) (htaken : c'.taken = c.taken)
    (hsubscribed : c'.subscribed = c.subscribed) : Wired (acts ++ []) x' := by
  refine h.own (htraffic ▸ .nil _) hevents hc hcallers (congrArg Call.subscription hcall) ?_
    (List.forall_mem_nil _)
  rw [List.append_nil, htraffic]
  exact (h.hears c (List.mem_of_getElem? hc)).1.congr (congrArg Call.subscription hcall) hsince
    htaken hsubscribed

theorem wired_step (h : Wired acts x) (hstep : Step x more x') : Wired (acts ++ more) x' := by
  cases hstep with
  | draw | command =>
    rw [List.append_nil]
    exact ⟨h.kept, h.placed, h.hub, h.hears, h.apart⟩
  | @other a t hact hothers =>
    refine h.next (.single hact) rfl (fun c hc => ?_) h.apart
    exact h.elsewhere (.single hact) hc (List.forall_mem_singleton.2 (hothers c hc))
  | @subscribe k number token hheld hfree time =>
    have hruns := (Bus.Traffic.operations x.traffic).subscribe x.endpoint.events h.hub hfree
    refine h.next hruns rfl ?_ ?_
    · refine List.forall_mem_append.2 ⟨fun c hc => ?_, List.forall_mem_singleton.2 ⟨?_, rfl⟩⟩
      · have hplace := (h.hears c hc).1.linked.place
        refine h.elsewhere hruns hc (List.forall_mem_cons.2 ⟨fun hn => hn,
          List.forall_mem_singleton.2 fun hn => ?_⟩)
        exact Nat.ne_of_lt hplace (Eq.symm hn)
      · exact Caller.Hears.of_subscribe h.placed h.hub rfl rfl rfl rfl _
    · rw [List.map_append, List.pairwise_append]
      refine ⟨h.apart, List.pairwise_singleton _ _, fun u hu v hv => ?_⟩
      obtain ⟨c, hc, rfl⟩ := List.mem_map.1 hu
      obtain rfl := List.mem_singleton.1 hv
      obtain ⟨hhears, hhub⟩ := h.hears c hc
      have hnumber := hhears.linked.number
      rw [hhub] at hnumber
      exact ⟨Nat.ne_of_lt hhears.linked.place, Nat.ne_of_lt (Nat.lt_succ_of_le hnumber)⟩
  | send hc | refuse hc | look hc | read hc => exact h.quiet rfl rfl hc rfl rfl rfl rfl rfl
  | @take i left c hc =>
    have hhears := (h.hears c (List.mem_of_getElem? hc)).1
    refine h.own (.single (.take x.traffic hhears.linked.place)) rfl hc rfl
      (Caller.subscription_take ..) (hhears.take left _) ?_
    exact List.forall_mem_singleton.2 fun u hsink _ hn => hsink hn
  | @leave i c hc result hstage hsubscribed hfree =>
    obtain ⟨hhears, hhub⟩ := h.hears c (List.mem_of_getElem? hc)
    have hhubfree : x.traffic.IsFree c.call.subscription.hub := hhub.symm ▸ hfree
    have hruns := (Bus.Traffic.operations x.traffic).unsubscribe c.call.subscription
      hhears.linked.place hhubfree
    refine h.own hruns rfl hc rfl rfl (hhears.leave hsubscribed hhubfree _) ?_
    exact List.forall_mem_cons.2 ⟨fun u _ hconnection hn => hconnection hn.2,
      List.forall_mem_singleton.2 fun u hsink _ hn => hsink hn⟩

/-! ## Runs -/

/-- All that is kept at an endpoint. -/
structure Sound (acts : List (Act Event)) (x : Switchboard) : Prop where
  consistent : ∀ c ∈ x.callers, c.Consistent
  counted : Counted x
  wired : Wired acts x

theorem sound_new : Sound [] {} where
  consistent := List.forall_mem_nil _
  counted := ⟨rfl, List.Perm.refl _⟩
  wired :=
    { kept := Bus.Traffic.kept_step Bus.Traffic.kept_nil (.addHub {})
      placed := by
        refine ⟨fun hub l hl => ?_, List.forall_mem_nil _⟩
        have hnone : ((({} : Bus Event).addHub.1).hub hub).connections = [] := by
          rw [Bus.hub_addHub]
          rfl
        exact absurd (hnone ▸ hl) List.not_mem_nil
      hub := Nat.zero_lt_one
      hears := List.forall_mem_nil _
      apart := List.Pairwise.nil }

theorem sound_runs (hruns : Runs {} acts x) : Sound acts x := by
  induction hruns with
  | nil => exact sound_new
  | snoc _ hstep ih =>
    exact ⟨consistent_step ih.consistent hstep, counted_step ih.counted hstep,
      wired_step ih.wired hstep⟩

/-! ## What a call returns -/

/-- What a call returns is told by what has been published since it subscribed. -/
structure Outcome (acts : List (Act Event)) (x : Switchboard) (c : Caller) : Prop where
  /-- No event of another token and none without a token is among its answers. -/
  own : ∀ e ∈ c.call.answers, e.token? = some c.call.token
  /-- It takes what has been published since it subscribed, in that order. -/
  heard : c.taken.Sublist (x.heard c)
  gapless : HasRoom acts c.place → c.taken <+: x.heard c
  /-- If it returns answers, the last is the first event that completes them, and it has taken
  nothing after that. -/
  ok : ∀ answers, c.stage = .returned (.ok answers) →
    answers = Event.answer c.call.token c.taken ∧ c.Answered ∧ c.InTime ∧
      (HasRoom acts c.place → answers = Event.answer c.call.token (x.heard c))
  /-- It returns answers if it has taken an event that completes them. -/
  returns : (∃ e ∈ c.taken, e.completes c.call.token = true) →
    c.stage = .returned (.ok c.call.answers)
  /-- It gives up after the first pass that is followed by a reading at or past the deadline. -/
  timeout : ∀ time, c.stage = .returned (.error (.timeout time)) →
    time = c.time ∧ c.Unanswered ∧ c.Late
  /-- It goes on as long as neither has happened. -/
  waits : (∀ result, c.stage ≠ .returned result) → c.Unanswered ∧ c.InTime

theorem heard_eq (x : Switchboard) {c : Caller}
    (hhub : c.call.subscription.hub = x.endpoint.events) :
    x.heard c = c.publishedSince x.traffic := by
  rw [Caller.publishedSince, hhub]
  rfl

/-- A call takes what is published without gaps, if its sink has room. -/
theorem Sound.gapless (h : Sound acts x) {c : Caller} (hc : c ∈ x.callers)
    (hroom : HasRoom acts c.place) : c.taken <+: x.heard c := by
  obtain ⟨hhears, hhub⟩ := h.wired.hears c hc
  obtain ⟨missed, hmissed, -⟩ := hhears.gapless hroom
  refine ⟨x.traffic.unread c.place ++ missed, ?_⟩
  rw [heard_eq x hhub, ← hmissed, List.append_assoc]

theorem Sound.outcome (h : Sound acts x) {c : Caller} (hc : c ∈ x.callers) :
    Outcome acts x c := by
  have hanswers := (h.consistent c hc).answers
  have hstands := (h.consistent c hc).stands
  rw [Caller.Stands] at hstands
  obtain ⟨hhears, hhub⟩ := h.wired.hears c hc
  refine ⟨fun e he => ?_, ?_, h.gapless hc, fun answers hstage => ?_, fun hlast => ?_,
    fun time hstage => ?_, fun hnot => ?_⟩
  · rw [hanswers] at he
    exact Event.token?_of_mem_answer he
  · rw [heard_eq x hhub]
    exact (List.sublist_append_left ..).trans hhears.sublist
  · rw [hstage] at hstands
    obtain ⟨rfl, hlast, htime⟩ := hstands
    refine ⟨hanswers, hlast, htime, fun hroom => ?_⟩
    obtain ⟨before, last, htaken, hcompletes, -⟩ := hlast
    have hmem : last ∈ c.taken := htaken ▸ List.mem_append_right _ List.mem_cons_self
    rw [hanswers, Event.answer_of_prefix ⟨last, hmem, hcompletes⟩ (h.gapless hc hroom)]
  · obtain ⟨e, he, hcompletes⟩ := hlast
    have hnot : ¬ c.Unanswered := fun hnone => by
      rw [hnone e he] at hcompletes
      cases hcompletes
    have hsome : c.taken ≠ [] := List.ne_nil_of_mem he
    split at hstands
    · exact absurd hstands.1 hsome
    · exact absurd hstands.1 hnot
    · exact absurd hstands.1 hnot
    · rename_i answers hstage
      rw [hstage, hstands.1]
    · exact absurd hstands.2.1 hnot
    · exact absurd hstands hsome
  · rw [hstage] at hstands
    exact hstands
  · split at hstands
    · obtain ⟨htaken, hreadings⟩ := hstands
      refine ⟨Caller.unanswered_of_nil htaken, fun now hnow => ?_⟩
      rw [hreadings] at hnow
      cases hnow
    · exact hstands
    · exact hstands
    all_goals
      rename_i hstage
      exact absurd hstage (hnot _)

/-- No answer to one call is among those of another. -/
theorem Sound.apart (h : Sound acts x) {i j : Nat} (hij : i ≠ j) {c c' : Caller}
    (hc : x.callers[i]? = some c) (hc' : x.callers[j]? = some c')
    (hnear : c.number < c'.number + UInt64.size) (hnear' : c'.number < c.number + UInt64.size) :
    ∀ e ∈ c.call.answers, e.token? ≠ some c'.call.token := by
  intro e he htoken
  have hown := (h.outcome (List.mem_of_getElem? hc)).own e he
  exact h.counted.token_ne hij hc hc' hnear hnear' (Option.some.inj (hown.symm.trans htoken))

end Switchboard

end Mediatheque
