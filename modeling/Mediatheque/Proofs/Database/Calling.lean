import Mediatheque.Backend.Scripted
import Mediatheque.Database.Client
import Mediatheque.Proofs.Bus.Correlation

/-!
# Calls to a database

A call to a database is a run at its endpoint (`runs_call`): it begins a call and sends the command,
it makes a pass in every round (`moves_pollCall`), and in between the dispatcher takes commands,
draws tokens and publishes (`meanwhile_round`). With what is known of all runs, every call gets its
own answers and no others (`calls_correlated`).
-/

namespace Mediatheque

namespace Call

/-- A call wants no more events after the last answer, and says that it is done. -/
theorem receive_cases (c : Call) (e : Event) :
    (∃ c', c.receive e = (c', [], .stop) ∧ c'.isDone = true) ∨
      ∃ c', c.receive e = (c', [], .go) ∧ c'.isDone = c.isDone := by
  rw [receive]
  split
  · exact .inl ⟨_, rfl, rfl⟩
  · split
    · exact .inr ⟨_, rfl, rfl⟩
    · exact .inr ⟨_, rfl, rfl⟩

end Call

namespace Caller

/-- A call has gone on, and waits as long as before at the same sink. -/
structure Continues (c c' : Caller) : Prop where
  subscription : c'.call.subscription = c.call.subscription
  time : c'.time = c.time
  deadline : c'.deadline = c.deadline
  subscribed : c'.subscribed = c.subscribed

variable {c d c' : Caller}

theorem Continues.trans (h : Continues c d) (h' : Continues d c') : Continues c c' :=
  ⟨h'.subscription.trans h.subscription, h'.time.trans h.time, h'.deadline.trans h.deadline,
    h'.subscribed.trans h.subscribed⟩

theorem continues_take (c : Caller) (left : Nat) (event : Option Event) :
    Continues c (c.take left event) :=
  ⟨subscription_take .., by cases event <;> rfl, by cases event <;> rfl, subscribed_take ..⟩

end Caller

namespace Switchboard

open Bus (Act Traffic)

variable {x x₁ x' : Switchboard}

/-! ## What others do -/

/-- What others do on the bus of events away from the calls is a run. -/
theorem runs_of_traffic {acts : List (Act Event)} {t : Traffic Event}
    (hruns : x.traffic.Runs acts t)
    (hothers : ∀ a ∈ acts, ∀ c ∈ x.callers, ¬ a.Concerns c.call.subscription) :
    Runs x acts (x.withTraffic t) := by
  generalize hs : x.traffic = s at hruns
  induction hruns generalizing x with
  | nil =>
    rw [← hs]
    exact .nil
  | @cons s s₁ t a acts head tail ih =>
    obtain ⟨ha, hacts⟩ := List.forall_mem_cons.1 hothers
    have hfirst := Step.other (hs.symm ▸ head) ha
    exact (Runs.single hfirst).trans (ih (x := x.withTraffic s₁) hacts rfl)

/-- Others have been at work, and nothing is being published any more. -/
structure Meanwhile (x x' : Switchboard) : Prop where
  runs : ∃ acts, Runs x acts x'
  callers : x'.callers = x.callers
  free : x'.IsFree

theorem Meanwhile.refl (h : x.IsFree) : Meanwhile x x := ⟨⟨[], .nil⟩, rfl, h⟩

theorem Meanwhile.trans (h : Meanwhile x x₁) (h' : Meanwhile x₁ x') : Meanwhile x x' := by
  obtain ⟨acts, hruns⟩ := h.runs
  obtain ⟨more, hmore⟩ := h'.runs
  exact ⟨⟨acts ++ more, hruns.trans hmore⟩, h'.callers.trans h.callers, h'.free⟩

/-- The commands that wait are others. -/
theorem meanwhile_withCommandSink (hfree : x.IsFree) (s : Sink Command) :
    Meanwhile x { x with endpoint := x.endpoint.withCommandSink s } :=
  ⟨⟨[], .single (.command x _)⟩, rfl, hfree⟩

theorem meanwhile_publish (hfree : x.IsFree) (e : Event) :
    ∃ x', Meanwhile x x' ∧ x'.endpoint = x.endpoint.publish e := by
  obtain ⟨acts, hacts, hruns⟩ :=
    (Bus.Traffic.operations x.traffic).publish x.endpoint.events e hfree
  refine ⟨_, ⟨⟨_, runs_of_traffic hruns ?_⟩, rfl, ?_⟩, rfl⟩
  · refine List.forall_mem_cons.2 ⟨fun _ _ hn => hn, fun a ha c _ hn => ?_⟩
    obtain ⟨number, place, refusal, rfl⟩ := hacts a ha
    exact hn
  · exact List.forall_mem_append.2 ⟨hfree, List.forall_mem_singleton.2 fun _ => rfl⟩

theorem meanwhile_publishAll (events : List Event) (hfree : x.IsFree) :
    ∃ x', Meanwhile x x' ∧ x'.endpoint = events.foldl Endpoint.publish x.endpoint := by
  induction events generalizing x with
  | nil => exact ⟨x, .refl hfree, rfl⟩
  | cons e events ih =>
    obtain ⟨x₁, hfirst, hpublished⟩ := meanwhile_publish hfree e
    obtain ⟨x', hrest, hall⟩ := ih hfirst.free
    exact ⟨x', hfirst.trans hrest, by rw [hall, hpublished, List.foldl_cons]⟩

/-- Tokens are drawn until the counter stands anywhere. -/
theorem meanwhile_draws (hfree : x.IsFree) (next : UInt64) :
    ∃ x', Meanwhile x x' ∧ x'.endpoint = { x.endpoint with nextToken := next } := by
  have hdraws (n : Nat) : ∀ x : Switchboard, x.IsFree →
      ∃ x', Meanwhile x x' ∧ x'.endpoint =
        { x.endpoint with nextToken := x.endpoint.nextToken + .ofNat n } := by
    induction n with
    | zero =>
      intro x hfree
      refine ⟨x, .refl hfree, ?_⟩
      rw [show UInt64.ofNat 0 = 0 from rfl, UInt64.add_zero]
    | succ n ih =>
      intro x hfree
      obtain ⟨x', hmeanwhile, hendpoint⟩ := ih _ (show Switchboard.IsFree { x with
        endpoint := x.endpoint.takeToken.1
        drawn := x.drawn + 1
        held := x.held ++ [(x.drawn, x.endpoint.takeToken.2)] } from hfree)
      refine ⟨x', .trans ⟨⟨[], .single (.draw x)⟩, rfl, hfree⟩ hmeanwhile, ?_⟩
      rw [hendpoint, Endpoint.takeToken, Nat.add_comm n 1, UInt64.ofNat_add, ← UInt64.add_assoc]
      rfl
  obtain ⟨x', hmeanwhile, hendpoint⟩ := hdraws (next - x.endpoint.nextToken).toNat x hfree
  refine ⟨x', hmeanwhile, ?_⟩
  rw [hendpoint, UInt64.ofNat_toNat, UInt64.add_comm, UInt64.sub_add_cancel]

/-! ## Passes -/

/-- One call has done something, and the others nothing. -/
structure Moves (x : Switchboard) (i : Nat) (c c' : Caller) (x' : Switchboard) : Prop where
  runs : ∃ acts, Runs x acts x'
  continues : c.Continues c'
  callers : x'.callers = x.callers.set i c'
  free : x.IsFree → x'.IsFree

theorem Moves.trans {i : Nat} {c d c' : Caller} (h : Moves x i c d x₁) (h' : Moves x₁ i d c' x') :
    Moves x i c c' x' where
  runs := by
    obtain ⟨acts, hruns⟩ := h.runs
    obtain ⟨more, hmore⟩ := h'.runs
    exact ⟨acts ++ more, hruns.trans hmore⟩
  continues := h.continues.trans h'.continues
  callers := by rw [h'.callers, h.callers, List.set_set]
  free hfree := h'.free (h.free hfree)

theorem Moves.getElem? {i : Nat} {c c' : Caller} (h : Moves x i c c' x')
    (hc : x.callers[i]? = some c) : x'.callers[i]? = some c' := by
  rw [h.callers, List.getElem?_set_self (List.getElem?_eq_some_iff.1 hc).1]

/-- The rest of a pass is a run, in which one event after the other is taken. -/
theorem moves_passUpTo (n : Nat) {i : Nat} {c : Caller} (hc : x.callers[i]? = some c)
    (hstage : c.stage = .passing n) (hdone : c.call.isDone = false)
    (hplace : c.place < x.endpoint.eventBus.sinks.length) :
    ∃ x' c', Moves x i c c' x' ∧
      x'.endpoint = { x.endpoint with
        eventBus := x.endpoint.eventBus.setSink c.place
          ((x.endpoint.eventBus.sink c.place).passUpTo Call.receive n c.call).2.2 } ∧
      c'.call = ((x.endpoint.eventBus.sink c.place).passUpTo Call.receive n c.call).2.1 ∧
      c'.stage = if c'.call.isDone then .returned (.ok c'.call.answers) else .passing 0 := by
  induction n generalizing x c with
  | zero =>
    refine ⟨x, c, ⟨⟨[], .nil⟩, ⟨rfl, rfl, rfl, rfl⟩, ?_, id⟩, ?_, rfl, ?_⟩
    · obtain ⟨hlt, rfl⟩ := List.getElem?_eq_some_iff.1 hc
      exact (List.set_getElem_self hlt).symm
    · exact congrArg (fun b => { x.endpoint with eventBus := b }) (Bus.setSink_sink hplace).symm
    · rw [hstage, hdone]
      rfl
  | succ n ih =>
    have hstep := Step.take hc hstage
    have hlt := (List.getElem?_eq_some_iff.1 hc).1
    rw [Sink.passUpTo]
    generalize x.endpoint.eventBus.sink c.place = s at hstep ⊢
    rcases hnext : s.next? with ⟨_ | e, rest⟩
    · rw [hnext] at hstep
      exact ⟨_, _, ⟨⟨_, .single hstep⟩, Caller.continues_take c n none, rfl, id⟩, rfl, rfl,
        by rw [Caller.take, hdone]; rfl⟩
    · rw [hnext] at hstep
      have hmoves : Moves x i c (c.take n (some e)) _ :=
        ⟨⟨_, .single hstep⟩, Caller.continues_take c n (some e), rfl, id⟩
      dsimp only
      rw [if_neg (show ¬ BusMessage.isQuit e = true from Bool.false_ne_true)]
      rcases Call.receive_cases c.call e with ⟨c₁, hreceive, hlast⟩ | ⟨c₁, hreceive, hmore⟩
      · refine ⟨_, _, hmoves, ?_, ?_, ?_⟩
        · rw [hreceive]
          rfl
        · rw [Caller.take, hreceive]
        · rw [Caller.take, hreceive, hlast]
          rfl
      · have htaken : c.take n (some e) =
            { c with call := c₁, taken := c.taken ++ [e], stage := .passing n } := by
          rw [Caller.take, hreceive]
        have hsame : (c.take n (some e)).place = c.place :=
          congrArg Subscription.sink (Caller.subscription_take ..)
        have hcall₁ : (c.take n (some e)).call = c₁ := by rw [htaken]
        have hrest : (x.endpoint.eventBus.setSink c.place rest).sink c.place = rest := by
          rw [Bus.sink_setSink, if_pos ⟨rfl, hplace⟩]
        obtain ⟨x', c', hmore', hendpoint, hcall, hstage'⟩ := ih (hmoves.getElem? hc)
          (by rw [htaken]) (by rw [hcall₁, hmore, hdone])
          (by rw [hsame]; exact Nat.lt_of_lt_of_eq hplace (Bus.length_sinks_setSink ..).symm)
        simp only [hsame, hcall₁] at hendpoint hcall
        refine ⟨x', c', hmoves.trans hmore', ?_, ?_, hstage'⟩
        · rw [hreceive, hendpoint]
          dsimp only [setCaller, withTraffic, Bus.Traffic.withBus, List.foldl_nil]
          rw [hrest, Bus.setSink_setSink]
        · rw [hreceive, hcall]
          dsimp only [setCaller, withTraffic, Bus.Traffic.withBus, List.foldl_nil]
          rw [hrest]

/-- A pass is a run. -/
theorem moves_pollCall {i : Nat} {c : Caller} (hc : x.callers[i]? = some c)
    (hstage : c.stage = .waiting) (hdone : c.call.isDone = false)
    (hplace : c.place < x.endpoint.eventBus.sinks.length) :
    ∃ x' c', Moves x i c c' x' ∧ (x'.endpoint, c'.call) = x.endpoint.pollCall c.call ∧
      c'.stage = if c'.call.isDone then .returned (.ok c'.call.answers) else .passing 0 := by
  have hlook : Moves x i c (c.look (x.endpoint.eventBus.sink c.place).queue.length) _ :=
    ⟨⟨[], .single (.look hc hstage)⟩, ⟨rfl, rfl, rfl, rfl⟩, rfl, id⟩
  obtain ⟨x', c', hpass, hendpoint, hcall, hstage'⟩ :=
    moves_passUpTo _ (hlook.getElem? hc) rfl hdone hplace
  exact ⟨x', c', hlook.trans hpass, Prod.ext hendpoint hcall, hstage'⟩

theorem moves_read {i : Nat} {c : Caller} (hc : x.callers[i]? = some c)
    (hstage : c.stage = .passing 0) (now : Nat) :
    Moves x i c (c.read now) (x.setCaller i (c.read now)) :=
  ⟨⟨[], .single (.read hc hstage now)⟩, ⟨rfl, rfl, rfl, rfl⟩, rfl, id⟩

theorem Moves.meanwhile {i : Nat} {c c' : Caller} (h : Moves x i c c' x₁) (h' : Meanwhile x₁ x') :
    Moves x i c c' x' where
  runs := by
    obtain ⟨acts, hruns⟩ := h.runs
    obtain ⟨more, hmore⟩ := h'.runs
    exact ⟨acts ++ more, hruns.trans hmore⟩
  continues := h.continues
  callers := h'.callers.trans h.callers
  free _ := h'.free

/-- The clock is read after a pass at which it is too late. -/
theorem Moves.timeout {i : Nat} {c c' : Caller} (h : Moves x i c c' x₁)
    (hc : x.callers[i]? = some c) (hstage : c'.stage = .passing 0) {now : Nat}
    (hlate : c.deadline ≤ now) :
    ∃ x' d, Moves x i c d x' ∧ x'.endpoint = x₁.endpoint ∧ d.call = c'.call ∧
      d.stage = .returned (.error (.timeout c.time)) := by
  refine ⟨_, _, h.trans (moves_read (h.getElem? hc) hstage now), rfl, rfl, ?_⟩
  rw [Caller.read, h.continues.deadline, if_pos hlate, h.continues.time]

theorem getElem?_setCaller {i : Nat} {c : Caller} (hc : x.callers[i]? = some c) (c' : Caller) :
    (x.setCaller i c').callers[i]? = some c' :=
  List.getElem?_set_self (List.getElem?_eq_some_iff.1 hc).1

/-! ## The beginning and the end of a call -/

/-- A call begins. -/
theorem runs_prepareCall (hfree : x.IsFree) (time : Nat) :
    ∃ acts x' c, Runs x acts x' ∧ x'.IsFree ∧ x'.callers = x.callers ++ [c] ∧
      x.endpoint.prepareCall = (x'.endpoint, c.call) ∧ c.time = time ∧ c.stage = .ready ∧
      c.subscribed = true ∧ c.call.isDone = false := by
  have hdraw := Step.draw x
  generalize hdrawn : { x with
    endpoint := x.endpoint.takeToken.1
    drawn := x.drawn + 1
    held := x.held ++ [(x.drawn, x.endpoint.takeToken.2)] : Switchboard } = x₁ at hdraw
  have hheld : x₁.held[x.held.length]? = some (x.drawn, x.endpoint.takeToken.2) := by
    rw [← hdrawn]
    exact List.getElem?_concat_length
  have hfree₁ : x₁.IsFree := hdrawn ▸ hfree
  have hsubscribe := Step.subscribe hheld hfree₁ time
  generalize hbegun : ({
    number := x.drawn
    call := { token := x.endpoint.takeToken.2, subscription := x₁.endpoint.subscribe.2 }
    since := x₁.published.length
    time := time } : Caller) = c at hsubscribe
  refine ⟨_, _, c, .snoc (.single hdraw) hsubscribe, hfree₁, ?_, ?_, ?_⟩
  · rw [← hdrawn]
  · rw [← hbegun, ← hdrawn]
    rfl
  · rw [← hbegun]
    exact ⟨rfl, rfl, rfl, rfl⟩

/-- A call that has returned goes. -/
theorem runs_leave {i : Nat} {c : Caller} (hc : x.callers[i]? = some c)
    {result : Except BusError (List Event)} (hstage : c.stage = .returned result)
    (hsubscribed : c.subscribed = true) (hfree : x.IsFree) :
    ∃ acts x', Runs x acts x' ∧ x'.IsFree ∧
      x'.endpoint = x.endpoint.unsubscribe c.call.subscription ∧
      x'.callers = x.callers.set i { c with subscribed := false } :=
  ⟨_, _, .single (.leave hc hstage hsubscribed hfree), hfree, rfl, rfl⟩

/-- What many can have done from the beginning. -/
def Reached (x : Switchboard) : Prop := ∃ acts, Runs {} acts x

theorem Reached.trans {acts : List (Act Event)} (h : x.Reached) (hruns : Runs x acts x') :
    x'.Reached := by
  obtain ⟨before, hbefore⟩ := h
  exact ⟨before ++ acts, hbefore.trans hruns⟩

theorem Reached.place_lt (h : x.Reached) {i : Nat} {c : Caller} (hc : x.callers[i]? = some c) :
    c.place < x.endpoint.eventBus.sinks.length := by
  obtain ⟨acts, hruns⟩ := h
  exact ((sound_runs hruns).wired.hears c (List.mem_of_getElem? hc)).1.linked.place

end Switchboard

namespace Database

open Bus (Act)
open Switchboard (Meanwhile)

variable {σ : Type} {x : Switchboard}

/-! ## Rounds -/

/-- A turn of the dispatcher takes commands, publishes, and draws tokens. -/
theorem meanwhile_dispatcherTurn (m : Machine) {db : Database σ} (hx : x.endpoint = db.endpoint)
    (hfree : x.IsFree) :
    ∃ x', Meanwhile x x' ∧ x'.endpoint = (dispatcherTurn m db).2.endpoint := by
  rw [dispatcherTurn]
  split
  · exact ⟨x, .refl hfree, hx⟩
  · rw [← hx]
    dsimp only
    obtain ⟨x₁, hpublishes, hpublished⟩ := Switchboard.meanwhile_publishAll _
      (Switchboard.meanwhile_withCommandSink hfree _).free
    obtain ⟨x', hdraws, hdrawn⟩ := Switchboard.meanwhile_draws hpublishes.free _
    refine ⟨x', ((Switchboard.meanwhile_withCommandSink hfree _).trans hpublishes).trans hdraws, ?_⟩
    rw [hdrawn, hpublished]

theorem endpoint_runnerTurn [Backend σ] (i : Nat) (m : Machine) (db : Database σ) :
    (runnerTurn i m db).2.endpoint = db.endpoint := by
  rw [runnerTurn]
  split
  · rename_i info b route _ _
    dsimp only
    generalize Work.after _ info.name _ = work
    generalize (if work.backend.isSome then _ else _) = passed
    obtain ⟨pass, worked, commands⟩ := passed
    dsimp only
    split
    · rfl
    · split <;> rfl
  · rfl

theorem endpoint_foldl_runnerTurn [Backend σ] (positions : List Nat) (m : Machine)
    (db : Database σ) :
    (positions.foldl (fun (m, db) i => runnerTurn i m db) (m, db)).2.endpoint = db.endpoint := by
  induction positions generalizing m db with
  | nil => rfl
  | cons i rest ih =>
    rw [List.foldl_cons]
    exact (ih _ _).trans (endpoint_runnerTurn i m db)

theorem meanwhile_round [Backend σ] (m : Machine) {db : Database σ} (hx : x.endpoint = db.endpoint)
    (hfree : x.IsFree) : ∃ x', Meanwhile x x' ∧ x'.endpoint = (round m db).2.endpoint := by
  have hrunners := endpoint_foldl_runnerTurn (List.range db.runners.length) m db
  exact meanwhile_dispatcherTurn _ (hx.trans hrunners.symm) hfree

/-! ## Calls -/

/-- A pass of a call to a database is a run. -/
theorem moves_pollCall {db : Database σ} {i : Nat} {c : Caller} (hreached : x.Reached)
    (hx : x.endpoint = db.endpoint) (hc : x.callers[i]? = some c) (hstage : c.stage = .waiting)
    (hdone : c.call.isDone = false) :
    ∃ x' c', x.Moves i c c' x' ∧
      pollCall c.call db = (c'.call, { db with endpoint := x'.endpoint }) ∧
      c'.stage = if c'.call.isDone then .returned (.ok c'.call.answers) else .passing 0 := by
  obtain ⟨x', c', hpass, hpolled, hstage'⟩ :=
    Switchboard.moves_pollCall hc hstage hdone (hreached.place_lt hc)
  refine ⟨x', c', hpass, ?_, hstage'⟩
  rw [pollCall, ← hx, ← hpolled]

/-- The passes of a call and the rounds between them are a run, until it has its answers or the
deadline is over. -/
theorem moves_await [Backend σ] (n : Nat) {m m' : Machine} {db db' : Database σ} {call : Call}
    {i : Nat} {c : Caller} (hreached : x.Reached) (hfree : x.IsFree)
    (hx : x.endpoint = db.endpoint) (hc : x.callers[i]? = some c) (hstage : c.stage = .waiting)
    (hdone : c.call.isDone = false)
    (h : await pollCall (·.isDone) (some c.deadline) n c.call m db = (call, m', db')) :
    ∃ x' c', x.Moves i c c' x' ∧ x'.endpoint = db'.endpoint ∧ c'.call = call ∧
      c'.stage =
        .returned (if call.isDone then .ok call.answers else .error (.timeout c.time)) := by
  induction n generalizing x c m db with
  | zero =>
    obtain ⟨x₁, c₁, hpass, hpolled, hstage₁⟩ := moves_pollCall hreached hx hc hstage hdone
    rw [await, hpolled] at h
    cases h
    cases hdone₁ : c₁.call.isDone with
    | true =>
      rw [hdone₁] at hstage₁
      exact ⟨x₁, c₁, hpass, rfl, rfl, hstage₁⟩
    | false =>
      rw [hdone₁] at hstage₁
      exact hpass.timeout hc hstage₁ (Nat.le_refl _)
  | succ n ih =>
    obtain ⟨x₁, c₁, hpass, hpolled, hstage₁⟩ := moves_pollCall hreached hx hc hstage hdone
    rw [await, hpolled] at h
    dsimp only at h
    cases hdone₁ : c₁.call.isDone with
    | true =>
      rw [hdone₁, Bool.true_or, if_pos rfl] at h
      cases h
      rw [hdone₁] at hstage₁ ⊢
      exact ⟨x₁, c₁, hpass, rfl, rfl, hstage₁⟩
    | false =>
      rw [hdone₁] at hstage₁ h
      by_cases hlate : c.deadline ≤ m.now
      · rw [if_pos (by simpa using hlate)] at h
        cases h
        rw [hdone₁]
        exact hpass.timeout hc hstage₁ hlate
      · -- It is not too late for another pass, after everyone else has had a turn.
        rw [if_neg (by simpa using hlate)] at h
        have hread := hpass.trans (Switchboard.moves_read (hpass.getElem? hc) hstage₁ m.now)
        obtain ⟨x₂, hround, hx₂⟩ : ∃ x₂, Meanwhile (x₁.setCaller i (c₁.read m.now)) x₂ ∧
            x₂.endpoint = (round m { db with endpoint := x₁.endpoint }).2.endpoint :=
          meanwhile_round m rfl (hread.free hfree)
        have hmoves := hread.meanwhile hround
        obtain ⟨acts, hruns⟩ := hmoves.runs
        have hwaiting : (c₁.read m.now).stage = .waiting := by
          rw [Caller.read, hpass.continues.deadline, if_neg hlate]
        rw [← hread.continues.deadline] at h
        obtain ⟨x', c', hrest, hendpoint, hcall, hreturned⟩ := ih (hreached.trans hruns)
          hround.free hx₂ (hmoves.getElem? hc) hwaiting hdone₁ h
        refine ⟨x', c', hmoves.trans hrest, hendpoint, hcall, ?_⟩
        rw [hreturned, hread.continues.time]

section

variable [Backend σ] {m m' : Machine} {db db' : Database σ} {command : Token → Command}
  {time : Nat} {endpoint : Endpoint} {c c' : Call}
  (hprepared : db.endpoint.prepareCall = (endpoint, c))
include hprepared

/-- A call whose command is refused returns at once. -/
theorem call_of_refused {e : BusError}
    (hoffer : endpoint.commandSink.offer (command c.token) = .error e) :
    db.call m command time =
      (.error e, m, { db with endpoint := endpoint.unsubscribe c.subscription }) := by
  have hsubmit : endpoint.submit c command = (.error e, endpoint.unsubscribe c.subscription) := by
    rw [Endpoint.submit, hoffer]
  rw [call, hprepared]
  dsimp only
  rw [hsubmit]

/-- A call whose command is accepted waits for its answers. -/
theorem call_of_accepted {s : Sink Command}
    (hoffer : endpoint.commandSink.offer (command c.token) = .ok s)
    (hawait : await pollCall (·.isDone) (some (m.now + time)) (db.patience (some time)) c m
      { db with endpoint := endpoint.withCommandSink s } = (c', m', db')) :
    db.call m command time =
      (if c'.isDone then .ok c'.answers else .error (.timeout time), m',
        { db' with endpoint := db'.endpoint.unsubscribe c'.subscription }) := by
  have hsubmit : endpoint.submit c command = (.ok (), endpoint.withCommandSink s) := by
    rw [Endpoint.submit, hoffer]
  rw [call, hprepared]
  dsimp only
  rw [hsubmit]
  dsimp only
  rw [show Database.patience { db with endpoint := endpoint.withCommandSink s } (some time) =
    db.patience (some time) from rfl, hawait]

end

/-- A call to a database is a run, and returns what the call in the run returns. -/
theorem runs_call [Backend σ] (m : Machine) {db : Database σ} (command : Token → Command)
    (time : Nat) (hreached : x.Reached) (hfree : x.IsFree) (hx : x.endpoint = db.endpoint) :
    ∃ acts x' c, x.Runs acts x' ∧ x'.IsFree ∧ x'.callers = x.callers ++ [c] ∧
      x'.endpoint = (db.call m command time).2.2.endpoint ∧
      c.stage = .returned (db.call m command time).1 := by
  obtain ⟨acts, x₁, c, hruns, hfree₁, hcallers, hprepared, rfl, hready, hsubscribed, hdone⟩ :=
    Switchboard.runs_prepareCall hfree time
  rw [hx] at hprepared
  have hc : x₁.callers[x.callers.length]? = some c := hcallers ▸ List.getElem?_concat_length
  have hset (c' : Caller) : x₁.callers.set x.callers.length c' = x.callers ++ [c'] := by
    rw [hcallers, List.set_append_right _ _ (Nat.le_refl _), Nat.sub_self]
    rfl
  cases hoffer : x₁.endpoint.commandSink.offer (command c.call.token) with
  | error e =>
    obtain ⟨more, x', hleave, hfree', hendpoint, hcallers'⟩ := Switchboard.runs_leave
      (Switchboard.getElem?_setCaller hc (c.refused e)) rfl hsubscribed hfree₁
    rw [call_of_refused hprepared hoffer]
    refine ⟨_, x', { c.refused e with subscribed := false },
      (hruns.snoc (.refuse hc hready command hoffer)).trans hleave, hfree', ?_, hendpoint, rfl⟩
    rw [hcallers', Switchboard.setCaller, List.set_set, hset]
  | ok s =>
    have hsend := hruns.snoc (.send hc hready command hoffer m.now)
    rcases hawait : await pollCall (·.isDone) (some (m.now + c.time)) (db.patience (some c.time))
      c.call m { db with endpoint := x₁.endpoint.withCommandSink s } with ⟨call', m', db'⟩
    obtain ⟨x₂, c₂, hmoves, hx₂, rfl, hreturned⟩ := moves_await (c := c.sent m.now) _
      (Switchboard.Reached.trans hreached hsend) hfree₁ rfl
      (Switchboard.getElem?_setCaller hc _) rfl hdone hawait
    obtain ⟨acts₂, hruns₂⟩ := hmoves.runs
    have hc₂ := hmoves.getElem? (Switchboard.getElem?_setCaller hc _)
    obtain ⟨more, x', hleave, hfree', hendpoint, hcallers'⟩ := Switchboard.runs_leave hc₂ hreturned
      (hmoves.continues.subscribed.trans hsubscribed) (hmoves.free hfree₁)
    rw [call_of_accepted hprepared hoffer hawait]
    refine ⟨_, x', { c₂ with subscribed := false }, (hsend.trans hruns₂).trans hleave, hfree', ?_,
      ?_, hreturned⟩
    · rw [hcallers', hmoves.callers, List.set_set]
      dsimp only [Switchboard.setCaller]
      rw [List.set_set, hset]
    · rw [hendpoint, hx₂]

/-- Whatever goes on at an endpoint, a call returns the answers to its own request, and none of the
answers to another, unless the counter of tokens has gone round between the two. A call to a
database is one of these. -/
theorem calls_correlated :
    (∀ (acts : List (Act Event)) (x : Switchboard), Switchboard.Runs {} acts x →
      (∀ c ∈ x.callers, x.Outcome acts c) ∧
      ∀ (i j : Nat) (c c' : Caller), i ≠ j → x.callers[i]? = some c → x.callers[j]? = some c' →
        c.number < c'.number + UInt64.size → c'.number < c.number + UInt64.size →
        ∀ e ∈ c.call.answers, e.token? ≠ some c'.call.token) ∧
    ∀ (σ : Type) [Backend σ] (m : Machine) (db : Database σ) (command : Token → Command)
      (time : Nat) (before : List (Act Event)) (x : Switchboard),
      Switchboard.Runs {} before x → x.IsFree → x.endpoint = db.endpoint →
      ∃ acts x' c, Switchboard.Runs {} (before ++ acts) x' ∧ x'.IsFree ∧
        x'.callers = x.callers ++ [c] ∧ x'.endpoint = (db.call m command time).2.2.endpoint ∧
        c.stage = .returned (db.call m command time).1 := by
  refine ⟨fun acts x hruns => ⟨fun c hc => (Switchboard.sound_runs hruns).outcome hc,
    fun i j c c' hij hc hc' => (Switchboard.sound_runs hruns).apart hij hc hc'⟩, ?_⟩
  intro σ _ m db command time before x hbefore hfree hx
  obtain ⟨acts, x', c, hruns, hfree', hcallers, hendpoint, hreturned⟩ :=
    runs_call m command time ⟨before, hbefore⟩ hfree hx
  exact ⟨acts, x', c, hbefore.trans hruns, hfree', hcallers, hendpoint, hreturned⟩

/-- The first of two calls takes one page while this is still on its way to the second, and the
other page after the second has returned and gone. A third call is to a database. -/
theorem calls_correlated_interleaved :
    let page : Event := .spliceChildren (some ⟨1⟩) "/a" false 0 0 []
    let last : Event := .spliceChildren (some ⟨1⟩) "/a" true 0 0 []
    let object : Event := .object ⟨2⟩ (.new "/b" "B" .directory)
    let acts : List (Act Event) := [
      .addSink 1024, .connect 0 0 1, .addSink 1024, .connect 0 1 2,
      .publish 0 page, .offer (some (0, 1)) 0 page none, .take 0 (some page),
      .offer (some (0, 2)) 1 page none,
      .publish 0 object, .offer (some (1, 1)) 0 object none, .offer (some (1, 2)) 1 object none,
      .take 1 (some page), .take 1 (some object), .disconnect 0 2, .drop 1,
      .publish 0 last, .offer (some (2, 1)) 0 last none, .take 0 (some object), .take 0 (some last)]
    ∃ x first second, Switchboard.Runs {} acts x ∧ x.callers = [first, second] ∧
      first.stage = .returned (.ok [page, last]) ∧ x.heard first = [page, object, last] ∧
      [page, last] = Event.answer ⟨1⟩ (x.heard first) ∧
      second.stage = .returned (.ok [object]) ∧
      (∀ e ∈ first.call.answers, e.token? ≠ some second.call.token) ∧
      (∀ e ∈ second.call.answers, e.token? ≠ some first.call.token) ∧
      ∃ (db : Database Scripted) (more : List (Act Event)) (x' : Switchboard) (third : Caller),
        Switchboard.Runs {} (acts ++ more) x' ∧ x'.callers = [first, second, third] ∧
        third.stage = .returned (db.call {} (.browseObject · "/c") 200).1 ∧
        (db.call {} (.browseObject · "/c") 200).1 = .ok [.notFound (some ⟨3⟩) "/c"] := by
  intro page last object acts
  let browse (token : Token) : Command := .browseChildren token "/a" 0 none false
  let find (token : Token) : Command := .browseObject token "/b"
  let first : Caller := {
    number := 0
    call := { token := ⟨1⟩, subscription := ⟨0, 0, 1⟩ }
    since := 0
    time := 100
    deadline := 106
    stage := .waiting }
  let second : Caller := { first with
    number := 1
    call := { token := ⟨2⟩, subscription := ⟨1, 0, 2⟩ }
    deadline := 105 }
  let paged : Caller := { first with
    call := { first.call with answers := [page] }
    taken := [page]
    readings := [10] }
  let found : Caller := { second with
    call := { second.call with answers := [object], isDone := true }
    taken := [page, object]
    stage := .returned (.ok [object]) }
  let answered : Caller := { paged with
    call := { paged.call with answers := [page, last], isDone := true }
    taken := [page, object, last]
    stage := .returned (.ok [page, last]) }
  let state (sinks : List (Sink Event)) (connections : List (Nat × Nat)) (events : List Event)
      (callers : List Caller) : Switchboard := {
    endpoint := { Endpoint.new with
      commandBus := ⟨[{ capacity := 1024, queue := [find ⟨2⟩, browse ⟨1⟩] }], []⟩
      eventBus := ⟨sinks, [⟨2, connections⟩]⟩
      nextToken := 3 }
    publications := events.map (⟨0, ·, []⟩)
    drawn := 2
    callers := callers }
  have hpublish (x : Switchboard) (hfree : x.IsFree) (e : Event) :=
    Switchboard.Step.other (.publish x.traffic hfree e) fun _ _ h => h
  -- Both have drawn a token before the first subscribes, and the second is the first to send.
  have hruns := (Switchboard.Runs.nil (x := {})).snoc (.draw _)
  have hruns := hruns.snoc (.draw _)
  have hruns := hruns.snoc (.subscribe (k := 0) rfl (by decide) 100)
  have hruns := hruns.snoc (.subscribe (k := 0) rfl (by decide) 100)
  have hruns := hruns.snoc (.send (i := 1) rfl rfl find rfl 5)
  have hruns := hruns.snoc (.send (i := 0) rfl rfl browse rfl 6)
  have hruns : Switchboard.Runs {} (acts.take 4)
      (state [.new, .new] [(1, 0), (2, 1)] [] [first, second]) := hruns
  have hruns := hruns.snoc (hpublish _ (by decide) page)
  have hruns := hruns.snoc (.other (.reach _ (k := 0) rfl) fun _ _ h => h)
  have hruns := hruns.snoc (.look (i := 0) rfl rfl)
  have hruns := hruns.snoc (.take (i := 0) rfl rfl)
  have hruns := hruns.snoc (.other (.reach _ (k := 0) rfl) fun _ _ h => h)
  have hruns := hruns.snoc (.read (i := 0) rfl rfl 10)
  have hruns : Switchboard.Runs {} (acts.take 8)
      (state [.new, { capacity := 1024, queue := [page] }] [(1, 0), (2, 1)] [page]
        [paged, second]) := hruns
  have hruns := hruns.snoc (hpublish _ (by decide) object)
  have hruns := hruns.snoc (.other (.reach _ (k := 1) rfl) fun _ _ h => h)
  have hruns := hruns.snoc (.other (.reach _ (k := 1) rfl) fun _ _ h => h)
  have hruns := hruns.snoc (.look (i := 1) rfl rfl)
  have hruns := hruns.snoc (.take (i := 1) rfl rfl)
  have hruns := hruns.snoc (.take (i := 1) rfl rfl)
  have hruns : Switchboard.Runs {} (acts.take 13)
      (state [{ capacity := 1024, queue := [object] }, .new] [(1, 0), (2, 1)] [page, object]
        [paged, found]) := hruns
  have hruns := hruns.snoc (.leave (i := 1) rfl rfl rfl (by decide))
  have hruns := hruns.snoc (hpublish _ (by decide) last)
  have hruns := hruns.snoc (.other (.reach _ (k := 2) rfl) fun _ _ h => h)
  have hruns := hruns.snoc (.look (i := 0) rfl rfl)
  have hruns := hruns.snoc (.take (i := 0) rfl rfl)
  have hruns := hruns.snoc (.take (i := 0) rfl rfl)
  let x := state [.new, { capacity := 1024, isOpen := false }] [(1, 0)] [page, object, last]
    [answered, { found with subscribed := false }]
  have hruns : Switchboard.Runs {} acts x := hruns
  obtain ⟨houtcome, hapart⟩ := calls_correlated.1 _ _ hruns
  obtain ⟨-, -, -, hall⟩ := (houtcome _ List.mem_cons_self).ok _ rfl
  let db : Database Scripted := { (default : Database Scripted) with
    endpoint := x.endpoint
    pollInterval := 100 }
  obtain ⟨more, x', third, hmore, -, hcallers, -, hreturned⟩ :=
    calls_correlated.2 Scripted {} db (.browseObject · "/c") 200 _ _ hruns (by decide) rfl
  have hnone : (db.call {} (.browseObject · "/c") 200).1 = .ok [.notFound (some ⟨3⟩) "/c"] := by
    simp only [db, x, state, find, browse]
    rfl
  exact ⟨x, _, _, hruns, rfl, rfl, rfl, hall (Bus.hasRoom_of_length (by decide) _), rfl,
    hapart 0 1 _ _ (by decide) rfl rfl (by decide) (by decide),
    hapart 1 0 _ _ (by decide) rfl rfl (by decide) (by decide), db, more, x', third, hmore,
    hcallers, hreturned, hnone⟩

end Database

end Mediatheque
