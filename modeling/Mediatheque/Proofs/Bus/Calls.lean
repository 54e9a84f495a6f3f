import Mediatheque.Bus.Endpoint
import Mediatheque.Proofs.Bus.Traffic

/-!
# Calls

Many call at one endpoint at a time, and meanwhile others publish there, draw tokens and send
commands. A call draws a token, subscribes and sends its command. Then it makes passes over what its
subscription has queued, and reads the clock after each (`Caller`).

`Switchboard.Step` is one step of anyone. A pass takes one event a step, so that everything else may
come between any two of them; and the others may do whatever can be done on a bus
(`Bus.Traffic.Step`), if only they keep their hands off the subscriptions of the calls. Thus a run
is any interleaving of what many do.

What a call has on record is consistent at any time (`Caller.Consistent`): its answers are those
that are contained in what it has taken (`Event.answer`), however it has been taken.
-/

namespace Mediatheque

/-! ## What answers a request -/

namespace Event

/-- Events up to and including the first that is the last answer to a request. -/
def untilComplete (token : Token) (events : List Event) : List Event :=
  events.take (events.findIdx (·.completes token) + 1)

/-- The answers to a request, up to and including the first that is the last one. -/
def answer (token : Token) (events : List Event) : List Event :=
  (untilComplete token events).filter (·.token? = some token)

variable {token : Token} {events : List Event} {e : Event}

theorem token?_of_completes (h : e.completes token = true) : e.token? = some token := by
  unfold completes at h
  split at h
  · obtain ⟨rfl, -⟩ := of_decide_eq_true h
    rfl
  · exact of_decide_eq_true h

theorem untilComplete_of_none (h : ∀ e ∈ events, e.completes token = false) :
    untilComplete token events = events := by
  rw [untilComplete, List.findIdx_eq_length_of_false h]
  exact List.take_of_length_le (Nat.le_succ _)

theorem untilComplete_append_singleton (h : ∀ e ∈ events, e.completes token = false) (e : Event) :
    untilComplete token (events ++ [e]) = events ++ [e] := by
  rw [untilComplete, List.findIdx_append, List.findIdx_eq_length_of_false h,
    if_neg (Nat.lt_irrefl _)]
  refine List.take_of_length_le ?_
  rw [List.length_append, List.length_singleton]
  omega

/-- What comes after the last answer makes no difference. -/
theorem untilComplete_append (h : ∃ e ∈ events, e.completes token = true) (more : List Event) :
    untilComplete token (events ++ more) = untilComplete token events := by
  have hlt := List.findIdx_lt_length_of_exists h
  rw [untilComplete, List.findIdx_append, if_pos hlt, List.take_append_of_le_length hlt,
    untilComplete]

theorem answer_append_singleton (h : ∀ e ∈ events, e.completes token = false) (e : Event) :
    answer token (events ++ [e]) =
      answer token events ++ if e.token? = some token then [e] else [] := by
  rw [answer, answer, untilComplete_append_singleton h, untilComplete_of_none h,
    List.filter_append]
  by_cases he : e.token? = some token <;> simp [he]

theorem answer_of_prefix {events' : List Event} (h : ∃ e ∈ events, e.completes token = true)
    (hevents : events <+: events') : answer token events' = answer token events := by
  obtain ⟨more, rfl⟩ := hevents
  rw [answer, untilComplete_append h, answer]

theorem token?_of_mem_answer (h : e ∈ answer token events) : e.token? = some token :=
  of_decide_eq_true (List.mem_filter.1 h).2

end Event

/-! ## Calls -/

/-- Where a call stands. -/
inductive Stage where
  /-- It has subscribed, and has its command to send. -/
  | ready
  /-- Its command is sent, and it makes a pass from time to time. -/
  | waiting
  /-- It is in a pass, with so many events left to take. -/
  | passing (left : Nat)
  | returned (result : Except BusError (List Event))

/-- A call, and what has become of it. -/
structure Caller where
  /-- How many tokens had been drawn before its own. -/
  number : Nat
  call : Call
  /-- How many events had been published when it subscribed. -/
  since : Nat
  /-- For how long it waits. -/
  time : Nat
  deadline : Nat := 0
  /-- The events that it has taken, in all of its passes. -/
  taken : List Event := []
  /-- What the clock has shown after each pass. -/
  readings : List Nat := []
  stage : Stage := .ready
  /-- Whether its subscription goes on. -/
  subscribed : Bool := true

namespace Caller

/-- The place of its sink. -/
def place (c : Caller) : Nat := c.call.subscription.sink

/-- The command has been accepted, and the time runs. -/
def sent (c : Caller) (now : Nat) : Caller :=
  { c with deadline := now + c.time, stage := .waiting }

/-- The command has not been accepted. -/
def refused (c : Caller) (e : BusError) : Caller := { c with stage := .returned (.error e) }

/-- A pass begins, with so many events in the queue. -/
def look (c : Caller) (queued : Nat) : Caller := { c with stage := .passing queued }

/-- An event is taken in a pass, or there was none. -/
def take (c : Caller) (left : Nat) : Option Event → Caller
  | none => { c with stage := .passing 0 }
  | some e =>
    let (call, _, flow) := c.call.receive e
    { c with
      call := call
      taken := c.taken ++ [e]
      stage := match flow with
        | .stop => .returned (.ok call.answers)
        | .go => .passing left }

/-- The clock is read after a pass. -/
def read (c : Caller) (now : Nat) : Caller :=
  { c with
    readings := c.readings ++ [now]
    stage := if c.deadline ≤ now then .returned (.error (.timeout c.time)) else .waiting }

end Caller

/-! ## Steps -/

/-- An act is on the sink or the connection of a subscription, and is not a publication. -/
def Bus.Act.Concerns {α : Type} (u : Subscription) : Act α → Prop
  | .offer none place _ _ | .take place _ | .drop place | .connect _ place _ => place = u.sink
  | .disconnect hub number => hub = u.hub ∧ number = u.connection
  | _ => False

/-- An endpoint with all that goes on there. -/
structure Switchboard where
  endpoint : Endpoint := .new
  /-- What has been published on the bus of events. -/
  publications : List (Bus.Publication Event) := []
  /-- How many tokens have been drawn. -/
  drawn : Nat := 0
  /-- The tokens that have been drawn for no call yet, with their numbers. -/
  held : List (Nat × Token) := []
  callers : List Caller := []

namespace Switchboard

open Bus (Act Traffic)

def traffic (x : Switchboard) : Traffic Event := ⟨x.endpoint.eventBus, x.publications⟩

def withTraffic (x : Switchboard) (t : Traffic Event) : Switchboard :=
  { x with endpoint := { x.endpoint with eventBus := t.bus }, publications := t.publications }

def setCaller (x : Switchboard) (i : Nat) (c : Caller) : Switchboard :=
  { x with callers := x.callers.set i c }

/-- Nothing is being published by the hub of the endpoint. Until then it is locked. -/
def IsFree (x : Switchboard) : Prop := x.traffic.IsFree x.endpoint.events

instance (x : Switchboard) : Decidable x.IsFree :=
  inferInstanceAs (Decidable (x.traffic.IsFree x.endpoint.events))

/-- The events that the hub of the endpoint has published. -/
def published (x : Switchboard) : List Event :=
  (x.publications.filter (·.hub = x.endpoint.events)).map (·.message)

/-- The events that have been published since a call subscribed. -/
def heard (x : Switchboard) (c : Caller) : List Event := x.published.drop c.since

/-- A step of anyone, with what it comes to on the bus of events. -/
inductive Step : Switchboard → List (Act Event) → Switchboard → Prop where
  | draw (x : Switchboard) :
    Step x [] { x with
      endpoint := x.endpoint.takeToken.1
      drawn := x.drawn + 1
      held := x.held ++ [(x.drawn, x.endpoint.takeToken.2)] }
  /-- Commands are sent by others, or taken. -/
  | command (x : Switchboard) (b : Bus Command) :
    Step x [] { x with endpoint := { x.endpoint with commandBus := b } }
  /-- Others do something on the bus of events. -/
  | other {x : Switchboard} {a : Act Event} {t : Traffic Event} (h : x.traffic.Step a t)
      (hothers : ∀ c ∈ x.callers, ¬ a.Concerns c.call.subscription) :
    Step x [a] (x.withTraffic t)
  /-- A call begins. -/
  | subscribe {x : Switchboard} {k number : Nat} {token : Token}
      (hheld : x.held[k]? = some (number, token)) (hfree : x.IsFree) (time : Nat) :
    Step x [.addSink Sink.defaultCapacity,
        .connect x.endpoint.events x.endpoint.eventBus.sinks.length
          x.endpoint.subscribe.2.connection]
      { x with
        endpoint := x.endpoint.subscribe.1
        held := x.held.eraseIdx k
        callers := x.callers ++ [{
          number := number
          call := { token := token, subscription := x.endpoint.subscribe.2 }
          since := x.published.length
          time := time }] }
  | send {x : Switchboard} {i : Nat} {c : Caller} (hc : x.callers[i]? = some c)
      (hstage : c.stage = .ready) (command : Token → Command) {s : Sink Command}
      (hsend : x.endpoint.commandSink.offer (command c.call.token) = .ok s) (now : Nat) :
    Step x [] { x.setCaller i (c.sent now) with endpoint := x.endpoint.withCommandSink s }
  | refuse {x : Switchboard} {i : Nat} {c : Caller} (hc : x.callers[i]? = some c)
      (hstage : c.stage = .ready) (command : Token → Command) {e : BusError}
      (hsend : x.endpoint.commandSink.offer (command c.call.token) = .error e) :
    Step x [] (x.setCaller i (c.refused e))
  | look {x : Switchboard} {i : Nat} {c : Caller} (hc : x.callers[i]? = some c)
      (hstage : c.stage = .waiting) :
    Step x [] (x.setCaller i (c.look (x.endpoint.eventBus.sink c.place).queue.length))
  | take {x : Switchboard} {i left : Nat} {c : Caller} (hc : x.callers[i]? = some c)
      (hstage : c.stage = .passing (left + 1)) :
    Step x [.take c.place (x.endpoint.eventBus.sink c.place).next?.1]
      ((x.withTraffic (x.traffic.withBus (x.endpoint.eventBus.setSink c.place
          (x.endpoint.eventBus.sink c.place).next?.2))).setCaller i
        (c.take left (x.endpoint.eventBus.sink c.place).next?.1))
  | read {x : Switchboard} {i : Nat} {c : Caller} (hc : x.callers[i]? = some c)
      (hstage : c.stage = .passing 0) (now : Nat) : Step x [] (x.setCaller i (c.read now))
  /-- The subscription of a call that has returned ends. -/
  | leave {x : Switchboard} {i : Nat} {c : Caller} (hc : x.callers[i]? = some c)
      {result : Except BusError (List Event)} (hstage : c.stage = .returned result)
      (hsubscribed : c.subscribed = true) (hfree : x.IsFree) :
    Step x [.disconnect c.call.subscription.hub c.call.subscription.connection, .drop c.place]
      { x.setCaller i { c with subscribed := false } with
        endpoint := x.endpoint.unsubscribe c.call.subscription }

/-- Steps one after the other. -/
inductive Runs (x : Switchboard) : List (Act Event) → Switchboard → Prop where
  | nil : Runs x [] x
  | snoc {acts more : List (Act Event)} {x₁ x' : Switchboard} (h : Runs x acts x₁)
      (hstep : Step x₁ more x') : Runs x (acts ++ more) x'

theorem Runs.single {x x' : Switchboard} {acts : List (Act Event)} (h : Step x acts x') :
    Runs x acts x' := .snoc .nil h

theorem Runs.trans {x x₁ x' : Switchboard} {acts more : List (Act Event)} (h : Runs x acts x₁)
    (hmore : Runs x₁ more x') : Runs x (acts ++ more) x' := by
  induction hmore with
  | nil =>
    rw [List.append_nil]
    exact h
  | snoc _ hstep ih =>
    rw [← List.append_assoc]
    exact .snoc ih hstep

end Switchboard

/-! ## What a call has on record -/

namespace Call

variable (c : Call) (e : Event)

theorem token_receive : (c.receive e).1.token = c.token := by
  rw [receive]
  split
  · rfl
  · split <;> rfl

theorem subscription_receive : (c.receive e).1.subscription = c.subscription := by
  rw [receive]
  split
  · rfl
  · split <;> rfl

end Call

namespace Caller

section

variable (c : Caller) (left : Nat) (event : Option Event)

theorem number_take : (c.take left event).number = c.number := by cases event <;> rfl

theorem since_take : (c.take left event).since = c.since := by cases event <;> rfl

theorem subscribed_take : (c.take left event).subscribed = c.subscribed := by cases event <;> rfl

theorem taken_take : (c.take left event).taken = c.taken ++ event.toList := by
  cases event with
  | none => exact (List.append_nil _).symm
  | some e => rfl

theorem token_take : (c.take left event).call.token = c.call.token := by
  cases event with
  | none => rfl
  | some e => exact c.call.token_receive e

theorem subscription_take :
    (c.take left event).call.subscription = c.call.subscription := by
  cases event with
  | none => rfl
  | some e => exact c.call.subscription_receive e

end

variable {c : Caller}

/-- No event that it has taken is the last answer. -/
def Unanswered (c : Caller) : Prop := ∀ e ∈ c.taken, e.completes c.call.token = false

/-- The last event that it has taken, and no other, is the last answer. -/
def Answered (c : Caller) : Prop :=
  ∃ before last, c.taken = before ++ [last] ∧ last.completes c.call.token = true ∧
    ∀ e ∈ before, e.completes c.call.token = false

/-- The clock has not shown the deadline. -/
def InTime (c : Caller) : Prop := ∀ now ∈ c.readings, now < c.deadline

/-- The clock has shown the deadline, and not before the last reading. -/
def Late (c : Caller) : Prop :=
  ∃ before now, c.readings = before ++ [now] ∧ (∀ earlier ∈ before, earlier < c.deadline) ∧
    c.deadline ≤ now

/-- The stage is what it should be after all that has been taken and read. -/
def Stands (c : Caller) : Prop :=
  match c.stage with
  | .ready => c.taken = [] ∧ c.readings = []
  | .waiting | .passing _ => c.Unanswered ∧ c.InTime
  | .returned (.ok answers) => answers = c.call.answers ∧ c.Answered ∧ c.InTime
  | .returned (.error (.timeout time)) => time = c.time ∧ c.Unanswered ∧ c.Late
  | .returned (.error _) => c.taken = []

/-- Its answers are those among the events that it has taken, and it stands accordingly. -/
structure Consistent (c : Caller) : Prop where
  answers : c.call.answers = Event.answer c.call.token c.taken
  stands : c.Stands

theorem unanswered_of_nil (h : c.taken = []) : c.Unanswered := by
  rw [Unanswered, h]
  exact List.forall_mem_nil _

namespace Consistent

theorem sent (h : c.Consistent) (hstage : c.stage = .ready) (now : Nat) :
    (c.sent now).Consistent := by
  have hstands := h.stands
  rw [Stands, hstage] at hstands
  refine ⟨h.answers, unanswered_of_nil hstands.1, fun now hnow => ?_⟩
  rw [show (c.sent _).readings = [] from hstands.2] at hnow
  cases hnow

theorem refused (h : c.Consistent) (hstage : c.stage = .ready) {e : BusError}
    (he : ∀ time, e ≠ .timeout time) : (c.refused e).Consistent := by
  have hstands := h.stands
  rw [Stands, hstage] at hstands
  refine ⟨h.answers, ?_⟩
  cases e with
  | full => exact hstands.1
  | disconnected => exact hstands.1
  | timeout time => exact absurd rfl (he time)

theorem look (h : c.Consistent) (hstage : c.stage = .waiting) (queued : Nat) :
    (c.look queued).Consistent := by
  have hstands := h.stands
  rw [Stands, hstage] at hstands
  exact ⟨h.answers, hstands⟩

theorem take (h : c.Consistent) {n : Nat} (hstage : c.stage = .passing n) (left : Nat)
    (event : Option Event) : (c.take left event).Consistent := by
  have hstands := h.stands
  rw [Stands, hstage] at hstands
  obtain ⟨hnone, htime⟩ := hstands
  cases event with
  | none => exact ⟨h.answers, hnone, htime⟩
  | some e =>
    have hanswer := Event.answer_append_singleton hnone e
    rw [← h.answers] at hanswer
    rw [Caller.take, Call.receive]
    by_cases hlast : e.completes c.call.token = true
    · rw [if_pos hlast]
      rw [if_pos (Event.token?_of_completes hlast)] at hanswer
      exact ⟨hanswer.symm, rfl, ⟨c.taken, e, rfl, hlast, hnone⟩, htime⟩
    · have hunanswered : ∀ e' ∈ c.taken ++ [e], e'.completes c.call.token = false :=
        List.forall_mem_append.2
          ⟨hnone, List.forall_mem_singleton.2 (Bool.not_eq_true _ ▸ hlast)⟩
      rw [if_neg hlast]
      by_cases htoken : e.token? = some c.call.token
      · rw [if_pos htoken] at hanswer ⊢
        exact ⟨hanswer.symm, hunanswered, htime⟩
      · rw [if_neg htoken] at hanswer ⊢
        rw [List.append_nil] at hanswer
        exact ⟨hanswer.symm, hunanswered, htime⟩

theorem read (h : c.Consistent) (hstage : c.stage = .passing 0) (now : Nat) :
    (c.read now).Consistent := by
  have hstands := h.stands
  rw [Stands, hstage] at hstands
  obtain ⟨hnone, htime⟩ := hstands
  refine ⟨h.answers, ?_⟩
  rw [Stands, Caller.read]
  by_cases hlate : c.deadline ≤ now
  · rw [if_pos hlate]
    exact ⟨rfl, hnone, c.readings, now, rfl, htime, hlate⟩
  · rw [if_neg hlate]
    exact ⟨hnone, List.forall_mem_append.2
      ⟨htime, List.forall_mem_singleton.2 (Nat.lt_of_not_le hlate)⟩⟩

end Consistent

end Caller

end Mediatheque
