import Mediatheque.Proofs.Bus.Hub

/-!
# Traffic

Many use a bus at a time. What they do comes down to acts on a single sink or hub, in any order
(`Traffic.Step`): a message is offered or taken, a sink comes or goes, a connection is made or
ended. A hub that publishes has its connections in hand until it has reached the last of them, and
others use the sinks meanwhile.

What is done one act after the other is a run (`Traffic.Runs`), so a run is any interleaving of
what many do.
-/

namespace Mediatheque

namespace Bus

variable {α : Type}

/-- What someone does on a bus, and what comes of it. -/
inductive Act (α : Type) where
  | addSink (capacity : Nat)
  | addHub
  /-- A message is put or sent to a sink: by someone who has a handle of it, or by a publication
  for one of its connections, both with their numbers. It may be refused. -/
  | offer (source : Option (Nat × Nat)) (place : Nat) (message : α) (refusal : Option BusError)
  /-- The first message is taken from a sink, if there is one. -/
  | take (place : Nat) (message : Option α)
  /-- A sink goes away. -/
  | drop (place : Nat)
  /-- A sink is connected to a hub, which gives the connection a number. -/
  | connect (hub place number : Nat)
  | disconnect (hub number : Nat)
  /-- A hub begins to publish. -/
  | publish (hub : Nat) (message : α)

/-- A message that a hub publishes, with the connections that it has yet to reach. -/
structure Publication (α : Type) where
  hub : Nat
  message : α
  ahead : List (Nat × Nat)

/-- A bus, and what has been published on it. -/
structure Traffic (α : Type) where
  bus : Bus α := {}
  publications : List (Publication α) := []

namespace Traffic

/-- Nothing is being published by a hub. Until then it is locked. -/
def IsFree (s : Traffic α) (hub : Nat) : Prop :=
  ∀ p ∈ s.publications, p.hub = hub → p.ahead = []

instance (s : Traffic α) (hub : Nat) : Decidable (s.IsFree hub) :=
  inferInstanceAs (Decidable (∀ p ∈ s.publications, p.hub = hub → p.ahead = []))

/-- The bus changes. -/
def withBus (s : Traffic α) (b : Bus α) : Traffic α := { s with bus := b }

/-- A single act. -/
inductive Step : Traffic α → Act α → Traffic α → Prop where
  | addSink (s : Traffic α) (capacity : Nat) :
    Step s (.addSink capacity) (s.withBus (s.bus.addSink capacity).1)
  | addHub (s : Traffic α) : Step s .addHub (s.withBus s.bus.addHub.1)
  | offer (s : Traffic α) {place : Nat} (h : place < s.bus.sinks.length) (m : α) :
    Step s (.offer none place m ((s.bus.sink place).refusal m)) (s.withBus (s.bus.put place m))
  | take (s : Traffic α) {place : Nat} (h : place < s.bus.sinks.length) :
    Step s (.take place (s.bus.sink place).next?.1)
      (s.withBus (s.bus.setSink place (s.bus.sink place).next?.2))
  | drop (s : Traffic α) {place : Nat} (h : place < s.bus.sinks.length) :
    Step s (.drop place) (s.withBus (s.bus.setSink place (s.bus.sink place).close))
  | connect (s : Traffic α) {hub place : Nat} (hhub : hub < s.bus.hubs.length)
      (h : place < s.bus.sinks.length) (hfree : s.IsFree hub) :
    Step s (.connect hub place (s.bus.connect hub place).2)
      (s.withBus (s.bus.connect hub place).1)
  | disconnect (s : Traffic α) {hub : Nat} (hfree : s.IsFree hub) (number : Nat) :
    Step s (.disconnect hub number) (s.withBus (s.bus.disconnect hub number))
  | publish (s : Traffic α) {hub : Nat} (hfree : s.IsFree hub) (m : α) :
    Step s (.publish hub m)
      { s with publications := s.publications ++ [⟨hub, m, (s.bus.hub hub).connections⟩] }
  /-- A publication reaches the next of its connections. -/
  | reach (s : Traffic α) {k hub number place : Nat} {m : α} {ahead : List (Nat × Nat)}
      (h : s.publications[k]? = some ⟨hub, m, (number, place) :: ahead⟩) :
    Step s (.offer (some (k, number)) place m ((s.bus.sink place).refusal m))
      { bus := s.bus.put place m, publications := s.publications.set k ⟨hub, m, ahead⟩ }

/-- Acts one after the other. -/
inductive Runs : Traffic α → List (Act α) → Traffic α → Prop where
  | nil (s : Traffic α) : Runs s [] s
  | cons {s s₁ s' : Traffic α} {a : Act α} {acts : List (Act α)} (head : Step s a s₁)
    (tail : Runs s₁ acts s') : Runs s (a :: acts) s'

theorem Runs.single {s s' : Traffic α} {a : Act α} (h : Step s a s') : Runs s [a] s' :=
  .cons h (.nil s')

theorem Runs.trans {s s₁ s' : Traffic α} {acts more : List (Act α)} (h : Runs s acts s₁)
    (hmore : Runs s₁ more s') : Runs s (acts ++ more) s' := by
  induction h with
  | nil => exact hmore
  | cons head _ ih => exact .cons head (ih hmore)

/-- In the course of a run there was a state before each act. -/
theorem Runs.split {s s' : Traffic α} {before after : List (Act α)} {a : Act α}
    (h : Runs s (before ++ a :: after) s') :
    ∃ s₁ s₂, Runs s before s₁ ∧ Step s₁ a s₂ ∧ Runs s₂ after s' := by
  induction before generalizing s with
  | nil =>
    cases h with
    | cons head tail => exact ⟨s, _, .nil s, head, tail⟩
  | cons b before ih =>
    cases h with
    | cons head tail =>
      obtain ⟨s₁, s₂, hbefore, hstep, hafter⟩ := ih tail
      exact ⟨s₁, s₂, .cons head hbefore, hstep, hafter⟩

end Traffic

end Bus

end Mediatheque
