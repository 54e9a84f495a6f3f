import Mediatheque.Bus.Hub

/-!
# Endpoints

An endpoint is what clients reach: a sink for commands, a hub for events, and a
counter for tokens. A call sends a command with a fresh token and collects the events
that answer it, up to the one that completes the answer. Its subscription is made
before the command is sent, so that no answer is missed.

* `Endpoint.prepareCall`: subscribes for the answers to a call;
* `Endpoint.submit`: sends the command of the call;
* `Endpoint.pollCall`: collects what has been published since the last pass.
-/

namespace Mediatheque

/-- A sink for commands, a hub for events, and the next token. -/
structure Endpoint where
  commandBus : Bus Command
  commands : Nat
  eventBus : Bus Event
  events : Nat
  nextToken : UInt64
deriving Inhabited

/-- A request that waits for its answers. -/
structure Call where
  token : Token
  subscription : Subscription
  answers : List Event := []
  isDone : Bool := false
deriving Inhabited

namespace Call

/-- Takes an event for an answer if it has the token of the call. -/
def receive (c : Call) (e : Event) : Call × List Event × Flow :=
  if e.completes c.token then
    ({ c with answers := c.answers ++ [e], isDone := true }, [], .stop)
  else if e.token? = some c.token then ({ c with answers := c.answers ++ [e] }, [], .go)
  else (c, [], .go)

/-- Collects the answers among the events that are queued for a call. -/
def pass (c : Call) (b : Bus Event) : Call × Bus Event :=
  let (_, c', sink) := (b.sink c.subscription.sink).pass receive c
  (c', b.setSink c.subscription.sink sink)

end Call

namespace Endpoint

def new : Endpoint :=
  let (commandBus, commands) := ({} : Bus Command).addSink
  let (eventBus, events) := ({} : Bus Event).addHub
  ⟨commandBus, commands, eventBus, events, 1⟩

/-- Hands out a token. The counter starts again after the last. -/
def takeToken (e : Endpoint) : Endpoint × Token :=
  ({ e with nextToken := e.nextToken + 1 }, ⟨e.nextToken⟩)

/-- The sink for commands. -/
def commandSink (e : Endpoint) : Sink Command := e.commandBus.sink e.commands

def withCommandSink (e : Endpoint) (s : Sink Command) : Endpoint :=
  { e with commandBus := e.commandBus.setSink e.commands s }

/-- Sends a command, which a full sink drops. -/
def send (e : Endpoint) (c : Command) : Endpoint := e.withCommandSink (e.commandSink.put c)

def publish (e : Endpoint) (event : Event) : Endpoint :=
  { e with eventBus := e.eventBus.publish e.events event }

def subscribe (e : Endpoint) : Endpoint × Subscription :=
  let (b, s) := e.eventBus.subscribe e.events
  ({ e with eventBus := b }, s)

def unsubscribe (e : Endpoint) (s : Subscription) : Endpoint :=
  { e with eventBus := e.eventBus.unsubscribe s }

/-! ## Calls -/

/-- Subscribes for the answers to a call with a fresh token. -/
def prepareCall (e : Endpoint) : Endpoint × Call :=
  let (e, token) := e.takeToken
  let (e, subscription) := e.subscribe
  (e, { token := token, subscription := subscription })

/-- Sends the command of a call, or ends the call when the sink refuses it. -/
def submit (e : Endpoint) (c : Call) (command : Token → Command) :
    Except BusError Unit × Endpoint :=
  match e.commandSink.offer (command c.token) with
  | .ok s => (.ok (), e.withCommandSink s)
  | .error err => (.error err, e.unsubscribe c.subscription)

/-- One pass of a call. -/
def pollCall (e : Endpoint) (c : Call) : Endpoint × Call :=
  let (c, b) := c.pass e.eventBus
  ({ e with eventBus := b }, c)

end Endpoint

end Mediatheque
