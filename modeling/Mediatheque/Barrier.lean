/-!
# Barriers

A barrier waits until every participant of an operation has reported in, and then
gives back the tag of the request that began it, once. Participants have names, so
that neither a report from outside nor a second one of the same participant ends the
wait.

* `Barrier.begin`: begins to wait, unless it waits already;
* `Barrier.complete`: a participant reports in.
-/

namespace Mediatheque

/-- A barrier that is idle, or waits for some participants, each named once. -/
inductive Barrier (τ : Type) where
  | idle
  | pending (tag : τ) (waiting : List String)
deriving DecidableEq, Inhabited

namespace Barrier

variable {τ : Type}

/-- What became of a request. -/
inductive Begin (τ : Type) where
  | started
  /-- Nobody takes part, so that the request is complete. -/
  | immediate (tag : τ)
  /-- Another request is pending. -/
  | rejected (tag : τ)
deriving DecidableEq, Inhabited

/-- What a report brought. -/
inductive Completion (τ : Type) where
  /-- It was the last to be waited for. -/
  | done (tag : τ)
  /-- So many are still missing. -/
  | waiting (count : Nat)
  /-- Nothing pending, no participant, or one that has reported before. -/
  | ignored
deriving DecidableEq, Inhabited

/-- Begins to wait for some participants. -/
def begin (b : Barrier τ) (tag : τ) (participants : List String) : Barrier τ × Begin τ :=
  match b with
  | pending .. => (b, .rejected tag)
  | idle =>
    match participants.eraseDups with
    | [] => (idle, .immediate tag)
    | waiting => (pending tag waiting, .started)

/-- A participant reports in. -/
def complete (b : Barrier τ) (participant : String) : Barrier τ × Completion τ :=
  match b with
  | idle => (idle, .ignored)
  | pending tag waiting =>
    if participant ∈ waiting then
      match waiting.erase participant with
      | [] => (idle, .done tag)
      | rest => (pending tag rest, .waiting rest.length)
    else (b, .ignored)

def isPending : Barrier τ → Bool
  | idle => false
  | pending .. => true

/-- The participants that have not reported yet. -/
def waiting : Barrier τ → List String
  | idle => []
  | pending _ names => names

/-- How many participants are missing. -/
def remaining (b : Barrier τ) : Nat := b.waiting.length

def isWaitingFor (b : Barrier τ) (participant : String) : Bool := participant ∈ b.waiting

end Barrier

end Mediatheque
