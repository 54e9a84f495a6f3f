import Mediatheque.Dispatcher.Turn
import Mediatheque.Proofs.Dispatcher.Duties

/-!
# What is done in a turn

A pass takes the messages of a queue up to the first that tells to quit, and handles one after
the other, or ends at the first that meets a fault (`passUpTo_cases`). So a turn comes to some
duties: the commands before a command to quit, then all reports, and then the write of settings
that are due. A turn that ends early has attended to the first of them (`turn_cases`).
-/

namespace Mediatheque

namespace Dispatcher

/-! ## Passes -/

section Pass

variable {α : Type} [BusMessage α]

/-- The messages before the first that tells to quit. -/
def beforeQuit (queue : List α) : List α := queue.takeWhile (!BusMessage.isQuit ·)

/-- The messages behind the first that tells to quit. -/
def behindQuit (queue : List α) : List α := (queue.dropWhile (!BusMessage.isQuit ·)).tail

theorem beforeQuit_cons (m : α) (queue : List α) :
    beforeQuit (m :: queue) = if BusMessage.isQuit m then [] else m :: beforeQuit queue := by
  rw [beforeQuit, List.takeWhile_cons]
  cases BusMessage.isQuit m <;> rfl

theorem behindQuit_cons (m : α) (queue : List α) :
    behindQuit (m :: queue) = if BusMessage.isQuit m then queue else behindQuit queue := by
  rw [behindQuit, List.dropWhile_cons]
  cases BusMessage.isQuit m <;> rfl

theorem beforeQuit_append {queue : List α} (h : ∀ m ∈ queue, BusMessage.isQuit m = false)
    (rest : List α) : beforeQuit (queue ++ rest) = queue ++ beforeQuit rest :=
  List.takeWhile_append_of_pos fun m hm => by rw [h m hm]; rfl

theorem beforeQuit_eq_self {queue : List α} (h : ∀ m ∈ queue, BusMessage.isQuit m = false) :
    beforeQuit queue = queue := by
  have happend := beforeQuit_append h []
  rw [List.append_nil] at happend
  exact happend.trans (List.append_nil queue)

theorem behindQuit_eq_nil {queue : List α} (h : ∀ m ∈ queue, BusMessage.isQuit m = false) :
    behindQuit queue = [] := by
  induction queue with
  | nil => rfl
  | cons m queue ih =>
    obtain ⟨hm, hqueue⟩ := List.forall_mem_cons.1 h
    rw [behindQuit_cons, hm, if_neg Bool.false_ne_true, ih hqueue]

variable (handle : Dispatcher → α → Except Fault Dispatcher)

/-- A pass handles all messages before one that tells to quit, or ends at one that cannot be
handled. -/
theorem passUpTo_cases (d : Dispatcher) (capacity : Nat) (isOpen : Bool) (queue : List α) :
    (∃ handled d', (beforeQuit queue).foldlM handle d = .ok d' ∧
        Sink.passUpTo (handleInPass handle) queue.length (d, false) ⟨capacity, queue, isOpen⟩ =
          (⟨handled, !queue.any BusMessage.isQuit⟩, (d', false),
            ⟨capacity, behindQuit queue, isOpen⟩)) ∨
      ∃ done m d' pass s', done ++ [m] <+: beforeQuit queue ∧
        done.foldlM handle d = .ok d' ∧ (∀ e, handle d' m ≠ .ok e) ∧
        Sink.passUpTo (handleInPass handle) queue.length (d, false) ⟨capacity, queue, isOpen⟩ =
          (pass, (d', true), s') := by
  induction queue generalizing d with
  | nil => exact .inl ⟨0, d, rfl, rfl⟩
  | cons m queue ih =>
    rw [List.length_cons, Sink.passUpTo, beforeQuit_cons, behindQuit_cons, List.any_cons]
    simp only [Sink.next?]
    cases BusMessage.isQuit m with
    | true => exact .inl ⟨1, d, rfl, rfl⟩
    | false =>
      simp only [Bool.false_eq_true, if_false, Bool.false_or, List.foldlM_cons]
      cases hm : handle d m with
      | error fault =>
        have hpass : handleInPass handle (d, false) m = ((d, true), [], .stop) := by
          rw [handleInPass, hm]
        rw [hpass]
        refine .inr ⟨[], m, d, _, _, List.prefix_append [m] _, rfl, fun e he => ?_, rfl⟩
        rw [hm] at he
        cases he
      | ok d₁ =>
        have hpass : handleInPass handle (d, false) m = ((d₁, false), [], .go) := by
          rw [handleInPass, hm]
        rw [hpass]
        simp only [List.foldl_nil]
        rcases ih d₁ with
          ⟨handled, d', hdone, hrest⟩ | ⟨done, n, d', pass, s', hdone, hd', hn, hrest⟩
        · rw [hrest]
          exact .inl ⟨handled + 1, d', hdone, rfl⟩
        · rw [hrest]
          refine .inr ⟨m :: done, n, d', _, _, ?_, ?_, hn, rfl⟩
          · exact List.cons_prefix_cons.2 ⟨rfl, hdone⟩
          · rw [List.foldlM_cons, hm]
            exact hd'

theorem pass_cases (d : Dispatcher) (s : Sink α) :
    (∃ handled d', (beforeQuit s.queue).foldlM handle d = .ok d' ∧
        s.pass (handleInPass handle) (d, false) =
          (⟨handled, !s.queue.any BusMessage.isQuit⟩, (d', false),
            { s with queue := behindQuit s.queue })) ∨
      ∃ done m d' pass s', done ++ [m] <+: beforeQuit s.queue ∧
        done.foldlM handle d = .ok d' ∧ (∀ e, handle d' m ≠ .ok e) ∧
        s.pass (handleInPass handle) (d, false) = (pass, (d', true), s') :=
  passUpTo_cases handle d s.capacity s.isOpen s.queue

end Pass

/-! ## Commands and reports -/

def Input.command? : Input → Option Command
  | .command _ c => some c
  | .report _ _ => none

def Input.report? : Input → Option BackendMessage
  | .command _ _ => none
  | .report _ m => some m

/-- The commands among some inputs. -/
def commandsOf (inputs : List Input) : List Command := inputs.filterMap Input.command?

/-- The reports among some inputs. -/
def reportsOf (inputs : List Input) : List BackendMessage := inputs.filterMap Input.report?

theorem commandsOf_append (inputs rest : List Input) :
    commandsOf (inputs ++ rest) = commandsOf inputs ++ commandsOf rest :=
  List.filterMap_append

theorem reportsOf_append (inputs rest : List Input) :
    reportsOf (inputs ++ rest) = reportsOf inputs ++ reportsOf rest :=
  List.filterMap_append

/-- Some commands and then some reports, at a time. -/
def given (now : Nat) (commands : List Command) (reports : List BackendMessage) : List Input :=
  commands.map (.command now) ++ reports.map (.report now)

theorem commandsOf_given (now : Nat) (commands : List Command) (reports : List BackendMessage) :
    commandsOf (given now commands reports) = commands := by
  have hcommands : (commands.map (Input.command now)).filterMap Input.command? = commands := by
    rw [List.filterMap_map]
    exact List.filterMap_some
  have hreports : (reports.map (Input.report now)).filterMap Input.command? = [] := by
    rw [List.filterMap_map]
    exact List.filterMap_eq_nil_iff.2 fun _ _ => rfl
  rw [commandsOf, given, List.filterMap_append, hcommands, hreports, List.append_nil]

theorem reportsOf_given (now : Nat) (commands : List Command) (reports : List BackendMessage) :
    reportsOf (given now commands reports) = reports := by
  have hcommands : (commands.map (Input.command now)).filterMap Input.report? = [] := by
    rw [List.filterMap_map]
    exact List.filterMap_eq_nil_iff.2 fun _ _ => rfl
  have hreports : (reports.map (Input.report now)).filterMap Input.report? = reports := by
    rw [List.filterMap_map]
    exact List.filterMap_some
  rw [reportsOf, given, List.filterMap_append, hcommands, hreports, List.nil_append]

theorem given_append_command (now : Nat) (commands : List Command) (c : Command) :
    given now commands [] ++ [.command now c] = given now (commands ++ [c]) [] := by
  simp [given]

theorem given_append_report (now : Nat) (commands : List Command) (reports : List BackendMessage)
    (m : BackendMessage) :
    given now commands reports ++ [.report now m] = given now commands (reports ++ [m]) := by
  simp [given]

/-- Commands and reports are handled as in the passes over them. -/
theorem run_given_eq_ok_iff {d d' : Dispatcher} {now : Nat} {commands : List Command}
    {reports : List BackendMessage} :
    d.run (given now commands reports) = .ok d' ↔
      ∃ e, commands.foldlM (passCommand now) d = .ok e ∧
        reports.foldlM (handleReport · now) e = .ok d' := by
  rw [given, run_append, Fault.bind_eq_ok_iff]
  simp only [run, List.foldlM_map]
  rfl

/-! ## Turns -/

/-- What is done in a turn with some commands before a command to quit, and some reports. -/
def turnDuties (now : Nat) (commands : List Command) (reports : List BackendMessage) : List Duty :=
  (given now commands reports).map .input ++ [.tick now]

theorem inputsOf_map_input (inputs : List Input) : inputsOf (inputs.map .input) = inputs := by
  rw [inputsOf, List.filterMap_map]
  exact List.filterMap_some

theorem inputsOf_turnDuties (now : Nat) (commands : List Command)
    (reports : List BackendMessage) :
    inputsOf (turnDuties now commands reports) = given now commands reports := by
  rw [turnDuties, inputsOf_append_singleton, inputsOf_map_input]
  exact List.append_nil _

theorem attendAll_map_input (d : Dispatcher) (inputs : List Input) :
    d.attendAll (inputs.map .input) = d.run inputs := by
  rw [attendAll, List.foldlM_map]
  rfl

/-- A turn does all that it is to do, or ends at something that cannot be handled. -/
theorem turn_cases (d : Dispatcher) (now : Nat) (commands : Sink Command)
    (reports : Sink BackendMessage) :
    (∃ d', d.attendAll (turnDuties now (beforeQuit commands.queue) reports.queue) = .ok d' ∧
        d.turn now commands reports =
          ⟨if commands.queue.any BusMessage.isQuit then .quit else .running, d',
            { commands with queue := behindQuit commands.queue }, { reports with queue := [] }⟩) ∨
      ∃ done i, d.run done = .ok (d.turn now commands reports).dispatcher ∧
        (∀ e, (d.turn now commands reports).dispatcher.handle i ≠ .ok e) ∧
        commandsOf (done ++ [i]) <+: beforeQuit commands.queue ∧
        reportsOf (done ++ [i]) <+: reports.queue ∧
        (d.turn now commands reports).outlook = .faulted := by
  have hall : ∀ m ∈ reports.queue, BusMessage.isQuit m = false := fun _ _ => rfl
  rw [turn]
  rcases pass_cases (passCommand now) d commands with
    ⟨handled, d₁, hd₁, hpass⟩ | ⟨done, c, d₁, pass, commands', hdone, hd₁, hc, hpass⟩
  · rw [hpass]
    dsimp only
    rcases pass_cases (handleReport · now) d₁ reports with
      ⟨handled', d₂, hd₂, hpass'⟩ | ⟨done, m, d₂, pass, reports', hdone, hd₂, hm, hpass'⟩
    · rw [beforeQuit_eq_self hall] at hd₂
      refine .inl ⟨d₂.tick now, ?_, ?_⟩
      · refine attendAll_append_eq_ok_iff.2 ⟨d₂, ?_, rfl⟩
        rw [attendAll_map_input]
        exact run_given_eq_ok_iff.2 ⟨d₁, hd₁, hd₂⟩
      · rw [hpass', behindQuit_eq_nil hall]
        cases commands.queue.any BusMessage.isQuit <;> rfl
    · rw [beforeQuit_eq_self hall] at hdone
      rw [hpass']
      refine .inr ⟨given now (beforeQuit commands.queue) done, .report now m,
        run_given_eq_ok_iff.2 ⟨d₁, hd₁, hd₂⟩, hm, ?_, ?_, rfl⟩
      · simp only [given_append_report, commandsOf_given, List.prefix_rfl]
      · rw [given_append_report, reportsOf_given]
        exact hdone
  · rw [hpass]
    refine .inr ⟨given now done [], .command now c, run_given_eq_ok_iff.2 ⟨d₁, hd₁, rfl⟩, hc,
      ?_, ?_, rfl⟩
    · rw [given_append_command, commandsOf_given]
      exact hdone
    · rw [given_append_command, reportsOf_given]
      exact List.nil_prefix

end Dispatcher

end Mediatheque
