import Mediatheque.Proofs.Dispatcher.Routing
import Mediatheque.Proofs.Dispatcher.Settings

/-!
# Refused commands

A command is refused for one of a few reasons (`Refusal`): there is no object of its id, the
backend that it is for does not run, a setting has not been declared, or a rescan is under way
(`handleCommand_eq_error_iff`). All of them are found before anything is done, except that the
action among the settings of the library is stored before it asks for a rescan. So a refused
command leaves no trace but the news that there is no such object, and the value of that action
(`traceless_of_refused`).
-/

namespace Mediatheque

/-- The events that tell clients of the refusal of a command. -/
def DispatchError.tells (c : Command) : DispatchError → List Event
  | .notFound id => [.notFound c.request? id]
  | _ => []

namespace Dispatcher

variable {d d' : Dispatcher} {now : Nat} {c : Command} {e : DispatchError} {id name : String}

/-! ## Commands for objects -/

theorem refused_eq_iff {reason : DispatchError} {left : Dispatcher} :
    ((.error reason, left) : Except DispatchError Unit × Dispatcher) = (.error e, d') ↔
      e = reason ∧ d' = left := by
  constructor
  · intro h
    cases h
    exact ⟨rfl, rfl⟩
  · rintro ⟨rfl, rfl⟩
    rfl

theorem forward_eq_error_iff : d.forward name c = (.error e, d') ↔
    d.routeIndex? name = none ∧ e = .unknownBackend name ∧ d' = d := by
  rw [forward]
  cases d.routeIndex? name with
  | some i => simp
  | none =>
    rw [refused_eq_iff]
    simp

/-- What comes of a command for an object, by its destination. -/
def ComesTo (d : Dispatcher) (c : Command) (id : String)
    (answer : Except Fault (Except DispatchError Unit × Dispatcher)) : Destination → Prop
  | .client _ _ => ∀ e d', answer ≠ .ok (.error e, d')
  | .backend name => answer = .ok (d.forward name c)
  | .nobody => answer = .ok (.ok (), d)
  | .nowhere => answer = .ok (d.reportMissing c.request? id)

theorem changeObject_comesTo (hc : c.request? = none) (d : Dispatcher) (id : String) :
    d.ComesTo c id (.ok (d.changeObject id c)) (c.destination (d.catalog.resolve id)) := by
  rw [changeObject]
  cases d.catalog.resolve id with
  | served node =>
    rw [Command.destination, hc]
    rfl
  | delegated backend node exact =>
    have hbackend : c.destination (.delegated backend node exact) = .backend backend := by
      cases c <;> first | rfl | cases hc
    rw [hbackend]
    rfl
  | missing =>
    rw [Command.destination, ComesTo, hc]

theorem handleCommand_comesTo (hc : c.targetId? = some id) (d : Dispatcher) (now : Nat) :
    d.ComesTo c id (d.handleCommand now c) (c.destination (d.catalog.resolve id)) := by
  cases c with
  | browseObject token target =>
    cases hc
    rw [handleCommand]
    cases d.catalog.resolve id with
    | served node =>
      intro e d' h
      cases h
    | delegated backend node exact =>
      cases exact with
      | true =>
        intro e d' h
        cases h
      | false => rfl
    | missing => rfl
  | browseChildren token target start count oneAnswer =>
    cases hc
    rw [handleCommand]
    cases d.catalog.resolve id with
    | served node =>
      intro e d' h
      obtain ⟨served, -, hserved⟩ := Fault.bind_eq_ok_iff.1 h
      cases hserved
    | delegated backend node exact => rfl
    | missing => rfl
  | spliceChildren target index delete items =>
    cases hc
    exact changeObject_comesTo rfl d id
  | sort target =>
    cases hc
    exact changeObject_comesTo rfl d id
  | saveLocal target =>
    cases hc
    exact changeObject_comesTo rfl d id
  | _ => cases hc

/-! ## Reasons -/

/-- Why a command is refused, and what the dispatcher is then. -/
inductive Refusal (d : Dispatcher) (now : Nat) : Command → DispatchError → Dispatcher → Prop where
  /-- There is no object of its id. -/
  | missing {c : Command} {id : String} (hc : c.targetId? = some id)
      (h : d.catalog.resolve id = .missing) :
    Refusal d now c (.notFound id) (d.publish (.notFound c.request? id))
  /-- The backend of the object does not run. -/
  | unowned {c : Command} {id name : String} (hc : c.targetId? = some id)
      (h : c.destination (d.catalog.resolve id) = .backend name)
      (hroute : d.routeIndex? name = none) :
    Refusal d now c (.unknownBackend name) d
  /-- A rescan is under way. -/
  | busy {token : Token} (h : d.rescan.isPending) : Refusal d now (.rescan token) .rescanPending d
  | busyAction {value : ParameterValue}
      (hdeclared : d.persister.declares generalContext rescanParameter)
      (h : d.rescan.isPending) :
    Refusal d now (.setParameter generalContext rescanParameter value) .rescanPending
      { d with
        persister := d.persister.stored generalContext rescanParameter value now
        nextToken := d.nextToken + 1 }
  /-- The backend of the setting does not run. -/
  | unrouted {context name : String} {value : ParameterValue} (hcontext : context ≠ generalContext)
      (hroute : d.routeIndex? context = none) :
    Refusal d now (.setParameter context name value) (.unknownBackend context) d
  | undeclared {context name : String} {value : ParameterValue}
      (hcontext : context = generalContext ∨ (d.routeIndex? context).isSome)
      (h : ¬ d.persister.declares context name) :
    Refusal d now (.setParameter context name value) (.unknownParameter context name) d

theorem startRescan_eq_error_iff {token : Token} : d.startRescan token = (.error e, d') ↔
    d.rescan.isPending ∧ e = .rescanPending ∧ d' = d := by
  rcases d.startRescan_cases token with ⟨tag, waiting, hr, hs⟩ | ⟨hr, -, hs⟩ | ⟨hr, -, hs⟩
  · rw [hs, hr, refused_eq_iff]
    simp [Barrier.isPending]
  · rw [hs, hr]
    simp [Barrier.isPending]
  · rw [hs, hr]
    simp [Barrier.isPending]

/-- A value for the library itself is refused if the setting has not been declared. The action
that asks for a rescan is refused as well if one is under way, but its value is stored. -/
theorem setOwnParameter_eq_error_iff {value : ParameterValue} :
    d.setOwnParameter now name value = (.error e, d') ↔
      (¬ d.persister.declares generalContext name ∧
        e = .unknownParameter generalContext name ∧ d' = d) ∨
      (d.persister.declares generalContext name ∧ name = rescanParameter ∧ d.rescan.isPending ∧
        e = .rescanPending ∧ d' = { d with
          persister := d.persister.stored generalContext name value now
          nextToken := d.nextToken + 1 }) := by
  rw [setOwnParameter]
  rcases d.persister.set_cases generalContext name value now with ⟨hd, hs⟩ | ⟨hd, hs⟩
  · rw [hs]
    dsimp only
    split
    · rename_i hname
      refine startRescan_eq_error_iff.trans ?_
      simp [hd, ← hname, takeToken]
    · rename_i hname
      simp [hname, hd]
  · rw [hs]
    dsimp only
    rw [refused_eq_iff]
    simp [hd]

/-- A value for a backend is refused if the backend does not run or has not declared the
setting. -/
theorem setParameter_eq_error_iff {context : String} {value : ParameterValue}
    (hcontext : context ≠ generalContext) :
    d.setParameter now context name value = (.error e, d') ↔
      (d.routeIndex? context = none ∧ e = .unknownBackend context ∧ d' = d) ∨
      ((d.routeIndex? context).isSome ∧ ¬ d.persister.declares context name ∧
        e = .unknownParameter context name ∧ d' = d) := by
  rw [setParameter, if_neg hcontext]
  cases hroute : d.routeIndex? context with
  | none =>
    rw [Option.isNone_none, if_pos rfl, refused_eq_iff]
    simp
  | some i =>
    rcases d.persister.set_cases context name value now with ⟨hd, hs⟩ | ⟨hd, hs⟩
    · rw [hs]
      refine forward_eq_error_iff.trans (iff_of_false ?_ ?_)
      · rintro ⟨hnone, -⟩
        exact Option.some_ne_none i (hroute.symm.trans hnone)
      · simp [hd]
    · rw [hs]
      dsimp only
      rw [Option.isNone_some, if_neg Bool.false_ne_true, refused_eq_iff]
      simp [hd]

theorem eq_missing_of_destination {r : Resolution} (h : c.destination r = .nowhere) :
    r = .missing := by
  cases r with
  | served node =>
    rw [Command.destination] at h
    split at h <;> cases h
  | delegated backend node exact =>
    cases c <;> cases exact <;> cases h
  | missing => rfl

theorem refusal_of_target (hc : c.targetId? = some id) : Refusal d now c e d' ↔
    (d.catalog.resolve id = .missing ∧ e = .notFound id ∧
      d' = d.publish (.notFound c.request? id)) ∨
    ∃ name, c.destination (d.catalog.resolve id) = .backend name ∧ d.routeIndex? name = none ∧
      e = .unknownBackend name ∧ d' = d := by
  constructor
  · intro h
    cases h with
    | missing hc' h =>
      cases hc.symm.trans hc'
      exact .inl ⟨h, rfl, rfl⟩
    | unowned hc' h hroute =>
      cases hc.symm.trans hc'
      exact .inr ⟨_, h, hroute, rfl, rfl⟩
    | _ => cases hc
  · rintro (⟨h, rfl, rfl⟩ | ⟨name, h, hroute, rfl, rfl⟩)
    · exact .missing hc h
    · exact .unowned hc h hroute

theorem handleCommand_eq_error_of_target (hc : c.targetId? = some id) :
    d.handleCommand now c = .ok (.error e, d') ↔ Refusal d now c e d' := by
  have hcomes := handleCommand_comesTo hc d now
  rw [refusal_of_target hc]
  cases hdest : c.destination (d.catalog.resolve id) with
  | client token node =>
    rw [hdest] at hcomes
    refine iff_of_false (hcomes e d') ?_
    rintro (⟨h, -⟩ | ⟨name, h, -⟩)
    · rw [h] at hdest
      cases hdest
    · cases h
  | backend name =>
    rw [hdest] at hcomes
    rw [show d.handleCommand now c = _ from hcomes, Except.ok.injEq, forward_eq_error_iff]
    constructor
    · rintro ⟨hroute, he, hd⟩
      exact .inr ⟨name, rfl, hroute, he, hd⟩
    · rintro (⟨h, -⟩ | ⟨other, h, hroute, he, hd⟩)
      · rw [h] at hdest
        cases hdest
      · cases h
        exact ⟨hroute, he, hd⟩
  | nobody =>
    rw [hdest] at hcomes
    rw [show d.handleCommand now c = _ from hcomes]
    refine iff_of_false (fun h => by cases h) ?_
    rintro (⟨h, -⟩ | ⟨name, h, -⟩)
    · rw [h] at hdest
      cases hdest
    · cases h
  | nowhere =>
    rw [hdest] at hcomes
    rw [show d.handleCommand now c = _ from hcomes, Except.ok.injEq, reportMissing, refused_eq_iff]
    constructor
    · rintro ⟨he, hd⟩
      exact .inl ⟨eq_missing_of_destination hdest, he, hd⟩
    · rintro (⟨-, he, hd⟩ | ⟨name, h, -⟩)
      · exact ⟨he, hd⟩
      · cases h

/-- A command is refused for these reasons and no others. -/
theorem handleCommand_eq_error_iff :
    d.handleCommand now c = .ok (.error e, d') ↔ Refusal d now c e d' := by
  cases c with
  | rescan token =>
    refine (Except.ok.injEq _ _).to_iff.trans (startRescan_eq_error_iff.trans ⟨?_, fun h => ?_⟩)
    · rintro ⟨hbusy, rfl, rfl⟩
      exact .busy hbusy
    · cases h with
      | busy hbusy => exact ⟨hbusy, rfl, rfl⟩
      | _ => contradiction
  | setParameter context name value =>
    refine (Except.ok.injEq _ _).to_iff.trans ?_
    by_cases hcontext : context = generalContext
    · subst hcontext
      rw [setParameter, if_pos rfl, setOwnParameter_eq_error_iff]
      constructor
      · rintro (⟨hd, rfl, rfl⟩ | ⟨hd, rfl, hbusy, rfl, rfl⟩)
        · exact .undeclared (.inl rfl) hd
        · exact .busyAction hd hbusy
      · intro h
        cases h with
        | undeclared hcontext hd => exact .inl ⟨hd, rfl, rfl⟩
        | busyAction hd hbusy => exact .inr ⟨hd, rfl, hbusy, rfl, rfl⟩
        | unrouted hcontext => exact absurd rfl hcontext
        | _ => contradiction
    · rw [setParameter_eq_error_iff hcontext]
      constructor
      · rintro (⟨hroute, rfl, rfl⟩ | ⟨hroute, hd, rfl, rfl⟩)
        · exact .unrouted hcontext hroute
        · exact .undeclared (.inr hroute) hd
      · intro h
        cases h with
        | unrouted _ hroute => exact .inl ⟨hroute, rfl, rfl⟩
        | undeclared hroute hd => exact .inr ⟨hroute.resolve_left hcontext, hd, rfl, rfl⟩
        | busyAction => exact absurd rfl hcontext
        | _ => contradiction
  | browseChildren | browseObject | spliceChildren | sort | saveLocal =>
    exact handleCommand_eq_error_of_target rfl
  | _ =>
    refine iff_of_false (fun h => by cases h) fun h => ?_
    cases h <;> contradiction

/-! ## What is left -/

/-- A refused command leaves no trace: all parts of the dispatcher are as they were, with the
queues of the backends and the disk with the caches among them, and clients are told no more than
that there is no such object. Only an action that cannot ask for a rescan stays stored. -/
structure Traceless (d : Dispatcher) (now : Nat) (c : Command) (e : DispatchError)
    (d' : Dispatcher) : Prop where
  catalog : d'.catalog = d.catalog
  routes : d'.routes = d.routes
  rescan : d'.rescan = d.rescan
  creation : d'.creation = d.creation
  exports : d'.exports = d.exports
  devices : d'.devices = d.devices
  caches : d'.caches = d.caches
  disk : d'.disk = d.disk
  told : d'.published = d.published ++ e.tells c
  settings : (e = .rescanPending →
      ∀ value, c ≠ .setParameter generalContext rescanParameter value) →
    d'.persister = d.persister
  action : ∀ value, e = .rescanPending →
      c = .setParameter generalContext rescanParameter value →
    d'.persister = d.persister.stored generalContext rescanParameter value now

/-- A command that leaves the dispatcher as it is leaves no trace, if it is not the action that
asks for a rescan. -/
theorem traceless_same (htold : e.tells c = [])
    (hc : ∀ value, c ≠ .setParameter generalContext rescanParameter value ∨ e ≠ .rescanPending) :
    Traceless d now c e d where
  catalog := rfl
  routes := rfl
  rescan := rfl
  creation := rfl
  exports := rfl
  devices := rfl
  caches := rfl
  disk := rfl
  told := by rw [htold, List.append_nil]
  settings _ := rfl
  action value he hbutton := by
    rcases hc value with h | h
    · exact absurd hbutton h
    · exact absurd he h

/-- A refused command leaves no trace. -/
theorem traceless_of_refused (h : d.handleCommand now c = .ok (.error e, d')) :
    Traceless d now c e d' := by
  cases handleCommand_eq_error_iff.1 h with
  | missing hc hmissing =>
    exact ⟨rfl, rfl, rfl, rfl, rfl, rfl, rfl, rfl, rfl, fun _ => rfl, fun _ he => by cases he⟩
  | busyAction hdeclared hbusy =>
    refine ⟨rfl, rfl, rfl, rfl, rfl, rfl, rfl, rfl, (List.append_nil _).symm, fun hc => ?_, ?_⟩
    · exact absurd rfl (hc rfl _)
    · intro value _ hc
      cases hc
      rfl
  | unowned => exact traceless_same rfl fun _ => .inr (by simp)
  | busy => exact traceless_same rfl fun _ => .inl (by simp)
  | unrouted => exact traceless_same rfl fun _ => .inr (by simp)
  | undeclared => exact traceless_same rfl fun _ => .inr (by simp)

/-- An action that asks for a rescan while one is under way is refused. Its value is stored, to be
written after the quiet time, and nobody is told anything. -/
theorem traceless_second_rescan :
    let d : Dispatcher := { (default : Dispatcher) with
      persister := { (default : Persister) with debounce := 500 }.register generalContext
        generalParameters
      routes := [⟨"files", { rescan := true }, .new⟩]
      rescan := .pending ⟨3⟩ ["files"] }
    ∃ d', d.handleCommand 20 (.setParameter generalContext rescanParameter (.bool true)) =
        .ok (.error .rescanPending, d') ∧
      d'.rescan = .pending ⟨3⟩ ["files"] ∧ d'.published = [] ∧
      d'.persister.get? generalContext rescanParameter = some (.bool true) ∧
      d'.persister.deadline = some 520 := by
  intro d
  obtain ⟨d', h⟩ : ∃ d', d.handleCommand 20
      (.setParameter generalContext rescanParameter (.bool true)) =
        .ok (.error .rescanPending, d') := ⟨_, rfl⟩
  have hleft := traceless_of_refused h
  have haction := hleft.action (.bool true) rfl rfl
  refine ⟨d', h, hleft.rescan, hleft.told, ?_, ?_⟩
  · rw [haction, Persister.get?_stored, if_pos ⟨rfl, rfl⟩]
  · rw [haction]
    rfl

end Dispatcher

end Mediatheque
