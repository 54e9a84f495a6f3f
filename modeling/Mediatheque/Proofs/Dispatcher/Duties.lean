import Mathlib.Data.List.Induction
import Mediatheque.Proofs.Dispatcher.Settings

/-!
# What becomes of the settings in the course of time

The dispatcher attends to its duties one after the other: it handles what it is told, and writes
the settings that are due (`Duty`, `attendAll`). Meanwhile clients and backends take what it has
for them. At any time it holds of every setting the last value that it has accepted
(`ledger_attendAll`), the export table has those of the library (`follows_attendAll`), and the
settings file has all of them as soon as nothing is pending (`saved_attendAll`).
-/

namespace Mediatheque

namespace Dispatcher

/-! ## Duties -/

/-- What a dispatcher attends to, at times in milliseconds. -/
inductive Duty where
  | input (i : Input)
  | tick (now : Nat)
  /-- Clients take the events and some tokens, and each backend takes commands off its queue. -/
  | meanwhile (token : UInt64) (take : Nat → Sink Command → Sink Command)

/-- What is handled in a duty. -/
def Duty.input? : Duty → Option Input
  | .input i => some i
  | _ => none

/-- A dispatcher whose events and some of whose commands and tokens have been taken. -/
def elapse (d : Dispatcher) (token : UInt64) (take : Nat → Sink Command → Sink Command) :
    Dispatcher :=
  { d with
    published := []
    nextToken := token
    routes := d.routes.mapIdx fun i r => { r with commands := take i r.commands } }

def attend (d : Dispatcher) : Duty → Except Fault Dispatcher
  | .input i => d.handle i
  | .tick now => .ok (d.tick now)
  | .meanwhile token take => .ok (d.elapse token take)

/-- Attends to duties one after the other. -/
def attendAll (d : Dispatcher) (duties : List Duty) : Except Fault Dispatcher :=
  duties.foldlM attend d

theorem attendAll_append (d : Dispatcher) (duties rest : List Duty) :
    d.attendAll (duties ++ rest) = d.attendAll duties >>= fun e => e.attendAll rest :=
  List.foldlM_append

theorem attendAll_append_eq_ok_iff {d d' : Dispatcher} {duties rest : List Duty} :
    d.attendAll (duties ++ rest) = .ok d' ↔
      ∃ e, d.attendAll duties = .ok e ∧ e.attendAll rest = .ok d' := by
  rw [attendAll_append, Fault.bind_eq_ok_iff]

theorem attendAll_singleton (d : Dispatcher) (duty : Duty) :
    d.attendAll [duty] = d.attend duty := by
  rw [attendAll, List.foldlM_cons]
  cases d.attend duty <;> rfl

/-- Other duties than to handle something keep all of the settings but when they are written. -/
theorem attend_cases {d d' : Dispatcher} {duty : Duty} (h : d.attend duty = .ok d') :
    (∃ i, duty = .input i ∧ d.handle i = .ok d') ∨
      (duty.input? = none ∧ (∃ deadline, d'.persister = { d.persister with deadline := deadline }) ∧
        d'.exports = d.exports ∧ d'.names = d.names ∧ d'.caches = d.caches ∧
        (d.persister.Saved d.disk → d'.persister.Saved d'.disk)) := by
  cases duty with
  | input i => exact .inl ⟨i, rfl, h⟩
  | tick now =>
    cases h
    refine .inr ⟨rfl, ?_, rfl, rfl, rfl, fun hsaved => ?_⟩
    · exact Persister.eq_of_poll rfl
    · exact Persister.saved_poll hsaved rfl
  | meanwhile token take =>
    cases h
    refine .inr ⟨rfl, ⟨d.persister.deadline, rfl⟩, rfl, ?_, rfl, fun hsaved => hsaved⟩
    rw [names, names, elapse]
    exact List.ext_getElem? fun i => by simp; rfl

/-- The inputs among some duties. -/
def inputsOf (duties : List Duty) : List Input := duties.filterMap Duty.input?

theorem inputsOf_append (duties rest : List Duty) :
    inputsOf (duties ++ rest) = inputsOf duties ++ inputsOf rest :=
  List.filterMap_append

theorem inputsOf_append_singleton (duties : List Duty) (duty : Duty) :
    inputsOf (duties ++ [duty]) = inputsOf duties ++ duty.input?.toList := by
  rw [inputsOf_append, inputsOf, inputsOf, List.filterMap_cons]
  cases duty.input? <;> rfl

/-- Values of settings meet no fault. -/
theorem exists_handle_eq_ok {d : Dispatcher} {i : Input} (h : i.setting?.isSome) :
    ∃ d', d.handle i = .ok d' := by
  cases i with
  | command now c =>
    cases c with
    | setParameter context name value => exact ⟨_, rfl⟩
    | _ => cases h
  | report now m =>
    obtain ⟨backend, event⟩ := m
    cases event with
    | parameterChanged name value => exact ⟨_, rfl⟩
    | _ => cases h

theorem exists_attendAll_eq_ok {d : Dispatcher} {duties : List Duty}
    (h : ∀ i ∈ inputsOf duties, i.setting?.isSome) : ∃ d', d.attendAll duties = .ok d' := by
  induction duties generalizing d with
  | nil => exact ⟨d, rfl⟩
  | cons duty rest ih =>
    have hduty : ∃ e, d.attend duty = .ok e := by
      cases duty with
      | input i => exact exists_handle_eq_ok (h i List.mem_cons_self)
      | tick now => exact ⟨_, rfl⟩
      | meanwhile token take => exact ⟨_, rfl⟩
    obtain ⟨e, he⟩ := hduty
    have hrest (i : Input) (hi : i ∈ inputsOf rest) : i.setting?.isSome := by
      refine h i ?_
      rw [inputsOf, List.mem_filterMap] at hi ⊢
      obtain ⟨b, hb, heq⟩ := hi
      exact ⟨b, List.mem_cons_of_mem _ hb, heq⟩
    obtain ⟨d', hd'⟩ := ih (d := e) hrest
    exact ⟨d', by rw [attendAll, List.foldlM_cons, he]; exact hd'⟩

/-! ## Values -/

/-- The value that an input has for a setting, if the dispatcher accepts it. -/
def valueFor? (d : Dispatcher) (context name : String) (i : Input) : Option ParameterValue :=
  match d.accepted? i with
  | some (c, n, value) => if c = context ∧ n = name then some value else none
  | none => none

theorem valueFor?_of_none {d : Dispatcher} {i : Input} (hi : d.accepted? i = none)
    (context name : String) : d.valueFor? context name i = none := by
  rw [valueFor?, hi]

theorem valueFor?_of_accepted {d : Dispatcher} {i : Input} {context name : String}
    {value : ParameterValue} (hi : d.accepted? i = some (context, name, value)) (c n : String) :
    d.valueFor? c n i = if context = c ∧ name = n then some value else none := by
  rw [valueFor?, hi]

/-- The last value that a dispatcher accepts for a setting. -/
def lastAccepted? (d : Dispatcher) (inputs : List Input) (context name : String) :
    Option ParameterValue :=
  inputs.reverse.findSome? (d.valueFor? context name)

theorem lastAccepted?_append_singleton (d : Dispatcher) (inputs : List Input) (i : Input)
    (context name : String) :
    d.lastAccepted? (inputs ++ [i]) context name =
      (d.valueFor? context name i).or (d.lastAccepted? inputs context name) :=
  findSome?_reverse_append_singleton ..

/-- What a dispatcher accepts depends on what is declared and which backends there are. -/
theorem accepted?_congr {d e : Dispatcher} (hschemas : e.persister.schemas = d.persister.schemas)
    (hnames : e.names = d.names) (i : Input) : e.accepted? i = d.accepted? i := by
  have hdeclares (context name : String) :
      e.persister.declares context name = d.persister.declares context name := by
    rw [Persister.declares, Persister.schema?, hschemas]
    rfl
  have hroute (context : String) :
      (e.routeIndex? context).isSome = (d.routeIndex? context).isSome := by
    have key (f : Dispatcher) : (f.routeIndex? context).isSome = f.names.any (· = context) := by
      rw [routeIndex?, List.findIdx?_isSome, names, List.any_map]
      rfl
    rw [key, key, hnames]
  have haccepts : e.accepts i = d.accepts i := by
    unfold accepts
    split
    · rw [hdeclares, hroute]
    · rw [hdeclares]
    · rfl
  rw [accepted?, accepted?, haccepts]

/-- What a dispatcher that began as `start` holds once it has handled some inputs. -/
structure Ledger (start d : Dispatcher) (inputs : List Input) : Prop where
  path : d.persister.path = start.persister.path
  schemas : d.persister.schemas = start.persister.schemas
  names : d.names = start.names
  caches : d.caches = start.caches
  values : ∀ context name, d.persister.get? context name =
    (start.lastAccepted? inputs context name).or (start.persister.get? context name)

theorem Ledger.refl (d : Dispatcher) : Ledger d d [] := ⟨rfl, rfl, rfl, rfl, fun _ _ => rfl⟩

namespace Ledger

variable {start d d' : Dispatcher} {inputs : List Input}

/-- The values stay as long as nothing is handled. -/
theorem congr (h : Ledger start d inputs)
    (hpersister : ∃ deadline, d'.persister = { d.persister with deadline := deadline })
    (hnames : d'.names = d.names) (hcaches : d'.caches = d.caches) : Ledger start d' inputs := by
  obtain ⟨deadline, hpersister⟩ := hpersister
  refine ⟨?_, ?_, hnames.trans h.names, hcaches.trans h.caches, fun context name => ?_⟩
  · rw [hpersister]
    exact h.path
  · rw [hpersister]
    exact h.schemas
  · rw [hpersister]
    exact h.values context name

theorem keeps (h : Ledger start d inputs) (hk : KeepsSettings d d') : Ledger start d' inputs :=
  h.congr ⟨d.persister.deadline, hk.persister⟩ hk.names hk.caches

theorem accepted? (h : Ledger start d inputs) (i : Input) : d.accepted? i = start.accepted? i :=
  accepted?_congr h.schemas h.names i

/-- An input that has no value for any setting. -/
theorem append_none (h : Ledger start d inputs) {i : Input} (hi : d.accepted? i = none) :
    Ledger start d (inputs ++ [i]) := by
  refine ⟨h.path, h.schemas, h.names, h.caches, fun context name => ?_⟩
  rw [h.accepted?] at hi
  rw [lastAccepted?_append_singleton, valueFor?_of_none hi]
  exact h.values context name

/-- An input whose value is stored. -/
theorem append_stored (h : Ledger start d inputs) {i : Input} {context name : String}
    {value : ParameterValue} {now : Nat} (hi : d.accepted? i = some (context, name, value)) :
    Ledger start (d.withStored context name value now) (inputs ++ [i]) := by
  refine ⟨h.path, h.schemas, h.names, h.caches, fun c n => ?_⟩
  rw [h.accepted?] at hi
  rw [lastAccepted?_append_singleton, Option.or_assoc, ← h.values c n, valueFor?_of_accepted hi]
  exact Persister.get?_stored_eq_or ..

theorem handle (h : Ledger start d inputs) {i : Input} (hi : d.handle i = .ok d') :
    Ledger start d' (inputs ++ [i]) := by
  rcases handle_cases hi with
    ⟨haccepted, hk, -⟩ | ⟨now, name, value, haccepted, hk⟩ |
      ⟨now, context, name, value, haccepted, -, hk⟩
  · exact (h.append_none haccepted).keeps hk
  · have hstored : Ledger start (d.withStored generalContext name value now) (inputs ++ [i]) :=
      h.append_stored haccepted
    have happlied : Ledger start (d.withApplied name value now) (inputs ++ [i]) :=
      hstored.congr ⟨_, rfl⟩ rfl rfl
    exact happlied.keeps hk
  · exact (h.append_stored haccepted).keeps hk

theorem attend (h : Ledger start d inputs) {duty : Duty} (ha : d.attend duty = .ok d') :
    Ledger start d' (inputs ++ duty.input?.toList) := by
  rcases attend_cases ha with ⟨i, rfl, hi⟩ | ⟨hinput, hpersister, -, hnames, hcaches, -⟩
  · exact h.handle hi
  · rw [hinput, Option.toList_none, List.append_nil]
    exact h.congr hpersister hnames hcaches

end Ledger

/-- Of every setting a dispatcher has the last value that it has accepted. -/
theorem ledger_attendAll {d d' : Dispatcher} {duties : List Duty}
    (h : d.attendAll duties = .ok d') : Ledger d d' (inputsOf duties) := by
  induction duties using List.reverseRecOn generalizing d' with
  | nil =>
    cases h
    exact .refl _
  | append_singleton duties duty ih =>
    obtain ⟨e, he, hduty⟩ := attendAll_append_eq_ok_iff.1 h
    rw [attendAll_singleton] at hduty
    rw [inputsOf_append_singleton]
    exact (ih he).attend hduty

/-! ## The export table -/

/-- An input that is no report of a backend with the name of the library's own context. -/
def Input.Foreign : Input → Prop
  | .command _ _ => True
  | .report _ m => m.backend ≠ generalContext

instance : DecidablePred Input.Foreign
  | .command _ _ => isTrue trivial
  | .report _ m => inferInstanceAs (Decidable (m.backend ≠ generalContext))

theorem follows_handle {d d' : Dispatcher} {i : Input}
    (h : d.exports.Follows d.persister.registry) (hforeign : i.Foreign)
    (hi : d.handle i = .ok d') : d'.exports.Follows d'.persister.registry := by
  rcases handle_cases hi with
    ⟨-, hk, -⟩ | ⟨now, name, value, -, hk⟩ | ⟨now, context, name, value, -, hreport, hk⟩
  · rw [hk.persister]
    exact h.congr hk.exports
  · rw [hk.persister]
    exact (ExportTable.follows_setParameter h name value).congr hk.exports
  · rw [hk.persister]
    have hcontext : context ≠ generalContext := by
      intro hc
      rw [hreport hc] at hforeign
      exact hforeign rfl
    exact (ExportTable.follows_set_of_ne h hcontext name value).congr hk.exports

/-- The export table has the settings that the library holds. -/
theorem follows_attendAll {d d' : Dispatcher} {duties : List Duty}
    (h : d.exports.Follows d.persister.registry) (hforeign : ∀ i ∈ inputsOf duties, i.Foreign)
    (ha : d.attendAll duties = .ok d') : d'.exports.Follows d'.persister.registry := by
  induction duties using List.reverseRecOn generalizing d' with
  | nil =>
    cases ha
    exact h
  | append_singleton duties duty ih =>
    obtain ⟨e, he, hduty⟩ := attendAll_append_eq_ok_iff.1 ha
    rw [attendAll_singleton] at hduty
    rw [inputsOf_append_singleton, List.forall_mem_append] at hforeign
    have hbefore := ih hforeign.1 he
    rcases attend_cases hduty with ⟨i, rfl, hi⟩ | ⟨-, ⟨deadline, hpersister⟩, hexports, -⟩
    · exact follows_handle hbefore (hforeign.2 i (List.mem_singleton.2 rfl)) hi
    · rw [hpersister, hexports]
      exact hbefore

/-! ## The settings file -/

theorem saved_handle {d d' : Dispatcher} {i : Input} (h : d.persister.Saved d.disk)
    (hfile : i.setting?.isSome ∨ Spared d.caches d.persister.path) (hi : d.handle i = .ok d') :
    d'.persister.Saved d'.disk := by
  rcases handle_cases hi with
    ⟨-, hk, hsame⟩ | ⟨now, name, value, -, hk⟩ | ⟨now, context, name, value, -, -, hk⟩
  · rw [hk.persister]
    rcases hfile with hsetting | hspared
    · rw [hsame hsetting]
      exact h
    · intro hnone
      obtain ⟨text, hread, htext⟩ := h hnone
      exact ⟨text, hk.files _ _ hspared hread, htext⟩
  · rw [hk.persister]
    exact .of_isSome rfl _
  · rw [hk.persister]
    exact .of_isSome rfl _

/-- The settings file holds what is not pending, as long as only settings are handled or the
caches spare the file. -/
theorem saved_attendAll {d d' : Dispatcher} {duties : List Duty} (h : d.persister.Saved d.disk)
    (hfile : (∀ i ∈ inputsOf duties, i.setting?.isSome) ∨ Spared d.caches d.persister.path)
    (ha : d.attendAll duties = .ok d') : d'.persister.Saved d'.disk := by
  induction duties using List.reverseRecOn generalizing d' with
  | nil =>
    cases ha
    exact h
  | append_singleton duties duty ih =>
    obtain ⟨e, he, hduty⟩ := attendAll_append_eq_ok_iff.1 ha
    have hledger := ledger_attendAll he
    rw [attendAll_singleton] at hduty
    rw [inputsOf_append_singleton, List.forall_mem_append] at hfile
    have hbefore := ih (hfile.imp_left And.left) he
    rcases attend_cases hduty with ⟨i, rfl, hi⟩ | ⟨-, -, -, -, -, hsaved⟩
    · refine saved_handle hbefore ?_ hi
      rw [hledger.caches, hledger.path]
      exact hfile.imp_left fun hf => hf.2 i (List.mem_singleton.2 rfl)
    · exact hsaved hbefore

end Dispatcher

end Mediatheque
