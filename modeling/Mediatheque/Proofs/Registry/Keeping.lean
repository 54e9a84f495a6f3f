import Mediatheque.Proofs.List
import Mediatheque.Proofs.Registry.Persister

/-!
# What a persister keeps

A persister is asked for one thing after the other (`Request`), and something comes of each
(`Outcome`). Of what has come of the requests so far it can be told which values it holds
(`lastStored?`) and since when they have been waiting to be written (`pendingSince?`).

No value is lost on the way (`faithful_afterAll`): the registry has the last value that was
stored under each name, or else the one that it was opened with; a write is tried when the last
change has waited long enough, and until one succeeds the changes keep waiting; and whenever
none is waiting, the settings file holds the registry. Times need not ascend for that.
-/

namespace Mediatheque

namespace Persister

/-! ## Requests -/

/-- What is asked of a persister. A write that fails may spoil the disk in any way. -/
inductive Request where
  | register (context : String) (parameters : List ParameterInfo)
  | set (context name : String) (value : ParameterValue) (now : Nat)
  | poll (now : Nat) (spoil : Disk → Disk)
  | flush (spoil : Disk → Disk)

/-- What comes of a request. -/
inductive Outcome where
  | registered
  | stored (context name : String) (value : ParameterValue) (now : Nat)
  | rejected
  /-- Nothing was to be written, or not yet. -/
  | idle
  | written
  /-- The write failed. -/
  | failed

/-- A persister, the disk that it writes to, and what has come of the requests so far, the
latest at the end. -/
structure Keeping where
  persister : Persister
  disk : Disk
  log : List Outcome := []

/-- What comes of an attempt to write. -/
def concluded (spoil : Disk → Disk) :
    Except DatabaseError Bool × Persister × Disk → Outcome × Persister × Disk
  | (.ok false, p, disk) => (.idle, p, disk)
  | (.ok true, p, disk) => (.written, p, disk)
  | (.error _, p, disk) => (.failed, p, spoil disk)

/-- Whether a request has the persister write. -/
def Request.due (p : Persister) : Request → Bool
  | .poll now _ => p.deadline.any (· ≤ now)
  | .flush _ => p.deadline.isSome
  | _ => false

theorem isSome_of_due {p : Persister} {r : Request} (h : r.due p) : p.deadline.isSome := by
  cases r with
  | poll now spoil =>
    cases hd : p.deadline with
    | none =>
      rw [Request.due, hd] at h
      cases h
    | some deadline => rfl
  | flush spoil => exact h
  | _ => cases h

namespace Keeping

/-- What comes of a request, with the persister and the disk behind it. -/
def answer (k : Keeping) : Request → Outcome × Persister × Disk
  | .register context parameters =>
    (.registered, k.persister.register context parameters, k.disk)
  | .set context name value now =>
    match k.persister.set context name value now with
    | .ok p => (.stored context name value now, p, k.disk)
    | .error _ => (.rejected, k.persister, k.disk)
  | .poll now spoil => concluded spoil (k.persister.poll now k.disk)
  | .flush spoil => concluded spoil (k.persister.flush k.disk)

def after (k : Keeping) (r : Request) : Keeping :=
  let (outcome, persister, disk) := k.answer r
  ⟨persister, disk, k.log ++ [outcome]⟩

def afterAll (k : Keeping) (requests : List Request) : Keeping := requests.foldl after k

/-! ## Answers -/

/-- All that may come of a request. -/
inductive Answers (k : Keeping) : Request → Outcome × Persister × Disk → Prop where
  | registered (context : String) (parameters : List ParameterInfo) :
    Answers k (.register context parameters)
      (.registered, k.persister.register context parameters, k.disk)
  | stored {context name : String} {value : ParameterValue} {now : Nat}
      (hdeclared : k.persister.declares context name) :
    Answers k (.set context name value now)
      (.stored context name value now, k.persister.stored context name value now, k.disk)
  | rejected {context name : String} {value : ParameterValue} {now : Nat}
      (hdeclared : ¬ k.persister.declares context name) :
    Answers k (.set context name value now) (.rejected, k.persister, k.disk)
  | idle {r : Request} (hdue : ¬ r.due k.persister) : Answers k r (.idle, k.persister, k.disk)
  | failed {r : Request} (hdue : r.due k.persister) (disk : Disk) :
    Answers k r (.failed, k.persister, disk)
  | written {r : Request} {disk : Disk} (hdue : r.due k.persister)
      (hread : disk.read k.persister.path = .ok k.persister.registry.text) :
    Answers k r (.written, { k.persister with deadline := none }, disk)

/-- An attempt to write, when there is something to be written. -/
theorem answers_flush (k : Keeping) (spoil : Disk → Disk) {r : Request}
    (hdue : r.due k.persister = k.persister.deadline.isSome) :
    Answers k r (concluded spoil (k.persister.flush k.disk)) := by
  rcases k.persister.flush_cases k.disk with
    ⟨hnone, hf⟩ | ⟨hsome, error, disk, hf⟩ | ⟨hsome, disk, hf, hread⟩
  · rw [hf]
    exact .idle (by rw [hdue, hnone]; exact Bool.false_ne_true)
  · rw [hf]
    exact .failed (hdue.trans hsome) _
  · rw [hf]
    exact .written (hdue.trans hsome) hread

theorem answers_answer (k : Keeping) (r : Request) : Answers k r (k.answer r) := by
  cases r with
  | register context parameters => exact .registered context parameters
  | set context name value now =>
    rw [answer]
    rcases k.persister.set_cases context name value now with ⟨hd, hs⟩ | ⟨hd, hs⟩
    · rw [hs]
      exact .stored hd
    · rw [hs]
      exact .rejected hd
  | poll now spoil =>
    rw [answer, poll_eq]
    split
    · rename_i hdue
      have hpoll : (Request.poll now spoil).due k.persister := hdue
      exact answers_flush k spoil (hpoll.trans (isSome_of_due hpoll).symm)
    · rename_i hdue
      exact .idle hdue
  | flush spoil => exact answers_flush k spoil rfl

theorem answers_of_eq {k : Keeping} {r : Request} {a : Outcome × Persister × Disk}
    (h : k.answer r = a) : Answers k r a := h ▸ k.answers_answer r

/-- A poll or a flush is an attempt to write if and only if it is due. -/
theorem answer_poll_ne_idle_iff (k : Keeping) (now : Nat) (spoil : Disk → Disk) :
    (k.answer (.poll now spoil)).1 ≠ .idle ↔ k.persister.deadline.any (· ≤ now) := by
  have h := k.answers_answer (.poll now spoil)
  generalize k.answer (.poll now spoil) = a at h ⊢
  cases h with
  | idle hdue => exact iff_of_false (fun h => h rfl) hdue
  | failed hdue disk => exact iff_of_true nofun hdue
  | written hdue hread => exact iff_of_true nofun hdue

end Keeping

/-! ## What has come of the requests -/

/-- Since when changes are waiting, behind an outcome. -/
def Outcome.pendingSince (since : Option Nat) : Outcome → Option Nat
  | .stored _ _ _ now => some now
  | .written => none
  | _ => since

/-- The time of the last value that was stored, unless it has been written. -/
def pendingSince? (log : List Outcome) : Option Nat := log.foldl Outcome.pendingSince none

/-- The value that was stored under a name. -/
def Outcome.value? (context name : String) : Outcome → Option ParameterValue
  | .stored c n value _ => if c = context ∧ n = name then some value else none
  | _ => none

/-- The last value that was stored under a name. -/
def lastStored? (log : List Outcome) (context name : String) : Option ParameterValue :=
  log.reverse.findSome? (·.value? context name)

theorem pendingSince?_append_singleton (log : List Outcome) (o : Outcome) :
    pendingSince? (log ++ [o]) = o.pendingSince (pendingSince? log) := by
  rw [pendingSince?, List.foldl_append]
  rfl

theorem lastStored?_append_singleton (log : List Outcome) (o : Outcome) (context name : String) :
    lastStored? (log ++ [o]) context name =
      (o.value? context name).or (lastStored? log context name) :=
  findSome?_reverse_append_singleton ..

/-! ## Runs -/

/-- What holds of a persister as long as it is kept, seen from the one that was opened. -/
structure Kept (opened : Persister) (k : Keeping) : Prop where
  path : k.persister.path = opened.path
  debounce : k.persister.debounce = opened.debounce
  saved : k.persister.Saved k.disk
  deadline : k.persister.deadline = (pendingSince? k.log).map (· + opened.debounce)
  values : ∀ context name, k.persister.get? context name =
    (lastStored? k.log context name).or (opened.get? context name)
  undeclared : ∀ context, k.persister.schema? context = none →
    k.persister.registry.section? context = opened.registry.section? context

/-- A context that has declared a setting has declared settings. -/
theorem schema?_ne_none_of_declares {p : Persister} {context name : String}
    (h : p.declares context name) : p.schema? context ≠ none := by
  intro hnone
  rw [declares, hnone] at h
  cases h

theorem kept_after {opened : Persister} {k : Keeping} (h : Kept opened k) (r : Request) :
    Kept opened (k.after r) := by
  have ha := k.answers_answer r
  rw [Keeping.after]
  generalize k.answer r = a at ha ⊢
  cases ha with
  | registered context parameters =>
    refine ⟨h.path, h.debounce, h.saved, ?_, ?_, fun c hc => h.undeclared c ?_⟩
    · rw [pendingSince?_append_singleton]
      exact h.deadline
    · intro c n
      rw [lastStored?_append_singleton]
      exact h.values c n
    · rw [schema?, register, Dictionary.get?_insert] at hc
      split at hc
      · cases hc
      · exact hc
  | @stored context name value now hdeclared =>
    refine ⟨h.path, h.debounce, .of_isSome rfl _, ?_, ?_, ?_⟩
    · rw [pendingSince?_append_singleton]
      exact congrArg (fun n => some (now + n)) h.debounce
    · intro c n
      rw [lastStored?_append_singleton, Option.or_assoc, ← h.values c n]
      exact get?_stored_eq_or ..
    · intro c hc
      show (k.persister.registry.set context name value).section? c = _
      rw [Registry.section?_set, if_neg]
      · exact h.undeclared c hc
      · rintro rfl
        exact schema?_ne_none_of_declares hdeclared hc
  | written hdue hread =>
    refine ⟨h.path, h.debounce, fun _ => ⟨_, hread, .inl rfl⟩, ?_, ?_, h.undeclared⟩
    · rw [pendingSince?_append_singleton]
      rfl
    · intro c n
      rw [lastStored?_append_singleton]
      exact h.values c n
  | failed hdue disk =>
    refine ⟨h.path, h.debounce, .of_isSome (isSome_of_due hdue) _, ?_, ?_, h.undeclared⟩
    · rw [pendingSince?_append_singleton]
      exact h.deadline
    · intro c n
      rw [lastStored?_append_singleton]
      exact h.values c n
  | _ =>
    refine ⟨h.path, h.debounce, h.saved, ?_, ?_, h.undeclared⟩
    · rw [pendingSince?_append_singleton]
      exact h.deadline
    · intro c n
      rw [lastStored?_append_singleton]
      exact h.values c n

theorem kept_afterAll {opened : Persister} {k : Keeping} (h : Kept opened k)
    (requests : List Request) : Kept opened (k.afterAll requests) := by
  induction requests generalizing k with
  | nil => exact h
  | cons r rest ih => exact ih (kept_after h r)

/-- A persister as it is opened has no declared settings and nothing to write. -/
theorem kept_load {path : String} {debounce : Nat} {disk disk' : Disk} {opened : Persister}
    (h : load path debounce disk = (.ok opened, disk')) :
    opened.path = path ∧ opened.debounce = debounce ∧ Kept opened ⟨opened, disk', []⟩ := by
  have hsaved := saved_load h
  rw [eq_of_load h] at hsaved ⊢
  exact ⟨rfl, rfl, rfl, rfl, hsaved, rfl, fun _ _ => rfl, fun _ _ => rfl⟩

/-! ## Nothing is lost -/

/-- A persister that was opened with a registry has lost no value since. -/
structure Faithful (path : String) (debounce : Nat) (start : Registry) (k : Keeping) : Prop where
  /-- The settings file is read as the registry unless a change has not been written. -/
  clean : k.persister.isDirty = false → k.persister.registry.ReadsBack →
    Registry.load path k.disk = .ok k.persister.registry
  /-- The registry has the last values that were stored, and the others it started with. -/
  values : ∀ context name, k.persister.get? context name =
    (lastStored? k.log context name).or (start.get? context name)
  /-- The sections of contexts that have declared nothing are those it started with. -/
  undeclared : ∀ context, k.persister.schema? context = none →
    k.persister.registry.section? context = start.section? context
  /-- A poll tries to write if and only if changes are pending, and have been for long enough
  since the last of them; without that it does nothing. -/
  polls : ∀ now spoil, (k.answer (.poll now spoil)).1 ≠ .idle ↔
    ∃ since, pendingSince? k.log = some since ∧ since + debounce ≤ now
  idle : ∀ r p disk, k.answer r = (.idle, p, disk) → p = k.persister ∧ disk = k.disk
  /-- Changes are pending from when they are stored until they are written. -/
  dirty : k.persister.isDirty = (pendingSince? k.log).isSome
  /-- A write that fails leaves the registry and what is pending. -/
  failed : ∀ r p disk, k.answer r = (.failed, p, disk) → p = k.persister
  /-- A write that succeeds writes the registry. -/
  written : ∀ r p disk, k.answer r = (.written, p, disk) →
    disk.read path = .ok k.persister.registry.text ∧ p = { k.persister with deadline := none }
  /-- A value that is rejected changes nothing. -/
  rejected : ∀ r p disk, k.answer r = (.rejected, p, disk) → p = k.persister ∧ disk = k.disk
  /-- A value that is stored changes its own entry, and puts the write off. -/
  stored : ∀ r context name value now p disk,
    k.answer r = (.stored context name value now, p, disk) →
      disk = k.disk ∧ p.schemas = k.persister.schemas ∧ p.deadline = some (now + debounce) ∧
        (∀ c n, p.get? c n =
          if c = context ∧ n = name then some value else k.persister.get? c n) ∧
        ∀ c, c ≠ context → p.registry.section? c = k.persister.registry.section? c

/-- Whatever is asked of a persister, it loses no value. -/
theorem faithful_afterAll {path : String} {debounce : Nat} {disk disk' : Disk}
    {opened : Persister} (h : load path debounce disk = (.ok opened, disk'))
    (requests : List Request) :
    Faithful path debounce opened.registry ((Keeping.mk opened disk' []).afterAll requests) := by
  obtain ⟨hpath, hdebounce, hstart⟩ := kept_load h
  have hkept := kept_afterAll hstart requests
  generalize (Keeping.mk opened disk' []).afterAll requests = k at hkept
  subst hpath hdebounce
  constructor
  case clean =>
    intro hclean hback
    rw [← hkept.path]
    exact load_of_saved hkept.saved (by simpa [isDirty] using hclean) hback
  case values => exact hkept.values
  case undeclared => exact hkept.undeclared
  case polls =>
    intro now spoil
    rw [k.answer_poll_ne_idle_iff, hkept.deadline]
    cases pendingSince? k.log <;> simp
  case idle =>
    intro r p disk ha
    cases Keeping.answers_of_eq ha
    exact ⟨rfl, rfl⟩
  case dirty =>
    rw [isDirty, hkept.deadline, Option.isSome_map]
  case failed =>
    intro r p disk ha
    cases Keeping.answers_of_eq ha
    rfl
  case written =>
    intro r p disk ha
    cases Keeping.answers_of_eq ha with
    | written hdue hread => exact ⟨hkept.path ▸ hread, rfl⟩
  case rejected =>
    intro r p disk ha
    cases Keeping.answers_of_eq ha
    exact ⟨rfl, rfl⟩
  case stored =>
    intro r context name value now p disk ha
    cases Keeping.answers_of_eq ha with
    | stored hdeclared =>
      refine ⟨rfl, rfl, congrArg (fun n => some (now + n)) hkept.debounce, fun c n => ?_,
        fun c hc => ?_⟩
      · exact get?_stored ..
      · exact (Registry.section?_set ..).trans (if_neg hc)

/-- A value that is stored twice, of which the first write fails, beside one of a context that
has declared nothing. -/
theorem faithful_failed_write :
    let disk : Disk := {
      nodes := .ofList [("/config.toml", .file "[old]\nx = true")]
      writeErrors := [some .noSpace] }
    let opened : Persister := {
      path := "/config.toml"
      registry := Registry.empty.set "old" "x" (.bool true)
      debounce := 3000 }
    let requests : List Request := [
      .register "fs" [{ name := "depth", longName := "Depth", kind := .int }],
      .set "fs" "depth" (.int 2) 0,
      .set "fs" "depth" (.int 3) 2000,
      .set "fs" "width" (.int 4) 2500,
      .poll 4999 id,
      .poll 5000 id,
      .flush id]
    let k := (Keeping.mk opened disk []).afterAll requests
    load "/config.toml" 3000 disk = (.ok opened, disk) ∧
      Registry.load "/config.toml" k.disk = .ok k.persister.registry ∧
      k.persister.registry.text = "[fs]\ndepth = 3\n\n[old]\nx = true\n" := by
  intro disk opened requests k
  have hload : load "/config.toml" 3000 disk = (.ok opened, disk) := by
    have hread : disk.read "/config.toml" = .ok "[old]\nx = true" := rfl
    exact load_of_read hread (by decide +kernel)
  have hclean : k.persister.isDirty = false := by decide +kernel
  have hback : k.persister.registry.ReadsBack := by decide +kernel
  have hfaithful : Faithful "/config.toml" 3000 opened.registry k :=
    faithful_afterAll hload requests
  exact ⟨hload, hfaithful.clean hclean hback, by decide +kernel⟩

end Persister

end Mediatheque
