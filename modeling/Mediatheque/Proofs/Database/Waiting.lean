import Mediatheque.Backend.Scripted
import Mediatheque.Proofs.Database.Creation

/-!
# Waiting for a new database

Whoever opens a new database and waits for it looks in rounds, which are runs (`runs_await`). So
the database is handed out after all backends that fill it have reported so, and at once if there
are none (`creation_protocol`).
-/

namespace Mediatheque

namespace Database

namespace Opening

variable {σ : Type} {o : Options}

/-! ## Waiting in rounds -/

/-- A turn of everyone, and the time that it takes. -/
def round [Backend σ] (s : Opening σ) : Opening σ :=
  let turned := ((List.range s.db.runners.length).foldl work s).turn
  turned.wait turned.db.pollInterval

theorem foldl_work [Backend σ] (positions : List Nat) (s : Opening σ) :
    positions.foldl (fun (m, db) i => runnerTurn i m db) (s.machine, s.db) =
      ((positions.foldl work s).machine, (positions.foldl work s).db) := by
  induction positions generalizing s with
  | nil => rfl
  | cons i rest ih => exact ih (s.work i)

theorem round_eq [Backend σ] (s : Opening σ) :
    Database.round s.machine s.db = (s.round.machine, s.round.db) := by
  rw [Database.round, foldl_work]
  rfl

theorem runs_foldl_work [Backend σ] (outside : BackendMessage → Prop) (positions : List Nat)
    (s : Opening σ) :
    Runs o outside s (positions.foldl work s) ∧
      (positions.foldl work s).subscription = s.subscription ∧
      (positions.foldl work s).seen = s.seen ∧ (positions.foldl work s).opened = s.opened := by
  induction positions generalizing s with
  | nil => exact ⟨.refl, rfl, rfl, rfl⟩
  | cons i rest ih =>
    obtain ⟨hruns, hsame⟩ := ih (s.work i)
    exact ⟨.head (.work s i) hruns, hsame⟩

theorem runs_round [Backend σ] (outside : BackendMessage → Prop) {s : Opening σ}
    {sub : Subscription} (hsub : s.subscription = some sub) :
    Runs o outside s s.round ∧ s.round.subscription = some sub ∧ s.round.seen = s.seen ∧
      s.round.opened = s.opened := by
  obtain ⟨hruns, hsubscription, hsame⟩ :=
    runs_foldl_work outside (List.range s.db.runners.length) s
  have hbegun := hsubscription.trans hsub
  refine ⟨(hruns.tail (.turn _ ?_)).tail (.wait _ _), hbegun, hsame⟩
  rw [hbegun]
  rfl

/-- The wait for the end is a run. -/
theorem runs_await [Backend σ] (outside : BackendMessage → Prop) (deadline : Option Nat) (n : Nat)
    {s : Opening σ} {sub : Subscription} (hsub : s.subscription = some sub)
    (hopening : s.opened = false) {seen : Bool} {m : Machine} {db : Database σ}
    (h : await (lookForCreation sub) id deadline n s.seen s.machine s.db = (seen, m, db)) :
    ∃ s', Runs o outside s s' ∧ s'.subscription = some sub ∧ s'.seen = seen ∧ s'.machine = m ∧
      s'.db = db := by
  have hlook : Runs o outside s (s.look sub) := .single (.look s hsub hopening)
  induction n generalizing s with
  | zero =>
    cases h
    exact ⟨s.look sub, hlook, hsub, rfl, rfl, rfl⟩
  | succ n ih =>
    rw [await] at h
    dsimp only at h
    split at h
    · cases h
      exact ⟨s.look sub, hlook, hsub, rfl, rfl, rfl⟩
    · obtain ⟨hruns, hsubscription, hseen, hopened⟩ := runs_round outside (s := s.look sub) hsub
      have hstill : (s.look sub).round.opened = false := hopened.trans hopening
      have hrest : await (lookForCreation sub) id deadline n (s.look sub).round.seen
          (s.look sub).round.machine (s.look sub).round.db = (seen, m, db) := by
        have hround : Database.round s.machine (lookForCreation sub s.seen s.db).2 =
            ((s.look sub).round.machine, (s.look sub).round.db) := round_eq (s.look sub)
        rw [hround] at h
        rw [hseen]
        exact h
      obtain ⟨s', hruns', hs'⟩ :=
        ih hsubscription hstill hrest (.single (.look _ hsubscription hstill))
      exact ⟨s', hlook.trans (hruns.trans hruns'), hs'⟩

/-- A database that is complete has been waited for in a run. -/
theorem runs_complete [Backend σ] (outside : BackendMessage → Prop) {s : Opening σ}
    (hnone : s.subscription = none) (hseen : s.seen = false) (hopening : s.opened = false)
    {o : Options} (hwait : o.waitForCreation = true) {db : Database σ} {m : Machine}
    (h : s.db.complete s.machine o = (.ok db, m)) :
    ∃ s', Runs o outside s s' ∧ s'.seen = true ∧ s'.machine = m ∧ s'.db = db := by
  rw [complete] at h
  simp only [hwait, Bool.not_true, Bool.false_eq_true, if_false] at h
  split at h
  · rename_i m' db' hawait
    cases h
    have hbegun : s.begin.subscription = some s.db.beginCreation.1 := rfl
    rw [← hseen] at hawait
    obtain ⟨s', hruns, hsub, hseen', hmachine, hdb⟩ :=
      runs_await outside _ _ (s := s.begin) hbegun hopening hawait
    refine ⟨s'.finish s.db.beginCreation.1,
      .head (.begin s hnone) (hruns.tail (.finish s' hsub fun _ => hseen')), hseen', hmachine, ?_⟩
    rw [finish, hdb]
  · cases h

/-- A look that is enough ends the wait at once. -/
theorem await_of_enough [Backend σ] {α : Type} {look : α → Database σ → α × Database σ}
    {enough : α → Bool} {a : α} {db : Database σ} (h : enough (look a db).1 = true)
    (deadline : Option Nat) (n : Nat) (m : Machine) :
    await look enough deadline n a m db = ((look a db).1, m, (look a db).2) := by
  cases n with
  | zero => rfl
  | succ n =>
    rw [await]
    dsimp only
    rw [h, Bool.true_or, if_pos rfl]

/-- Without backends that fill a database the wait is over before it begins. -/
theorem complete_start_of_nil [Backend σ] {m : Machine} {o : Options} {p : Persister}
    {backends : List σ} (hnone : creatorNames (backends.map Backend.info) = [])
    (hwait : o.waitForCreation = true) :
    ∃ db, (start m o p backends).db.complete (start m o p backends).machine o =
      (.ok db, (start m o p backends).machine) := by
  have hbegun := guaranteed_of_sound (sound_begin (sound_start m o p backends) rfl)
  have hseen : (lookForCreation (start m o p backends).db.beginCreation.1 false
      (start m o p backends).db.beginCreation.2).1 = true :=
    (hbegun.atOnce hnone (start m o p backends).db.beginCreation.1 rfl).2 rfl
  rw [complete]
  simp only [hwait, Bool.not_true, Bool.false_eq_true, if_false]
  rw [await_of_enough hseen, hseen]
  exact ⟨_, rfl⟩

/-! ## Opening -/

theorem now_lockDir (m : Machine) (dir : String) : (lockDir m dir).2.now = m.now := by
  rw [lockDir]
  split
  · rfl
  · dsimp only
    split
    · rfl
    · rfl
    · rename_i locked hlocked
      rw [Machine.lock?] at hlocked
      obtain ⟨disk, -, hdisk⟩ := Fault.bind_eq_ok_iff.1 hlocked
      split at hdisk
      · cases hdisk
      · cases hdisk
        rfl

/-- A database is not opened for a reason that is known before anyone begins to work, or else it
is completed. Up to then no time passes. -/
theorem open?_of_create [Backend σ] (m : Machine) {o : Options} (backends : List σ)
    (hcreate : o.create = true) :
    (∃ e m', open? m o backends = (.error e, m') ∧ m'.now = m.now) ∨
      ∃ begun p, begun.now = m.now ∧ open? m o backends =
        (start begun o p backends).db.complete (start begun o p backends).machine o := by
  have hlocked := now_lockDir m (Path.databaseDir o.baseDir)
  rw [open?]
  split
  · exact .inl ⟨_, _, rfl, rfl⟩
  · split
    · rename_i hlock
      rw [hlock] at hlocked
      exact .inl ⟨_, _, rfl, hlocked⟩
    · rename_i locked hlock
      rw [hlock] at hlocked
      split
      · exact .inl ⟨_, _, rfl, hlocked⟩
      · rename_i p disk _
        refine .inr ⟨{ locked with disk := disk }, p, hlocked, ?_⟩
        rw [start]
        exact if_pos hcreate

/-- A new database is complete once all backends that fill it have reported so, whatever they
report in which order and whoever works when, provided that no backend publishes the end by
itself. If it is waited for it is handed out when the end has been seen, and if no backend fills
it that takes no time. -/
theorem creation_protocol [Backend σ] (hbackends : DiscreetBackends σ) (backends : List σ)
    (o : Options) :
    (∀ m p s, Runs o BackendMessage.Discreet (start m o p backends) s →
      s.Guaranteed o (creatorNames (backends.map Backend.info))) ∧
    (o.create = true → o.waitForCreation = true → ∀ m db m',
      open? m o backends = (.ok db, m') →
        ∃ begun p s, Runs o (fun _ => False) (start begun o p backends) s ∧
          s.seen = true ∧ s.machine = m' ∧ s.db = db ∧
          ∀ name ∈ creatorNames (backends.map Backend.info), ⟨name, .creationDone⟩ ∈ s.sent) ∧
    (creatorNames (backends.map Backend.info) = [] →
      o.create = true → o.waitForCreation = true →
        (∀ m, (open? m o backends).2.now = m.now) ∧
        ∀ m p, ∃ db, (start m o p backends).db.complete (start m o p backends).machine o =
          (.ok db, (start m o p backends).machine)) := by
  refine ⟨fun m p s hruns => ?_, fun hcreate hwait m db m' hopen => ?_,
    fun hnone hcreate hwait => ⟨fun m => ?_, fun m p => complete_start_of_nil hnone hwait⟩⟩
  · exact guaranteed_of_sound
      (sound_runs hbackends (fun _ hm => hm) (sound_start m o p backends) hruns)
  · rcases open?_of_create m backends hcreate with ⟨e, m₁, herror, -⟩ | ⟨begun, p, -, hcomplete⟩
    · cases herror.symm.trans hopen
    · obtain ⟨s, hruns, hseen, hmachine, hdb⟩ :=
        runs_complete (fun _ => False) rfl rfl rfl hwait (hcomplete.symm.trans hopen)
      have hguaranteed := guaranteed_of_sound
        (sound_runs hbackends (fun _ => False.elim) (sound_start begun o p backends) hruns)
      exact ⟨begun, p, s, hruns, hseen, hmachine, hdb,
        hguaranteed.reported (hguaranteed.seen hseen)⟩
  · rcases open?_of_create m backends hcreate with ⟨e, m₁, herror, hnow⟩ | ⟨begun, p, hnow, h⟩
    · rw [herror]
      exact hnow
    · obtain ⟨db, hcomplete⟩ := complete_start_of_nil (m := begun) (p := p) hnone hwait
      obtain ⟨-, hstart, -⟩ := start_spec begun o p backends
      rw [h, hcomplete]
      exact hstart.trans hnow

theorem discreetBackends_scripted : DiscreetBackends Scripted := by
  refine ⟨fun b context h => ?_, fun b c context h => ?_⟩
  · simp only [Backend.ping] at h
    split at h <;> simp at h
  · simp only [Backend.handle] at h
    split at h
    · cases h
    · cases c with
      | browseChildren =>
        simp only [Script.react, Script.pageEvents, List.mem_map] at h
        obtain ⟨e, he, hdone⟩ := h
        cases hdone
        split at he <;> simp at he
      | _ => simp [Script.react] at h

/-- Two backends fill a database and one does not. One of the two reports before the wait begins,
and all report again before the other does so for the first time. -/
theorem creation_protocol_scripted :
    let options : Options := {
      baseDir := "/b"
      create := true
      pollInterval := 10
      saveDebounce := 3000
      waitForCreation := true
      creationTimeout := some 5000
      serverUrl := none
      radioBrowserServer := "de1.api.radio-browser.info"
      objectCacheSize := 16 }
    let filling (name : String) : Scripted :=
      { script := { name := name, capabilities := { creationDone := true } } }
    let radio : Scripted := { script := { name := "radio" } }
    let backends := [filling "fs", radio, filling "upnp"]
    let begun := start {} options { path := "/b/config.toml", debounce := 3000 } backends
    let early := (begun.report ⟨"fs", .creationDone⟩).begin
    let half := ((early.report ⟨"radio", .creationDone⟩).report ⟨"fs", .creationDone⟩).turn
    let full := (half.report ⟨"upnp", .creationDone⟩).turn
    half.Guaranteed options ["fs", "upnp"] ∧ tellings half.told = 0 ∧
      full.Guaranteed options ["fs", "upnp"] ∧ tellings full.told = 1 ∧
      (∃ db m machine p s, open? {} options backends = (.ok db, m) ∧
        Runs options (fun _ => False) (start machine options p backends) s ∧
        s.seen = true ∧ s.db = db ∧
        ⟨"fs", .creationDone⟩ ∈ s.sent ∧ ⟨"upnp", .creationDone⟩ ∈ s.sent) ∧
      (open? {} options [radio]).1.isOk ∧ (open? {} options [radio]).2.now = 0 := by
  intro options filling radio backends begun early half full
  have hprotocol := creation_protocol discreetBackends_scripted backends options
  have hcreators : creatorNames (backends.map Backend.info) = ["fs", "upnp"] := rfl
  rw [hcreators] at hprotocol
  have hdiscreet (name : String) : (⟨name, .creationDone⟩ : BackendMessage).Discreet := nofun
  have hearly : Runs options BackendMessage.Discreet begun early :=
    (Relation.ReflTransGen.single (.report begun (hdiscreet _))).tail (.begin _ rfl)
  have hhalf : Runs options BackendMessage.Discreet begun half :=
    ((hearly.tail (.report _ (hdiscreet _))).tail (.report _ (hdiscreet _))).tail (.turn _ rfl)
  have hfull : Runs options BackendMessage.Discreet begun full :=
    (hhalf.tail (.report _ (hdiscreet _))).tail (.turn _ rfl)
  have hopened : (open? {} options backends).1.isOk := by decide +kernel
  refine ⟨hprotocol.1 _ _ _ hhalf, by decide +kernel, hprotocol.1 _ _ _ hfull, by decide +kernel,
    ?_, by decide +kernel, (creation_protocol discreetBackends_scripted [radio] options).2.2 rfl
      rfl rfl |>.1 {}⟩
  rcases hopen : open? {} options backends with ⟨error | db, m⟩
  · rw [hopen] at hopened
    cases hopened
  obtain ⟨machine, p, s, hruns, hseen, -, hdb, hsent⟩ := hprotocol.2.1 rfl rfl _ _ _ hopen
  exact ⟨db, m, machine, p, s, rfl, hruns, hseen, hdb, hsent _ (by simp), hsent _ (by simp)⟩

end Opening

end Database

end Mediatheque
