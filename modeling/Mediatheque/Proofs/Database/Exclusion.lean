import Mathlib.Logic.Relation
import Mediatheque.Backend.Scripted
import Mediatheque.Proofs.Database.Holding

/-!
# One at a time

What an opening comes to depends on what is on the disk and on who holds the directory
(`opened_open?`), and only one that succeeds holds it from then on. So the directory is locked as
often as there are databases open in it, which is at most once, and it stays from the first of them
on (`Tenancy.Sound`). Who finds the directory held is refused and changes nothing, and once the
database is closed, or was not complete in time, the directory is free (`exclusive_runs`).
-/

namespace Mediatheque

open Dispatcher

namespace Database

variable {σ : Type}

/-! ## What an opening comes to -/

/-- What comes of opening or creating a database in a directory. -/
inductive Opened (dir : String) (create : Bool) (m : Machine) :
    Except DatabaseError (Database σ) → Machine → Prop where
  | opened {db : Database σ} {m' : Machine} (hcheck : checkDir dir create m.disk = .ok ())
    (hfree : dir ∉ m.locked) (htame : Tame dir db) (hopen : db.isOpen = true)
    (hlocked : m'.locked = dir :: m.locked) (hdir : m'.disk.isDir dir = true)
    (hlock : m'.disk.IsFile (Path.lockFile dir)) : Opened dir create m (.ok db) m'
  | present (hcreate : create = true) (hpresent : m.disk.isPresent dir = true) :
    Opened dir create m (.error (.alreadyExists dir)) m
  | missing (hcreate : create = false) (hmissing : m.disk.isDir dir = false) :
    Opened dir create m (.error (.notFound dir)) m
  | held {m' : Machine} (hcheck : checkDir dir create m.disk = .ok ()) (hheld : dir ∈ m.locked)
    (hlocked : m'.locked = m.locked) (hdisk : m.disk.Sustains dir m'.disk)
    (hsame : m.disk.isDir dir = true → m' = m) : Opened dir create m (.error (.locked dir)) m'
  /-- A file operation has failed. -/
  | failed {m' : Machine} (path : String) (cause : DiskError)
    (hcheck : checkDir dir create m.disk = .ok ())
    (hfree : m.disk.isDir dir = true → m.disk.IsFile (Path.lockFile dir) → dir ∉ m.locked)
    (hlocked : m'.locked = m.locked) (hdisk : m.disk.Sustains dir m'.disk) :
    Opened dir create m (.error (.disk path cause)) m'
  /-- The database is closed, since it was not complete in time. -/
  | late {m' : Machine} (milliseconds : Nat) (hcheck : checkDir dir create m.disk = .ok ())
    (hcreate : create = true) (hfree : dir ∉ m.locked) (hlocked : m'.locked = m.locked)
    (hdir : m'.disk.isDir dir = true) (hdisk : m.disk.Sustains dir m'.disk) :
    Opened dir create m (.error (.creationTimeout milliseconds)) m'

theorem opened_of_checkDir {dir : String} {create : Bool} {m : Machine} {e : DatabaseError}
    (h : checkDir dir create m.disk = .error e) :
    Opened dir create m (.error e : Except DatabaseError (Database σ)) m := by
  rw [checkDir] at h
  split at h
  · rename_i hcreate
    split at h
    · rename_i hpresent
      cases h
      exact .present hcreate hpresent
    · cases h
  · rename_i hcreate
    split at h
    · cases h
    · rename_i hmissing
      cases h
      exact .missing (Bool.eq_false_iff.2 hcreate) (Bool.eq_false_iff.2 hmissing)

theorem opened_open? [Backend σ] {m m' : Machine} {o : Options} {backends : List σ}
    {r : Except DatabaseError (Database σ)} (h : open? m o backends = (r, m')) :
    Opened (Path.databaseDir o.baseDir) o.create m r m' := by
  rw [open?] at h
  split at h
  · rename_i e hcheck
    cases h
    exact opened_of_checkDir hcheck
  · rename_i hcheck
    split at h
    · rename_i e refused hlock
      cases h
      obtain ⟨hlocked, hgrows, ⟨rfl, hheld, hsame⟩ | ⟨path, cause, rfl⟩⟩ := lockDir_error hlock
      · exact .held hcheck hheld hlocked (hgrows.keeps.retains.sustains _) hsame
      · refine .failed path cause hcheck (fun hdir hfile hheld => ?_) hlocked
          (hgrows.keeps.retains.sustains _)
        cases hlock.symm.trans (lockDir_of_locked hdir hfile hheld)
    · rename_i held hlock
      obtain ⟨hfree, hlocked, hdir, hfile⟩ :=
        lockDir_ok (Path.isEmpty_databaseDir o.baseDir) hlock
      have hgrows := grows_lockDir hlock
      obtain ⟨hretains, herror⟩ :=
        loadSettings_spec held.disk (Path.databaseDir o.baseDir) o.saveDebounce
      split at h
      · rename_i e disk hload
        cases h
        rw [hload] at hretains herror
        obtain ⟨path, cause, rfl⟩ := herror e rfl
        refine .failed path cause hcheck (fun _ _ => hfree) ?_
          ((hgrows.keeps.retains.trans hretains).sustains _)
        show held.locked.erase _ = _
        rw [hlocked, List.erase_cons_head]
      · rename_i p disk hload
        rw [hload] at hretains
        obtain ⟨htame, hopen, hstart, hdisk⟩ :=
          tame_start { held with disk := disk } o p backends
        have hthere : (start { held with disk := disk } o p backends).1.disk.isDir
              (Path.databaseDir o.baseDir) = true ∧
            (start { held with disk := disk } o p backends).1.disk.IsFile
              (Path.lockFile (Path.databaseDir o.baseDir)) ∧
            m.disk.Retains (start { held with disk := disk } o p backends).1.disk := by
          rw [hdisk]
          exact ⟨hretains.isDir hdir, hretains.isFile hfile, hgrows.keeps.retains.trans hretains⟩
        replace hstart := hstart.trans hlocked
        dsimp only at h
        split at h
        · rename_i hcreate
          rcases completed_complete htame hopen h with
            ⟨db, rfl, hstays⟩ | ⟨⟨ms, rfl⟩, hgivenUp, hsustains⟩
          · exact .opened hcheck hfree hstays.tame (hstays.isOpen.trans hopen)
              (hstays.locked.trans hstart) (hstays.disk.isDir hthere.1)
              (hstays.disk.lock hthere.2.1)
          · refine .late ms hcheck hcreate hfree ?_ (hsustains.isDir hthere.1)
              ((hthere.2.2.sustains _).trans hsustains)
            rw [hgivenUp, hstart, List.erase_cons_head]
        · cases h
          exact .opened hcheck hfree htame hopen hstart hthere.1 hthere.2.1

section

variable {dir : String} {create : Bool} {m m' : Machine} {r : Except DatabaseError (Database σ)}
  {e : DatabaseError}

theorem checkDir_eq_ok_iff {disk : Disk} :
    checkDir dir create disk = .ok () ↔
      if create then disk.isPresent dir = false else disk.isDir dir = true := by
  rw [checkDir]
  cases create with
  | true => cases disk.isPresent dir <;> simp
  | false => cases disk.isDir dir <;> simp

theorem Opened.alreadyExists_iff (h : Opened dir true m r m') :
    r = .error (.alreadyExists dir) ↔ m.disk.isPresent dir = true := by
  have hchecked (hcheck : checkDir dir true m.disk = .ok ()) : ¬ m.disk.isPresent dir = true :=
    Bool.eq_false_iff.1 (checkDir_eq_ok_iff.1 hcheck)
  cases h with
  | opened hcheck => exact iff_of_false nofun (hchecked hcheck)
  | present _ hpresent => exact iff_of_true rfl hpresent
  | missing hcreate => cases hcreate
  | held hcheck => exact iff_of_false nofun (hchecked hcheck)
  | failed _ _ hcheck => exact iff_of_false nofun (hchecked hcheck)
  | late _ hcheck => exact iff_of_false nofun (hchecked hcheck)

theorem Opened.notFound_iff (h : Opened dir false m r m') :
    r = .error (.notFound dir) ↔ m.disk.isDir dir = false := by
  have hchecked (hcheck : checkDir dir false m.disk = .ok ()) : ¬ m.disk.isDir dir = false :=
    Bool.eq_false_iff.not.2 (not_not_intro (checkDir_eq_ok_iff.1 hcheck))
  cases h with
  | opened hcheck => exact iff_of_false nofun (hchecked hcheck)
  | present hcreate => cases hcreate
  | missing _ hmissing => exact iff_of_true rfl hmissing
  | held hcheck => exact iff_of_false nofun (hchecked hcheck)
  | failed _ _ hcheck => exact iff_of_false nofun (hchecked hcheck)
  | late _ hcheck => exact iff_of_false nofun (hchecked hcheck)

/-- Where a directory that is held has its lock, only those who hold it keep others out. -/
theorem Opened.locked_iff (h : Opened dir false m r m') (hdir : m.disk.isDir dir = true)
    (hlock : dir ∈ m.locked → m.disk.IsFile (Path.lockFile dir)) :
    r = .error (.locked dir) ↔ dir ∈ m.locked := by
  cases h with
  | opened _ hfree => exact iff_of_false nofun hfree
  | present hcreate => cases hcreate
  | missing _ hmissing => cases hdir.symm.trans hmissing
  | held _ hheld => exact iff_of_true rfl hheld
  | failed _ _ _ hfree => exact iff_of_false nofun fun hheld => hfree hdir (hlock hheld) hheld
  | late _ _ hcreate => cases hcreate

/-- An answer by which an opening is refused. -/
def IsRefusal : DatabaseError → Prop
  | .alreadyExists _ | .notFound _ | .locked _ => True
  | _ => False

/-- Who is refused changes nothing, where a directory that is held is there. -/
theorem Opened.eq_of_refusal (h : Opened dir create m r m') (he : r = .error e)
    (hrefusal : IsRefusal e) (hthere : dir ∈ m.locked → m.disk.isDir dir = true) : m' = m := by
  cases h with
  | opened => cases he
  | present => rfl
  | missing => rfl
  | held _ hheld _ _ hsame => exact hsame (hthere hheld)
  | failed =>
    cases he
    cases hrefusal
  | late =>
    cases he
    cases hrefusal

end

/-- The directory of a database is free: nobody holds it, and who opens a database in it is not
refused, but may meet a fault of the disk. -/
def Free (σ : Type) [Backend σ] (base : String) (m : Machine) : Prop :=
  Path.databaseDir base ∉ m.locked ∧
    ∀ (o : Options) (backends : List σ), o.baseDir = base → o.create = false →
      ∀ e, (open? m o backends).1 = .error e → ∃ path cause, e = .disk path cause

theorem free_of_isDir [Backend σ] {base : String} {m : Machine}
    (hfree : Path.databaseDir base ∉ m.locked)
    (hdir : m.disk.isDir (Path.databaseDir base) = true) : Free σ base m := by
  refine ⟨hfree, fun o backends hbase hcreate e he => ?_⟩
  rcases hopen : open? m o backends with ⟨r, m'⟩
  have hopened := opened_open? hopen
  rw [hopen] at he
  rw [hbase, hcreate] at hopened
  cases hopened with
  | opened => cases he
  | present hcreate' => cases hcreate'
  | missing _ hmissing => cases hdir.symm.trans hmissing
  | held _ hheld => exact absurd hheld hfree
  | failed path cause =>
    cases he
    exact ⟨path, cause, rfl⟩
  | late _ _ hcreate' => cases hcreate'

/-! ## Tenancies -/

/-- Those who hold a directory, or have held it: the databases that have been opened in it, and
their machine. -/
structure Tenancy (σ : Type) where
  machine : Machine
  instances : List (Database σ) := []

namespace Tenancy

/-- The databases that are open. -/
def live (t : Tenancy σ) : Nat := t.instances.countP (·.isOpen)

/-- Someone opens a database, or creates one. -/
def tryOpen [Backend σ] (t : Tenancy σ) (o : Options) (backends : List σ) : Tenancy σ :=
  match open? t.machine o backends with
  | (.ok db, m) => ⟨m, t.instances ++ [db]⟩
  | (.error _, m) => { t with machine := m }

/-- Something is done with the database at a position. -/
def act (t : Tenancy σ) (i : Nat) (f : Machine → Database σ → Machine × Database σ) : Tenancy σ :=
  match t.instances[i]? with
  | some db => ⟨(f t.machine db).1, t.instances.set i (f t.machine db).2⟩
  | none => t

/-- What may happen next to the databases below a directory. -/
inductive Step [Backend σ] (base : String) : Tenancy σ → Tenancy σ → Prop where
  | opens (t : Tenancy σ) {o : Options} (backends : List σ) (h : o.baseDir = base) :
    Step base t (t.tryOpen o backends)
  | close (t : Tenancy σ) (i : Nat) : Step base t (t.act i Database.close)
  | work (t : Tenancy σ) (i j : Nat) : Step base t (t.act i (runnerTurn j))
  | turn (t : Tenancy σ) (i : Nat) : Step base t (t.act i dispatcherTurn)
  /-- A client sends a command. A rescan clears the images, through which a path that goes up might
  lead. -/
  | send (t : Tenancy σ) (i : Nat) {c : Command}
    (h : c.AsksRescan → ".." ∉ Path.components (Path.databaseDir base)) :
    Step base t (t.act i fun m db => (m, db.send c))
  | wait (t : Tenancy σ) (time : Nat) :
    Step base t { t with machine := { t.machine with now := t.machine.now + time } }

/-- What may come of some tenancy. -/
abbrev Runs [Backend σ] (base : String) : Tenancy σ → Tenancy σ → Prop :=
  Relation.ReflTransGen (Step base)

/-- What holds at any time: the directory is locked once for each database that is open, and at
most once, and it stays from when a database has been opened in it. -/
structure Sound (dir : String) (t : Tenancy σ) : Prop where
  tame : ∀ db ∈ t.instances, Tame dir db
  locked : t.machine.locked.count dir = t.live
  single : t.live ≤ 1
  there : t.instances ≠ [] →
    t.machine.disk.isDir dir = true ∧ t.machine.disk.IsFile (Path.lockFile dir)

variable {dir : String} {t t' : Tenancy σ}

theorem mem_locked_iff (h : t.Sound dir) :
    dir ∈ t.machine.locked ↔ ∃ db ∈ t.instances, db.isOpen = true := by
  rw [← List.count_pos_iff, h.locked, live, List.countP_pos_iff]

theorem there_of_mem_locked (h : t.Sound dir) (hheld : dir ∈ t.machine.locked) :
    t.machine.disk.isDir dir = true ∧ t.machine.disk.IsFile (Path.lockFile dir) := by
  obtain ⟨db, hdb, -⟩ := (mem_locked_iff h).1 hheld
  exact h.there (List.ne_nil_of_mem hdb)

/-- A machine whose locks on the directory are the same, and on which it stays. -/
theorem Sound.of_machine (h : t.Sound dir) {m : Machine} (hlocked : m.locked = t.machine.locked)
    (hdisk : t.machine.disk.Sustains dir m.disk) : Sound dir { t with machine := m } := by
  refine ⟨h.tame, ?_, h.single, fun hsome => ?_⟩
  · rw [hlocked]
    exact h.locked
  · exact (h.there hsome).imp hdisk.isDir hdisk.lock

theorem sound_tryOpen [Backend σ] (h : t.Sound dir) {o : Options} (backends : List σ)
    (hdir : Path.databaseDir o.baseDir = dir) : (t.tryOpen o backends).Sound dir := by
  rcases hopen : open? t.machine o backends with ⟨r, m⟩
  have hopened := opened_open? hopen
  rw [hdir] at hopened
  rw [tryOpen, hopen]
  cases hopened with
  | @opened db _ _ hfree htame hisOpen hlocked hthere hfile =>
    have hnone : t.live = 0 := by rw [← h.locked, List.count_eq_zero_of_not_mem hfree]
    have hone : live ⟨m, t.instances ++ [db]⟩ = 1 := by
      rw [live, List.countP_append, ← live, hnone, List.countP_singleton, hisOpen]
      rfl
    refine ⟨List.forall_mem_append.2 ⟨h.tame, List.forall_mem_singleton.2 htame⟩, ?_, hone.le,
      fun _ => ⟨hthere, hfile⟩⟩
    rw [hlocked, List.count_cons_self, h.locked, hnone, hone]
  | present _ _ => exact h
  | missing _ _ => exact h
  | held _ _ hlocked hdisk _ => exact h.of_machine hlocked hdisk
  | failed _ _ _ _ hlocked hdisk => exact h.of_machine hlocked hdisk
  | late _ _ _ _ hlocked _ hdisk => exact h.of_machine hlocked hdisk

theorem exists_act (t : Tenancy σ) (i : Nat) (f : Machine → Database σ → Machine × Database σ) :
    t.act i f = t ∨ ∃ hi : i < t.instances.length, t.act i f =
      ⟨(f t.machine t.instances[i]).1, t.instances.set i (f t.machine t.instances[i]).2⟩ := by
  rw [act]
  split
  · rename_i db hdb
    obtain ⟨hi, rfl⟩ := List.getElem?_eq_some_iff.1 hdb
    exact .inr ⟨hi, rfl⟩
  · exact .inl rfl

theorem live_set {i : Nat} (hi : i < t.instances.length) (m : Machine) (db : Database σ) :
    live ⟨m, t.instances.set i db⟩ =
      t.live - (if t.instances[i].isOpen then 1 else 0) + if db.isOpen then 1 else 0 :=
  List.countP_set hi

theorem live_pos {i : Nat} (hi : i < t.instances.length) (hopen : t.instances[i].isOpen = true) :
    0 < t.live :=
  List.countP_pos_iff.2 ⟨_, List.getElem_mem hi, hopen⟩

/-- A database has come to another state, and the locks to as many as are open. -/
theorem Sound.set (h : t.Sound dir) {i : Nat} (hi : i < t.instances.length) {m : Machine}
    {db : Database σ} (htame : Tame dir db) (hdisk : t.machine.disk.Sustains dir m.disk)
    (hlocked : m.locked.count dir = live ⟨m, t.instances.set i db⟩)
    (hle : live ⟨m, t.instances.set i db⟩ ≤ t.live) :
    Sound dir ⟨m, t.instances.set i db⟩ := by
  refine ⟨fun other hother => ?_, hlocked, hle.trans h.single, fun _ => ?_⟩
  · rcases List.mem_or_eq_of_mem_set hother with hother | rfl
    · exact h.tame other hother
    · exact htame
  · exact (h.there (List.ne_nil_of_length_pos (Nat.zero_lt_of_lt hi))).imp hdisk.isDir hdisk.lock

/-- What leaves the locks alone, and the directory where it is. -/
theorem sound_act (h : t.Sound dir) (i : Nat) {f : Machine → Database σ → Machine × Database σ}
    (hf : ∀ x : Machine × Database σ, Tame dir x.2 → Stays dir x (f x.1 x.2)) :
    (t.act i f).Sound dir := by
  rcases exists_act t i f with hsame | ⟨hi, hact⟩
  · rw [hsame]
    exact h
  · rw [hact]
    have hstays := hf (t.machine, t.instances[i]) (h.tame _ (List.getElem_mem hi))
    have hlive : live ⟨(f t.machine t.instances[i]).1,
        t.instances.set i (f t.machine t.instances[i]).2⟩ = t.live := by
      rw [live_set hi, hstays.isOpen]
      split
      · rename_i hopen
        exact Nat.sub_add_cancel (live_pos hi hopen)
      · rfl
    refine h.set hi hstays.tame hstays.disk ?_ hlive.le
    rw [hlive, hstays.locked]
    exact h.locked

/-- A database that is open is closed. -/
theorem closed_act [Backend σ] (h : t.Sound dir) {i : Nat} (hi : i < t.instances.length)
    (hopen : t.instances[i].isOpen = true) :
    Closed dir (t.machine, t.instances[i]) (Database.close t.machine t.instances[i]) :=
  closed_close _ (h.tame _ (List.getElem_mem hi)) hopen

theorem sound_close [Backend σ] (h : t.Sound dir) (i : Nat) :
    (t.act i Database.close).Sound dir := by
  rcases exists_act t i Database.close with hsame | ⟨hi, hact⟩
  · rw [hsame]
    exact h
  · cases hopen : t.instances[i].isOpen with
    | false =>
      have hclose : Database.close t.machine t.instances[i] = (t.machine, t.instances[i]) := by
        rw [Database.close, hopen]
        rfl
      rw [hact, hclose, List.set_getElem_self]
      exact h
    | true =>
      have hcloses := closed_act h hi hopen
      have hlive : live ⟨(Database.close t.machine t.instances[i]).1,
          t.instances.set i (Database.close t.machine t.instances[i]).2⟩ = t.live - 1 := by
        rw [live_set hi, hopen, hcloses.isOpen]
        rfl
      rw [hact]
      refine h.set hi hcloses.tame hcloses.disk ?_ (hlive.le.trans (Nat.sub_le ..))
      rw [hlive, hcloses.locked, List.count_erase_self]
      exact congrArg (· - 1) h.locked

/-! ## Runs -/

theorem sound_step [Backend σ] {base : String} (h : t.Sound (Path.databaseDir base))
    (hstep : Step base t t') : t'.Sound (Path.databaseDir base) := by
  cases hstep with
  | opens backends hbase => exact sound_tryOpen h backends (hbase ▸ rfl)
  | close i => exact sound_close h i
  | work i j => exact sound_act h i fun x hx => stays_runnerTurn j x hx
  | turn i => exact sound_act h i fun x hx => stays_dispatcherTurn x hx
  | send i hc =>
    exact sound_act h i fun x hx => stays_send x hx fun hasks => Disk.sparing_databaseDir (hc hasks)
  | wait time => exact h.of_machine rfl (.refl _ _)

theorem sound_runs [Backend σ] {base : String} (h : t.Sound (Path.databaseDir base))
    (hruns : Runs base t t') : t'.Sound (Path.databaseDir base) := by
  induction hruns with
  | refl => exact h
  | tail _ hstep ih => exact sound_step ih hstep

theorem sound_nil {m : Machine} (hfree : dir ∉ m.locked) : Sound dir (⟨m, []⟩ : Tenancy σ) :=
  ⟨List.forall_mem_nil _, List.count_eq_zero_of_not_mem hfree, Nat.zero_le 1,
    fun hsome => absurd rfl hsome⟩

/-! ## Exclusion -/

/-- One database at a time is open below a directory. -/
structure Exclusive [Backend σ] (base : String) (t : Tenancy σ) : Prop where
  live : t.live ≤ 1
  alreadyExists : ∀ (o : Options) (backends : List σ), o.baseDir = base → o.create = true →
    ((open? t.machine o backends).1 = .error (.alreadyExists (Path.databaseDir base)) ↔
      t.machine.disk.isPresent (Path.databaseDir base) = true)
  notFound : ∀ (o : Options) (backends : List σ), o.baseDir = base → o.create = false →
    ((open? t.machine o backends).1 = .error (.notFound (Path.databaseDir base)) ↔
      t.machine.disk.isDir (Path.databaseDir base) = false)
  locked : ∀ (o : Options) (backends : List σ), o.baseDir = base → o.create = false →
    t.machine.disk.isDir (Path.databaseDir base) = true →
    ((open? t.machine o backends).1 = .error (.locked (Path.databaseDir base)) ↔
      ∃ db ∈ t.instances, db.isOpen = true)
  /-- Who is refused changes nothing. -/
  refused : ∀ (o : Options) (backends : List σ) (e : DatabaseError), o.baseDir = base →
    (open? t.machine o backends).1 = .error e → IsRefusal e → t.tryOpen o backends = t
  late : ∀ (o : Options) (backends : List σ) (milliseconds : Nat), o.baseDir = base →
    (open? t.machine o backends).1 = .error (.creationTimeout milliseconds) →
      Free σ base (t.tryOpen o backends).machine
  closed : ∀ (i : Nat) (db : Database σ), t.instances[i]? = some db → db.isOpen = true →
    Free σ base (t.act i Database.close).machine

theorem exclusive_of_sound [Backend σ] {base : String} (h : t.Sound (Path.databaseDir base)) :
    t.Exclusive base := by
  have hopens {o : Options} (backends : List σ) (hbase : o.baseDir = base) :
      Opened (Path.databaseDir base) o.create t.machine (open? t.machine o backends).1
        (open? t.machine o backends).2 := by
    rw [← hbase]
    exact opened_open? rfl
  refine ⟨h.single, fun o backends hbase hcreate => ?_, fun o backends hbase hcreate => ?_,
    fun o backends hbase hcreate hdir => ?_, fun o backends e hbase he hrefusal => ?_,
    fun o backends milliseconds hbase he => ?_, fun i db hdb hopen => ?_⟩
  · have hopened := hopens backends hbase
    rw [hcreate] at hopened
    exact hopened.alreadyExists_iff
  · have hopened := hopens backends hbase
    rw [hcreate] at hopened
    exact hopened.notFound_iff
  · have hopened := hopens backends hbase
    rw [hcreate] at hopened
    rw [← mem_locked_iff h]
    exact hopened.locked_iff hdir fun hheld => (there_of_mem_locked h hheld).2
  · have hsame := (hopens backends hbase).eq_of_refusal he hrefusal
      fun hheld => (there_of_mem_locked h hheld).1
    rw [tryOpen]
    generalize open? t.machine o backends = answer at he hsame ⊢
    obtain ⟨error | db, m⟩ := answer
    · cases hsame
      rfl
    · cases he
  · have hopened := hopens backends hbase
    rw [tryOpen]
    generalize open? t.machine o backends = answer at he hopened ⊢
    obtain ⟨error | db, m⟩ := answer
    · cases he
      cases hopened with
      | late _ _ _ hfree hlocked hdir => exact free_of_isDir (hlocked ▸ hfree) hdir
    · cases he
  · obtain ⟨hi, rfl⟩ := List.getElem?_eq_some_iff.1 hdb
    have hcloses := closed_act h hi hopen
    have hone : t.machine.locked.count (Path.databaseDir base) - 1 = 0 := by
      rw [h.locked]
      exact Nat.sub_eq_zero_of_le h.single
    rw [act, hdb]
    refine free_of_isDir ?_ (hcloses.disk.isDir (h.there ?_).1)
    · rw [hcloses.locked, ← List.count_eq_zero, List.count_erase_self, hone]
    · exact List.ne_nil_of_length_pos (Nat.zero_lt_of_lt hi)

/-- Opening is exclusive, whoever opens, closes, works and sends commands in whatever order, as
long as nobody else has locked the directory. -/
theorem exclusive_runs [Backend σ] {base : String} {m : Machine}
    (hfree : Path.databaseDir base ∉ m.locked) {t : Tenancy σ}
    (hruns : Runs base ⟨m, []⟩ t) : t.Exclusive base :=
  exclusive_of_sound (sound_runs (sound_nil hfree) hruns)

/-- A backend that never reports keeps a new database from being complete. It is closed then, and
opened by the next; as long as that is open others are refused. -/
theorem exclusive_runs_scripted :
    let creating : Options := {
      baseDir := "/b"
      create := true
      pollInterval := 10
      saveDebounce := 3000
      waitForCreation := true
      creationTimeout := some 20
      serverUrl := none
      radioBrowserServer := "de1.api.radio-browser.info"
      objectCacheSize := 16 }
    let opening := { creating with create := false }
    let silent : Scripted :=
      { script := { name := "silent", capabilities := { creationDone := true }, silent := true } }
    let dir := Path.databaseDir "/b"
    let before : Tenancy Scripted := ⟨{}, []⟩
    let late := before.tryOpen creating [silent]
    let held := late.tryOpen opening [silent]
    dir ∉ before.machine.locked ∧
      (open? before.machine opening [silent]).1 = .error (.notFound dir) ∧
      late.Exclusive "/b" ∧ late.live = 0 ∧ Free Scripted "/b" late.machine ∧
      held.Exclusive "/b" ∧ held.live = 1 ∧
      (open? held.machine creating [silent]).1 = .error (.alreadyExists dir) ∧
      (open? held.machine opening [silent]).1 = .error (.locked dir) ∧
      held.tryOpen opening [silent] = held ∧
      Free Scripted "/b" (held.act 0 Database.close).machine := by
  intro creating opening silent dir before late held
  have hfree : dir ∉ before.machine.locked := List.not_mem_nil
  have hlate : Runs "/b" before late := .single (.opens before [silent] rfl)
  have hheld : Runs "/b" before held := hlate.tail (.opens late [silent] rfl)
  have hbefore := exclusive_runs hfree (.refl : Runs "/b" before before)
  have hafter := exclusive_runs hfree hheld
  have hruns : (match (open? before.machine creating [silent]).1 with
        | .error e => decide (e = .creationTimeout 20)
        | .ok _ => false) = true ∧
      late.live = 0 ∧ held.live = 1 ∧ held.instances[0]?.any (·.isOpen) = true ∧
      held.machine.disk.isDir dir = true := by decide +kernel
  obtain ⟨htimeout, hnone, hone, hfirst, hthere⟩ := hruns
  obtain ⟨db, hdb, hisOpen⟩ := (Option.any_eq_true ..).1 hfirst
  have hlocked := (hafter.locked opening [silent] rfl rfl hthere).2
    ⟨db, List.mem_of_getElem? hdb, hisOpen⟩
  refine ⟨hfree, (hbefore.notFound opening [silent] rfl rfl).2 (by decide +kernel),
    exclusive_runs hfree hlate, hnone, ?_, hafter, hone,
    (hafter.alreadyExists creating [silent] rfl rfl).2 (Disk.isPresent_of_isDir hthere), hlocked,
    hafter.refused opening [silent] _ rfl hlocked trivial, hafter.closed 0 db hdb hisOpen⟩
  refine hbefore.late creating [silent] 20 rfl ?_
  split at htimeout
  · rename_i e he
    rw [he, of_decide_eq_true htimeout]
  · cases htimeout

end Tenancy

end Database

end Mediatheque
