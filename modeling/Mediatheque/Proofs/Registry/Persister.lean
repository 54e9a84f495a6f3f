import Mediatheque.Proofs.Disk.Files
import Mediatheque.Registry.Persister

/-!
# The settings file of a persister

Whenever nothing is pending, the settings file holds the registry (`Saved`): a new value makes
the write pending, and only a write that succeeds takes that back (`flush_cases`). So the file
is read as the registry then, provided that what is written of the registry can be read back
(`load_of_saved`).
-/

namespace Mediatheque

namespace Registry

/-- What is written of a registry is read back as the registry. -/
def ReadsBack (r : Registry) : Prop := ofText? r.text = some r

instance (r : Registry) : Decidable r.ReadsBack := inferInstanceAs (Decidable (_ = _))

theorem section?_set (r : Registry) (context name : String) (value : ParameterValue)
    (c : String) :
    (r.set context name value).section? c =
      if c = context then some (((r.section? context).getD .empty).insert name value)
      else r.section? c :=
  Dictionary.get?_insert ..

/-- A new value is found under its context and name, and every other value as before. -/
theorem get?_set (r : Registry) (context name : String) (value : ParameterValue)
    (c n : String) :
    (r.set context name value).get? c n =
      if c = context ∧ n = name then some value else r.get? c n := by
  rw [get?, section?_set, get?]
  by_cases hc : c = context
  · subst hc
    rw [if_pos rfl, Option.bind_eq_bind, Option.bind_some, Dictionary.get?_insert]
    by_cases hn : n = name
    · rw [if_pos hn, if_pos ⟨rfl, hn⟩]
    · rw [if_neg hn, if_neg fun h => hn h.2]
      cases r.section? c <;> rfl
  · rw [if_neg hc, if_neg fun h => hc h.1]

/-- A registry is loaded from a file that can be read and holds it. -/
theorem load_eq_ok_iff {path : String} {disk : Disk} {r : Registry} :
    load path disk = .ok r ↔ ∃ text, disk.read path = .ok text ∧ ofText? text = some r := by
  rw [load]
  cases hread : disk.read path with
  | error e => simp
  | ok text =>
    cases hr : ofText? text <;> simp [hr]

theorem load_of_read {path text : String} {disk : Disk} {r : Registry}
    (hread : disk.read path = .ok text) (hr : ofText? text = some r) :
    load path disk = .ok r :=
  load_eq_ok_iff.2 ⟨text, hread, hr⟩

/-- A settings file that is written holds the text of the registry. -/
theorem read_of_save {r : Registry} {path : String} {disk disk' : Disk}
    (h : r.save path disk = (.ok (), disk')) : disk'.read path = .ok r.text := by
  rw [save] at h
  split at h
  · rename_i hwrite
    cases h
    exact Disk.read_write hwrite
  · cases h

end Registry

namespace Persister

/-! ## Writes -/

/-- A flush does nothing, or fails and leaves everything pending, or writes the file. -/
theorem flush_cases (p : Persister) (disk : Disk) :
    (p.deadline = none ∧ p.flush disk = (.ok false, p, disk)) ∨
      (p.deadline.isSome ∧ ∃ error disk', p.flush disk = (.error error, p, disk')) ∨
      (p.deadline.isSome ∧ ∃ disk', p.flush disk = (.ok true, { p with deadline := none }, disk') ∧
        disk'.read p.path = .ok p.registry.text) := by
  rw [flush]
  cases hd : p.deadline with
  | none => exact .inl ⟨rfl, rfl⟩
  | some deadline =>
    rcases hs : p.registry.save p.path disk with ⟨error | ⟨⟩, disk'⟩
    · exact .inr (.inl ⟨rfl, error, disk', rfl⟩)
    · exact .inr (.inr ⟨rfl, disk', rfl, Registry.read_of_save hs⟩)

/-- A poll is a flush once the deadline is over, and nothing before. -/
theorem poll_eq (p : Persister) (now : Nat) (disk : Disk) :
    p.poll now disk =
      if p.deadline.any (· ≤ now) then p.flush disk else (.ok false, p, disk) := by
  rw [poll]
  cases p.deadline with
  | none => rfl
  | some deadline => simp only [Option.any_some, decide_eq_true_eq]

/-- A write changes no more than when the next is due. -/
theorem eq_of_flush {p q : Persister} {disk disk' : Disk} {r : Except DatabaseError Bool}
    (h : p.flush disk = (r, q, disk')) : ∃ deadline, q = { p with deadline := deadline } := by
  rcases p.flush_cases disk with ⟨-, hf⟩ | ⟨-, error, written, hf⟩ | ⟨-, written, hf, -⟩
  · rw [hf] at h
    cases h
    exact ⟨p.deadline, rfl⟩
  · rw [hf] at h
    cases h
    exact ⟨p.deadline, rfl⟩
  · rw [hf] at h
    cases h
    exact ⟨none, rfl⟩

theorem eq_of_poll {p q : Persister} {now : Nat} {disk disk' : Disk}
    {r : Except DatabaseError Bool} (h : p.poll now disk = (r, q, disk')) :
    ∃ deadline, q = { p with deadline := deadline } := by
  rw [poll_eq] at h
  split at h
  · exact eq_of_flush h
  · cases h
    exact ⟨p.deadline, rfl⟩

/-! ## New values -/

/-- The persister with a value stored, and its write put off. -/
def stored (p : Persister) (context name : String) (value : ParameterValue) (now : Nat) :
    Persister :=
  { p with
    registry := p.registry.set context name value
    deadline := some (now + p.debounce) }

theorem get?_stored (p : Persister) (context name : String) (value : ParameterValue) (now : Nat)
    (c n : String) :
    (p.stored context name value now).get? c n =
      if c = context ∧ n = name then some value else p.get? c n :=
  Registry.get?_set ..

/-- A new value comes before those that were stored. -/
theorem get?_stored_eq_or (p : Persister) (context name : String) (value : ParameterValue)
    (now : Nat) (c n : String) :
    (p.stored context name value now).get? c n =
      (if context = c ∧ name = n then some value else none).or (p.get? c n) := by
  rw [get?_stored]
  by_cases hsame : c = context ∧ n = name
  · rw [if_pos hsame, if_pos ⟨hsame.1.symm, hsame.2.symm⟩, Option.some_or]
  · rw [if_neg hsame, if_neg fun hs => hsame ⟨hs.1.symm, hs.2.symm⟩, Option.none_or]

/-- A value is stored if its context has declared the setting, and refused otherwise. -/
theorem set_cases (p : Persister) (context name : String) (value : ParameterValue) (now : Nat) :
    (p.declares context name ∧
        p.set context name value now = .ok (p.stored context name value now)) ∨
      (¬ p.declares context name ∧
        p.set context name value now = .error (.unknownParameter context name)) := by
  rw [set]
  split
  · exact .inl ⟨‹_›, rfl⟩
  · exact .inr ⟨‹_›, rfl⟩

/-! ## What the file holds -/

/-- The settings file holds the registry unless a write is pending: it has the text of the
registry, or is the one that the registry was read from. -/
def Saved (p : Persister) (disk : Disk) : Prop :=
  p.deadline = none → ∃ text, disk.read p.path = .ok text ∧
    (text = p.registry.text ∨ Registry.ofText? text = some p.registry)

theorem Saved.of_isSome {p : Persister} (h : p.deadline.isSome) (disk : Disk) : p.Saved disk := by
  intro hnone
  rw [hnone] at h
  cases h

/-- The same settings file, and nothing new that is not pending. -/
theorem Saved.congr {p q : Persister} {disk disk' : Disk} (h : p.Saved disk)
    (hpath : q.path = p.path) (hregistry : q.registry = p.registry)
    (hdeadline : q.deadline = p.deadline) (hread : disk'.read p.path = disk.read p.path) :
    q.Saved disk' := by
  rw [Saved, hpath, hregistry, hdeadline, hread]
  exact h

/-- A settings file that can be read is taken up as it is. -/
theorem load_of_read {path text : String} {debounce : Nat} {disk : Disk} {r : Registry}
    (hread : disk.read path = .ok text) (hr : Registry.ofText? text = some r) :
    load path debounce disk =
      (.ok { path := path, registry := r, debounce := debounce }, disk) := by
  rw [load, Registry.load_of_read hread hr]

theorem saved_load {path : String} {debounce : Nat} {disk disk' : Disk} {p : Persister}
    (h : load path debounce disk = (.ok p, disk')) : p.Saved disk' := by
  rw [load] at h
  split at h
  · rename_i registry hload
    cases h
    obtain ⟨text, hread, hr⟩ := Registry.load_eq_ok_iff.1 hload
    exact fun _ => ⟨text, hread, .inr hr⟩
  · split at h
    · rename_i hsave
      cases h
      exact fun _ => ⟨_, Registry.read_of_save hsave, .inl rfl⟩
    · cases h

theorem saved_flush {p q : Persister} {disk disk' : Disk} {r : Except DatabaseError Bool}
    (hp : p.Saved disk) (h : p.flush disk = (r, q, disk')) : q.Saved disk' := by
  rcases p.flush_cases disk with ⟨-, hf⟩ | ⟨hd, error, written, hf⟩ | ⟨-, written, hf, hread⟩
  · rw [hf] at h
    cases h
    exact hp
  · rw [hf] at h
    cases h
    exact .of_isSome hd _
  · rw [hf] at h
    cases h
    exact fun _ => ⟨_, hread, .inl rfl⟩

theorem saved_poll {p q : Persister} {now : Nat} {disk disk' : Disk}
    {r : Except DatabaseError Bool} (hp : p.Saved disk)
    (h : p.poll now disk = (r, q, disk')) : q.Saved disk' := by
  rw [poll_eq] at h
  split at h
  · exact saved_flush hp h
  · cases h
    exact hp

/-- A persister begins with the registry of the settings file, or without any value. -/
theorem eq_of_load {path : String} {debounce : Nat} {disk disk' : Disk} {p : Persister}
    (h : load path debounce disk = (.ok p, disk')) :
    p = { path := path
          registry := (Registry.load path disk).toOption.getD .empty
          debounce := debounce } := by
  rw [load] at h
  split at h
  · rename_i registry hload
    cases h
    rw [hload]
    rfl
  · rename_i error hload
    split at h
    · cases h
      rw [hload]
      rfl
    · cases h

/-- Once nothing is pending the settings file has a text of the registry. -/
theorem read_of_saved {p : Persister} {disk : Disk} (h : p.Saved disk)
    (hdeadline : p.deadline = none) (hback : p.registry.ReadsBack) :
    ∃ text, disk.read p.path = .ok text ∧ Registry.ofText? text = some p.registry := by
  obtain ⟨text, hread, rfl | hof⟩ := h hdeadline
  · exact ⟨_, hread, hback⟩
  · exact ⟨text, hread, hof⟩

theorem load_of_saved {p : Persister} {disk : Disk} (h : p.Saved disk)
    (hdeadline : p.deadline = none) (hback : p.registry.ReadsBack) :
    Registry.load p.path disk = .ok p.registry := by
  obtain ⟨text, hread, hof⟩ := read_of_saved h hdeadline hback
  exact Registry.load_of_read hread hof

/-- After a flush that succeeds the settings file has a text of the registry, provided that it
had one before if nothing was pending. -/
theorem read_of_flush {p q : Persister} {disk disk' : Disk} {written : Bool}
    (hp : written = false → p.Saved disk) (h : p.flush disk = (.ok written, q, disk'))
    (hback : p.registry.ReadsBack) :
    ∃ text, disk'.read p.path = .ok text ∧ Registry.ofText? text = some p.registry := by
  rcases p.flush_cases disk with
    ⟨hdeadline, hf⟩ | ⟨-, error, disk₁, hf⟩ | ⟨-, disk₁, hf, hread⟩
  · rw [hf] at h
    cases h
    exact read_of_saved (hp rfl) hdeadline hback
  · rw [hf] at h
    cases h
  · rw [hf] at h
    cases h
    exact ⟨_, hread, hback⟩

end Persister

end Mediatheque
