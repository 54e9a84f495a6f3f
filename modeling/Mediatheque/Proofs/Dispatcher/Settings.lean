import Mediatheque.Proofs.Dispatcher.Requests
import Mediatheque.Proofs.Export.Settings
import Mediatheque.Proofs.List

/-!
# The settings that the dispatcher keeps

Values of settings come from two sides: a client sets one of the library or of a backend, and a
backend reports that one of its own has changed. The dispatcher accepts a value if the context
has declared the setting, and from a client only if the library or a backend has that context
(`accepted?`). An accepted value is stored, and applied if it is one of the library's; nothing
else that the dispatcher handles has to do with settings (`handle_cases`).
-/

namespace Mediatheque

namespace Dispatcher

/-! ## Frames -/

/-- The names of the backends that commands are handed to. -/
def names (d : Dispatcher) : List String := d.routes.map (·.name)

/-- A file that is read as before when caches are cleared. -/
def Spared (caches : List DirectoryCache) (path : String) : Prop :=
  ∀ cache ∈ caches, ∀ (disk : Disk) text, disk.read path = .ok text →
    (cache.purge disk).read path = .ok text

/-- The dispatcher `d'` has the settings of `d`, and of the disk it has cleared caches alone. -/
structure KeepsSettings (d d' : Dispatcher) : Prop where
  persister : d'.persister = d.persister
  exports : d'.exports.settings = d.exports.settings
  names : d'.names = d.names
  caches : d'.caches = d.caches
  files : ∀ path text, Spared d.caches path → d.disk.read path = .ok text →
    d'.disk.read path = .ok text

namespace KeepsSettings

/-- A change of what has nothing to do with settings. -/
theorem of_eq {d d' : Dispatcher} (hpersister : d'.persister = d.persister)
    (hexports : d'.exports = d.exports) (hroutes : d'.routes = d.routes)
    (hcaches : d'.caches = d.caches) (hdisk : d'.disk = d.disk) : KeepsSettings d d' where
  persister := hpersister
  exports := by rw [hexports]
  names := by rw [Dispatcher.names, hroutes, Dispatcher.names]
  caches := hcaches
  files _ _ _ h := by rw [hdisk, h]

theorem refl (d : Dispatcher) : KeepsSettings d d := .of_eq rfl rfl rfl rfl rfl

theorem trans {a b c : Dispatcher} (hab : KeepsSettings a b) (hbc : KeepsSettings b c) :
    KeepsSettings a c where
  persister := hbc.persister.trans hab.persister
  exports := hbc.exports.trans hab.exports
  names := hbc.names.trans hab.names
  caches := hbc.caches.trans hab.caches
  files path text hspared h := by
    refine hbc.files path text ?_ (hab.files path text hspared h)
    rw [hab.caches]
    exact hspared

end KeepsSettings

/-- Caches are cleared one after the other. -/
theorem read_purgeAll {caches : List DirectoryCache} {path text : String} {disk : Disk}
    (hspared : Spared caches path) (h : disk.read path = .ok text) :
    (caches.foldl (fun disk cache => cache.purge disk) disk).read path = .ok text := by
  induction caches generalizing disk with
  | nil => exact h
  | cons cache rest ih =>
    obtain ⟨hcache, hrest⟩ := List.forall_mem_cons.1 hspared
    exact ih hrest (hcache disk text h)

/-- What has nothing to do with settings. -/
def Effect.SparesSettings : Effect → Prop
  | .store | .apply => False
  | _ => True

theorem Edits.keepsSettings {d d' : Dispatcher} (h : Edits Effect.SparesSettings d d') :
    KeepsSettings d d' := by
  refine h.all .refl .trans fun he hedit => ?_
  cases hedit with
  | forward c i => exact ⟨rfl, rfl, map_modify_of_eq fun r _ => rfl, rfl, fun _ _ _ h => h⟩
  | broadcast c takesPart =>
    refine ⟨rfl, rfl, ?_, rfl, fun _ _ _ h => h⟩
    rw [broadcast, names, List.map_map]
    refine List.map_congr_left fun r _ => ?_
    rw [Function.comp_apply]
    split <;> rfl
  | exported path => exact ⟨rfl, ExportTable.settings_add _ path, rfl, rfl, fun _ _ _ h => h⟩
  | unexported path => exact ⟨rfl, rfl, rfl, rfl, fun _ _ _ h => h⟩
  | purge => exact ⟨rfl, rfl, rfl, rfl, fun _ _ hspared h => read_purgeAll hspared h⟩
  | store | apply => cases he
  | _ => exact .of_eq rfl rfl rfl rfl rfl

theorem keepsSettings_publish (d : Dispatcher) (e : Event) : KeepsSettings d (d.publish e) :=
  .of_eq rfl rfl rfl rfl rfl

theorem keepsSettings_startRescan (d : Dispatcher) (token : Token) :
    KeepsSettings d (d.startRescan token).2 := by
  refine ((edits_startRescan d token).mono fun e he => ?_).keepsSettings
  cases he <;> trivial

/-! ## Inputs that are not about settings -/

/-- The setting that an input is about, and its value. -/
def Input.setting? : Input → Option (String × String × ParameterValue)
  | .command _ (.setParameter context name value) => some (context, name, value)
  | .report _ ⟨backend, .parameterChanged name value⟩ => some (backend, name, value)
  | _ => none

theorem keepsSettings_handle {d d' : Dispatcher} {i : Input} (hi : i.setting? = none)
    (h : d.handle i = .ok d') : KeepsSettings d d' := by
  refine ((edits_handle h).mono fun e hmay => ?_).keepsSettings
  cases i with
  | command now c =>
    cases hmay with
    | rescan _ he => cases he <;> trivial
    | store | apply => cases hi
    | _ => trivial
  | report now m =>
    obtain ⟨backend, event⟩ := m
    cases hmay with
    | store => cases hi
    | _ => trivial

/-! ## Values of settings -/

/-- Whether the dispatcher accepts a value for a setting. -/
def accepts (d : Dispatcher) : Input → Bool
  | .command _ (.setParameter context name _) =>
    d.persister.declares context name &&
      (context = generalContext || (d.routeIndex? context).isSome)
  | .report _ ⟨backend, .parameterChanged name _⟩ => d.persister.declares backend name
  | _ => false

/-- The setting that an input is about, if the dispatcher accepts its value. -/
def accepted? (d : Dispatcher) (i : Input) : Option (String × String × ParameterValue) :=
  if d.accepts i then i.setting? else none

/-- The dispatcher with a value stored, before it is applied or handed on. -/
def withStored (d : Dispatcher) (context name : String) (value : ParameterValue) (now : Nat) :
    Dispatcher :=
  { d with persister := d.persister.stored context name value now }

/-- The dispatcher with a value of the library's own stored and applied. -/
def withApplied (d : Dispatcher) (name : String) (value : ParameterValue) (now : Nat) :
    Dispatcher :=
  { d.withStored generalContext name value now with
    exports := (d.exports.setParameter name value).1 }

/-- A value for the library itself is refused, or stored and applied. -/
theorem setOwnParameter_cases (d : Dispatcher) (now : Nat) (name : String)
    (value : ParameterValue) :
    (¬ d.persister.declares generalContext name ∧ (d.setOwnParameter now name value).2 = d) ∨
      (d.persister.declares generalContext name ∧
        KeepsSettings (d.withApplied name value now) (d.setOwnParameter now name value).2) := by
  rw [setOwnParameter]
  rcases d.persister.set_cases generalContext name value now with ⟨hd, hs⟩ | ⟨hd, hs⟩
  · refine .inr ⟨hd, ?_⟩
    rw [hs]
    dsimp only
    split
    · rename_i hname
      subst hname
      -- The table has no setting of the name of the action.
      have hstored : KeepsSettings (d.withApplied rescanParameter value now)
          (d.withStored generalContext rescanParameter value now).takeToken.1 :=
        .of_eq rfl rfl rfl rfl rfl
      exact hstored.trans (keepsSettings_startRescan _ _)
    · exact .refl _
  · refine .inl ⟨hd, ?_⟩
    rw [hs]

/-- A value for a backend is refused, or stored and handed on. -/
theorem setParameter_cases (d : Dispatcher) {context : String} (hc : context ≠ generalContext)
    (now : Nat) (name : String) (value : ParameterValue) :
    (¬ (d.persister.declares context name ∧ (d.routeIndex? context).isSome) ∧
        (d.setParameter now context name value).2 = d) ∨
      (d.persister.declares context name ∧ (d.routeIndex? context).isSome ∧
        KeepsSettings (d.withStored context name value now)
          (d.setParameter now context name value).2) := by
  rw [setParameter, if_neg hc]
  cases hroute : d.routeIndex? context with
  | none => exact .inl ⟨fun h => Bool.false_ne_true h.2, rfl⟩
  | some i =>
    rcases d.persister.set_cases context name value now with ⟨hd, hs⟩ | ⟨hd, hs⟩
    · have hedits : Edits Effect.SparesSettings (d.withStored context name value now)
          ((d.withStored context name value now).forward context
            (.setParameter context name value)).2 :=
        edits_forward _ context trivial
      refine .inr ⟨hd, rfl, ?_⟩
      rw [hs]
      exact hedits.keepsSettings
    · refine .inl ⟨fun h => hd h.1, ?_⟩
      rw [hs]
      rfl

/-- A value that a backend reports is stored if it has declared the setting. -/
theorem noteParameter_cases (d : Dispatcher) (now : Nat) (backend name : String)
    (value : ParameterValue) :
    (¬ d.persister.declares backend name ∧
        d.noteParameter now backend name value =
          d.publish (.parameterChanged backend name value)) ∨
      (d.persister.declares backend name ∧
        KeepsSettings (d.withStored backend name value now)
          (d.noteParameter now backend name value)) := by
  rw [noteParameter]
  rcases d.persister.set_cases backend name value now with ⟨hd, hs⟩ | ⟨hd, hs⟩
  · refine .inr ⟨hd, ?_⟩
    rw [hs]
    exact keepsSettings_publish _ _
  · refine .inl ⟨hd, ?_⟩
    rw [hs]

/-- What an input does to the settings: nothing, or a value for the library is stored and
applied, or another value is stored. -/
theorem handle_cases {d d' : Dispatcher} {i : Input} (h : d.handle i = .ok d') :
    (d.accepted? i = none ∧ KeepsSettings d d' ∧ (i.setting?.isSome → d'.disk = d.disk)) ∨
      (∃ now name value, d.accepted? i = some (generalContext, name, value) ∧
        KeepsSettings (d.withApplied name value now) d') ∨
      ∃ now context name value, d.accepted? i = some (context, name, value) ∧
        (context = generalContext →
          i = .report now ⟨generalContext, .parameterChanged name value⟩) ∧
        KeepsSettings (d.withStored context name value now) d' := by
  cases i with
  | command now c =>
    cases c with
    | setParameter context name value =>
      obtain rfl : (d.setParameter now context name value).2 = d' := Except.ok.inj h
      by_cases hc : context = generalContext
      · subst hc
        rw [setParameter, if_pos rfl]
        rcases d.setOwnParameter_cases now name value with ⟨hd, hsame⟩ | ⟨hd, hkeeps⟩
        · rw [hsame]
          exact .inl ⟨by simp [accepted?, accepts, hd], .refl d, fun _ => rfl⟩
        · exact .inr (.inl ⟨now, name, value, by simp [accepted?, accepts, hd]; rfl, hkeeps⟩)
      · rcases d.setParameter_cases hc now name value with ⟨hd, hsame⟩ | ⟨hd, hroute, hkeeps⟩
        · rw [hsame]
          exact .inl ⟨by simp [accepted?, accepts, hc, hd], .refl d, fun _ => rfl⟩
        · refine .inr (.inr ⟨now, context, name, value, ?_, fun hg => absurd hg hc, hkeeps⟩)
          simp [accepted?, accepts, hd, hroute, Input.setting?]
    | _ =>
      exact .inl ⟨rfl, keepsSettings_handle rfl h, fun hs => by cases hs⟩
  | report now m =>
    obtain ⟨backend, event⟩ := m
    have hreport : d.handleReport now ⟨backend, event⟩ = .ok d' := h
    cases event with
    | parameterChanged name value =>
      cases hreport
      rcases d.noteParameter_cases now backend name value with ⟨hd, hsame⟩ | ⟨hd, hkeeps⟩
      · rw [hsame]
        exact .inl ⟨by simp [accepted?, accepts, hd], keepsSettings_publish d _, fun _ => rfl⟩
      · refine .inr (.inr ⟨now, backend, name, value, ?_, fun hg => by rw [hg], hkeeps⟩)
        simp [accepted?, accepts, hd, Input.setting?]
    | _ => exact .inl ⟨rfl, keepsSettings_handle rfl h, fun hs => by cases hs⟩

end Dispatcher

end Mediatheque
