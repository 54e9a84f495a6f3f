import Mediatheque.Dispatcher.Basic
import Mediatheque.Proofs.Registry.Persister

/-!
# The settings of the export table

The export table takes its settings from the registry (`Follows`): it starts with the values
that the library's own context starts with (`follows_startup`), and every value that is stored
for that context is applied as well (`follows_setParameter`).
-/

namespace Mediatheque

namespace ExportTable

/-- The settings of the table are those of the registry; a setting without a value is off, or
no directories. -/
structure Follows (t : ExportTable) (r : Registry) : Prop where
  enabled : t.enabled =
    ((r.get? generalContext "export_media_dirs").bind (·.asBool?)).getD false
  allowed : t.allowed = ((r.get? generalContext "export_dirs").bind (·.asList?)).getD []
  restricted : t.restricted = ((r.get? generalContext "restrict_dirs").bind (·.asList?)).getD []

/-- The settings of a table, without its directories and its address. -/
def settings (t : ExportTable) : Bool × List String × List String :=
  (t.enabled, t.allowed, t.restricted)

theorem settings_add (t : ExportTable) (path : String) : (t.add path).settings = t.settings := by
  rw [add]
  split <;> rfl

theorem Follows.congr {t u : ExportTable} {r : Registry} (h : t.Follows r)
    (hu : u.settings = t.settings) : u.Follows r := by
  obtain ⟨henabled, hlists⟩ := Prod.mk.inj hu
  obtain ⟨hallowed, hrestricted⟩ := Prod.mk.inj hlists
  exact ⟨henabled.trans h.enabled, hallowed.trans h.allowed, hrestricted.trans h.restricted⟩

theorem settings_eq_of_follows {t u : ExportTable} {r s : Registry} (ht : t.Follows r)
    (hu : u.Follows s) (h : ∀ name, s.get? generalContext name = r.get? generalContext name) :
    u.settings = t.settings := by
  rw [settings, hu.enabled, hu.allowed, hu.restricted, h, h, h, ← ht.enabled, ← ht.allowed,
    ← ht.restricted]
  rfl

/-- The table has no settings of other contexts. -/
theorem follows_set_of_ne {t : ExportTable} {r : Registry} (h : t.Follows r) {context : String}
    (hcontext : context ≠ generalContext) (name : String) (value : ParameterValue) :
    t.Follows (r.set context name value) := by
  have hget (n : String) :
      (r.set context name value).get? generalContext n = r.get? generalContext n := by
    rw [Registry.get?_set, if_neg fun hc => hcontext hc.1.symm]
  constructor
  · rw [hget]
    exact h.enabled
  · rw [hget]
    exact h.allowed
  · rw [hget]
    exact h.restricted

/-- A value that is stored for the library is applied. -/
theorem follows_setParameter {t : ExportTable} {r : Registry} (h : t.Follows r) (name : String)
    (value : ParameterValue) :
    (t.setParameter name value).1.Follows (r.set generalContext name value) := by
  unfold setParameter
  split
  case h_1 =>
    constructor <;> simp [Registry.get?_set, h.allowed, h.restricted]
  case h_2 =>
    constructor <;> simp [Registry.get?_set, h.enabled, h.restricted]
  case h_3 =>
    constructor <;> simp [Registry.get?_set, h.enabled, h.allowed]
  case h_4 he ha hr =>
    constructor
    · simp [Registry.get?_set, Ne.symm he, h.enabled]
    · simp [Registry.get?_set, Ne.symm ha, h.allowed]
    · simp [Registry.get?_set, Ne.symm hr, h.restricted]

/-- What the library's own context starts with: one of its settings has a default value. -/
theorem startupValues_general {p : Persister}
    (hschema : p.schema? generalContext = some generalParameters) :
    p.startupValues generalContext =
      ("export_media_dirs",
          (p.registry.get? generalContext "export_media_dirs").getD (.bool false)) ::
        ((p.registry.get? generalContext "export_dirs").map ("export_dirs", ·)).toList ++
          ((p.registry.get? generalContext "restrict_dirs").map ("restrict_dirs", ·)).toList := by
  rw [Persister.startupValues, hschema]
  simp only [Option.getD_some, generalParameters, parameters, List.filterMap_cons,
    List.filterMap_nil, reduceCtorEq, reduceIte, Persister.get?]
  cases p.registry.get? generalContext "export_media_dirs" <;>
    cases p.registry.get? generalContext "export_dirs" <;>
      cases p.registry.get? generalContext "restrict_dirs" <;> rfl

/-- A table that is without settings follows the registry once it has the values that the
library's context starts with. -/
theorem follows_startup {p : Persister}
    (hschema : p.schema? generalContext = some generalParameters) {t : ExportTable}
    (ht : t.settings = empty.settings) :
    ((p.startupValues generalContext).foldl
      (fun t (name, value) => (t.setParameter name value).1) t).Follows p.registry := by
  have hallowed : t.allowed = [] := congrArg (·.2.1) ht
  have hrestricted : t.restricted = [] := congrArg (·.2.2) ht
  rw [startupValues_general hschema]
  cases henabled : p.registry.get? generalContext "export_media_dirs" <;>
    cases hdirs : p.registry.get? generalContext "export_dirs" <;>
      cases hrestrict : p.registry.get? generalContext "restrict_dirs" <;>
        constructor <;>
          simp [setParameter, ParameterValue.asBool?, henabled, hdirs, hrestrict, hallowed,
            hrestricted]

end ExportTable

end Mediatheque
