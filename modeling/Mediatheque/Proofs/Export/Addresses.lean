import Mediatheque.Export.Rewriting
import Mediatheque.Proofs.List

/-!
# When an object has its addresses

Addresses for clients are appended to the sources of an object one by one, each unless its role
has a source with that URI. So the lists of the roles only grow (`SourceTable.Extends`), and in
the end they have all that is due (`has_withExternals`). An object is left as it is exactly if it
had all its addresses before, and its parts theirs (`Addressed`, `addExternalUris_eq_self_iff`).
-/

namespace Mediatheque

namespace SourceTable

variable {exports : ExportTable} {canonical : Canonical} {stations : Option StationDirectory}

/-- A role has a source with a URI. -/
def Has (t : SourceTable) (role : UriRole) (uri : String) : Prop :=
  ∃ source ∈ t.sources role, source.uri = uri

/-- The lists of the roles go on from those of another table. -/
def Extends (t t' : SourceTable) : Prop := ∀ role, t.sources role <+: t'.sources role

namespace Extends

theorem refl (t : SourceTable) : t.Extends t := fun _ => List.prefix_rfl

theorem trans {a b c : SourceTable} (hab : a.Extends b) (hbc : b.Extends c) : a.Extends c :=
  fun role => (hab role).trans (hbc role)

theorem has {t t' : SourceTable} (h : t.Extends t') {role : UriRole} {uri : String} :
    t.Has role uri → t'.Has role uri := by
  rintro ⟨source, hs, hu⟩
  exact ⟨source, (h role).subset hs, hu⟩

end Extends

/-! ## One address -/

theorem sources_set (t : SourceTable) (l : List Source) (r s : UriRole) :
    (t.set l r).sources s = if s = r then l else t.sources s := by
  rw [sources, get?_set]
  split <;> rfl

theorem extends_addUnique (t : SourceTable) (role : UriRole) (source : Source) :
    t.Extends (t.addUnique role source) := by
  intro r
  rw [addUnique]
  split
  · exact List.prefix_rfl
  · rw [add, sources_set]
    split
    · rename_i hr
      rw [hr]
      exact List.prefix_append _ _
    · exact List.prefix_rfl

theorem addUnique_eq_self {t : SourceTable} {role : UriRole} {source : Source}
    (h : t.Has role source.uri) : t.addUnique role source = t := by
  obtain ⟨s, hs, hu⟩ := h
  exact if_pos (List.any_eq_true.2 ⟨s, hs, decide_eq_true hu⟩)

theorem has_addUnique (t : SourceTable) (role : UriRole) (source : Source) :
    (t.addUnique role source).Has role source.uri := by
  rw [addUnique]
  split
  · rename_i h
    obtain ⟨s, hs, hu⟩ := List.any_eq_true.1 h
    exact ⟨s, hs, of_decide_eq_true hu⟩
  · refine ⟨source, ?_, rfl⟩
    rw [add, sources_set, if_pos rfl]
    exact List.mem_append_right _ (List.mem_singleton.2 rfl)

/-! ## All addresses -/

/-- The addresses that are due for a list of sources of a role: those of the exported files
among them. -/
def Due (exports : ExportTable) (canonical : Canonical) (sources : List Source) (uri : String) :
    Prop :=
  ∃ source ∈ sources, source.isLocal ∧ exports.localToExternal? canonical source.uri = some uri

/-- The playlist that is due for the main sources: that of the station which the first names. -/
def playlist? (t : SourceTable) (stations : Option StationDirectory) : Option String := do
  let d ← stations
  let first ← (t.sources .src).head?
  if StationDirectory.handles first.uri then d.resolve? first.uri else none

/-- No address that is due for a table is missing. -/
structure Addressed (exports : ExportTable) (canonical : Canonical)
    (stations : Option StationDirectory) (t : SourceTable) : Prop where
  files : ∀ role uri, Due exports canonical (t.sources role) uri → t.Has role uri
  playlist : ∀ uri, t.playlist? stations = some uri → t.Has .src uri

/-! ### Tables grow -/

section

variable {α : Type} {f : SourceTable → α → SourceTable}
  (hf : ∀ (t : SourceTable) (a : α), t.Extends (f t a))
include hf

theorem extends_foldl (l : List α) (t : SourceTable) : t.Extends (l.foldl f t) := by
  induction l generalizing t with
  | nil => exact .refl t
  | cons a l ih => exact (hf t a).trans (ih _)

/-- What one step adds to every table that has grown so far is there in the end. -/
theorem has_foldl {l : List α} {a : α} (ha : a ∈ l) {t : SourceTable} {role : UriRole}
    {uri : String} (h : ∀ t', t.Extends t' → (f t' a).Has role uri) :
    (l.foldl f t).Has role uri := by
  induction l generalizing t with
  | nil => cases ha
  | cons b l ih =>
    rcases List.mem_cons.1 ha with rfl | ha
    · exact (extends_foldl hf l _).has (h t (.refl t))
    · exact ih ha fun t' ht' => h t' ((hf t b).trans ht')

end

theorem addStation_eq (t : SourceTable) (stations : Option StationDirectory) :
    t.addStation stations = match t.playlist? stations with
      | some url => t.addUnique .src { uri := url, mimetype := some playlistMimetype }
      | none => t := by
  rw [playlist?]
  unfold addStation
  cases stations with
  | none => rfl
  | some d => cases t.sources .src <;> rfl

theorem extends_addStation (t : SourceTable) : t.Extends (t.addStation stations) := by
  rw [addStation_eq]
  split
  · exact extends_addUnique t _ _
  · exact .refl t

/-- Adds the address of a file, if it is exported. -/
def addExternal (exports : ExportTable) (canonical : Canonical) (role : UriRole)
    (t : SourceTable) (file : Source) : SourceTable :=
  match exports.localToExternal? canonical file.uri with
  | some uri => t.addUnique role { uri := uri, mimetype := file.mimetype }
  | none => t

theorem addExternals_eq (t : SourceTable) (role : UriRole) :
    t.addExternals exports canonical role =
      ((t.sources role).filter Source.isLocal).foldl (addExternal exports canonical role) t :=
  rfl

theorem extends_addExternal (role : UriRole) (t : SourceTable) (file : Source) :
    t.Extends (addExternal exports canonical role t file) := by
  rw [addExternal]
  split
  · exact extends_addUnique t role _
  · exact .refl t

theorem extends_addExternals (t : SourceTable) (role : UriRole) :
    t.Extends (t.addExternals exports canonical role) :=
  extends_foldl (extends_addExternal role) _ t

theorem has_addExternals {t : SourceTable} {role : UriRole} {uri : String}
    (h : Due exports canonical (t.sources role) uri) :
    (t.addExternals exports canonical role).Has role uri := by
  obtain ⟨file, hfile, hlocal, huri⟩ := h
  refine has_foldl (extends_addExternal role) (List.mem_filter.2 ⟨hfile, hlocal⟩) fun t' _ => ?_
  rw [addExternal, huri]
  exact has_addUnique t' role _

variable (exports canonical stations) in
/-- What is due for a table is there in the end. -/
theorem has_withExternals (t : SourceTable) :
    (∀ role uri, Due exports canonical (t.sources role) uri →
        (t.withExternals exports canonical stations).Has role uri) ∧
      ∀ uri, t.playlist? stations = some uri →
        (t.withExternals exports canonical stations).Has .src uri := by
  constructor
  · rintro role uri ⟨file, hfile, hlocal, huri⟩
    have hall : role ∈ UriRole.all := by cases role <;> decide
    refine has_foldl extends_addExternals hall fun t' ht' => has_addExternals ?_
    exact ⟨file, ((extends_addStation t).trans ht' role).subset hfile, hlocal, huri⟩
  · intro uri huri
    refine (extends_foldl extends_addExternals _ _).has ?_
    rw [addStation_eq, huri]
    exact has_addUnique t .src _

/-- A table stays as it is if it has all addresses that are due for it, and only then. -/
theorem withExternals_eq_self_iff {t : SourceTable} :
    t.withExternals exports canonical stations = t ↔ t.Addressed exports canonical stations := by
  constructor
  · intro h
    obtain ⟨hfiles, hplaylist⟩ := has_withExternals exports canonical stations t
    rw [h] at hfiles hplaylist
    exact ⟨hfiles, hplaylist⟩
  · intro h
    have hstation : t.addStation stations = t := by
      rw [addStation_eq]
      split
      · rename_i url hurl
        exact addUnique_eq_self (h.playlist url hurl)
      · rfl
    rw [withExternals, hstation]
    refine foldl_eq_self fun role _ => ?_
    rw [addExternals_eq]
    refine foldl_eq_self fun file hfile => ?_
    obtain ⟨hmem, hlocal⟩ := List.mem_filter.1 hfile
    rw [addExternal]
    split
    · rename_i uri huri
      exact addUnique_eq_self (h.files role uri ⟨file, hmem, hlocal, huri⟩)
    · rfl

end SourceTable

namespace Container

variable {exports : ExportTable} {canonical : Canonical} {stations : Option StationDirectory}

/-- Neither an object nor one of its parts, at any depth, misses an address that is due. -/
inductive Addressed (exports : ExportTable) (canonical : Canonical)
    (stations : Option StationDirectory) : Container → Prop where
  | mk {c : Container} (hsources : c.sources.Addressed exports canonical stations)
      (hparts : ∀ p ∈ c.parts, p.Addressed exports canonical stations) :
      c.Addressed exports canonical stations

theorem addressed_iff {c : Container} :
    c.Addressed exports canonical stations ↔
      c.sources.Addressed exports canonical stations ∧
        ∀ p ∈ c.parts, p.Addressed exports canonical stations :=
  ⟨fun ⟨hsources, hparts⟩ => ⟨hsources, hparts⟩, fun ⟨hsources, hparts⟩ => ⟨hsources, hparts⟩⟩

/-- An object stays as it is if it and its parts have all addresses that are due for them, and
only then. -/
theorem addExternalUris_eq_self_iff {c : Container} :
    c.addExternalUris exports canonical stations = c ↔
      c.Addressed exports canonical stations := by
  have hself : c.addExternalUris exports canonical stations = c ↔
      c.sources.withExternals exports canonical stations = c.sources ∧
        ∀ p ∈ c.parts, p.addExternalUris exports canonical stations = p := by
    rw [addExternalUris, ← map_eq_self_iff]
    cases c
    simp
  rw [hself, addressed_iff, SourceTable.withExternals_eq_self_iff]
  refine and_congr_right fun _ => forall₂_congr fun p hp => ?_
  exact addExternalUris_eq_self_iff
termination_by c
decreasing_by exact sizeOf_lt_of_mem_parts hp

end Container

end Mediatheque
