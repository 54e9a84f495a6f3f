import Mediatheque.Export.Rewriting
import Mediatheque.Media.Presentation

/-!
# Objects without internal fields

The children of an object, its stream layout and the backend that owns it are kept for the
library alone. An object may be without them by itself (`Bare`), or together with its parts at
any depth (`Clean`). Finalizing an object takes them off the object and leaves its parts as they
are (`bare_finalize`, `clean_finalize_iff`). The addresses for clients take nothing off and put
nothing on (`bare_addExternalUris_iff`, `clean_addExternalUris_iff`).
-/

namespace Mediatheque

namespace Container

/-- An object carries by itself nothing that is kept for the library alone. -/
structure Bare (c : Container) : Prop where
  children : c.children = []
  streams : c.streams = none
  backend : c.backend = none

/-- Neither an object nor one of its parts, at any depth, carries what is kept for the library
alone. -/
inductive Clean : Container → Prop where
  | mk {c : Container} (hbare : c.Bare) (hparts : ∀ p ∈ c.parts, p.Clean) : c.Clean

/-- The parts of an object are clean, whatever it carries itself. -/
def CleanParts (c : Container) : Prop := ∀ p ∈ c.parts, p.Clean

theorem clean_iff {c : Container} : c.Clean ↔ c.Bare ∧ c.CleanParts :=
  ⟨fun ⟨hbare, hparts⟩ => ⟨hbare, hparts⟩, fun ⟨hbare, hparts⟩ => ⟨hbare, hparts⟩⟩

/-! ## Finalized objects -/

theorem parts_finalize (c : Container) (idx : Option UInt64) (total : UInt64) :
    (c.finalize idx total).parts = c.parts := by
  rw [finalize, withHint]
  split <;> rfl

theorem bare_finalize (c : Container) (idx : Option UInt64) (total : UInt64) :
    (c.finalize idx total).Bare := by
  rw [finalize, withHint]
  split <;> exact ⟨rfl, rfl, rfl⟩

/-- Finalizing an object does not reach its parts. -/
theorem clean_finalize_iff (c : Container) (idx : Option UInt64) (total : UInt64) :
    (c.finalize idx total).Clean ↔ c.CleanParts := by
  rw [clean_iff, CleanParts, parts_finalize]
  exact and_iff_right (bare_finalize c idx total)

/-! ## Objects with addresses -/

variable (exports : ExportTable) (canonical : Canonical) (stations : Option StationDirectory)

theorem bare_addExternalUris_iff (c : Container) :
    (c.addExternalUris exports canonical stations).Bare ↔ c.Bare := by
  rw [addExternalUris]
  exact ⟨fun ⟨hchildren, hstreams, hbackend⟩ => ⟨hchildren, hstreams, hbackend⟩,
    fun ⟨hchildren, hstreams, hbackend⟩ => ⟨hchildren, hstreams, hbackend⟩⟩

theorem parts_addExternalUris (c : Container) :
    (c.addExternalUris exports canonical stations).parts =
      c.parts.map (·.addExternalUris exports canonical stations) := by
  rw [addExternalUris]

theorem clean_addExternalUris_iff (c : Container) :
    (c.addExternalUris exports canonical stations).Clean ↔ c.Clean := by
  rw [clean_iff, clean_iff, bare_addExternalUris_iff, CleanParts, parts_addExternalUris,
    List.forall_mem_map]
  refine and_congr_right fun _ => forall₂_congr fun p hp => ?_
  exact clean_addExternalUris_iff p
termination_by c
decreasing_by exact sizeOf_lt_of_mem_parts hp

end Container

end Mediatheque
