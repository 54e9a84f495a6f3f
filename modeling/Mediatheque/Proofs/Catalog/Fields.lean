import Mediatheque.Proofs.Catalog.Merge

/-!
# The fields of a node

A node bears a field if it has its value where it is to be found: in the label, in the class or in
the metadata (`Container.Bears`). Fields that have been applied are all borne, since no two of them
have one key (`bears_applyFields`), and fields that are borne already change nothing
(`applyFields_of_bears`). So the same fields once more change nothing.
-/

namespace Mediatheque

namespace Container

open Catalog (applyField applyFields)

/-- A node is made of its parts. -/
theorem eta (c : Container) :
    ⟨c.id, c.label, c.mediaClass, c.children, c.metadata, c.backend, c.editable, c.childClasses,
      c.numChildren, c.numContainerChildren, c.numItemChildren, c.sources, c.streams, c.parts,
      c.idx, c.total, c.childClass, c.tooltip⟩ = c := by
  cases c
  rfl

/-- A node has a field with its value, where it is to be found. -/
def Bears (c : Container) : String × Json → Prop
  | ("label", .str label) => c.label = label
  | ("class", .str name) => c.mediaClass = .ofName name
  | (key, value) => c.metadata.get? key = some value

theorem bears_congr {a b : Container} (hlabel : a.label = b.label)
    (hclass : a.mediaClass = b.mediaClass) (hmetadata : a.metadata = b.metadata)
    (field : String × Json) : a.Bears field ↔ b.Bears field := by
  unfold Bears
  split
  · rw [hlabel]
  · rw [hclass]
  · rw [hmetadata]

/-- A field is the label, the class or one of the metadata. -/
theorem field_cases (field : String × Json) :
    (∃ label, field = ("label", .str label)) ∨ (∃ name, field = ("class", .str name)) ∨
      ∀ c : Container,
        applyField c field = { c with metadata := c.metadata.insert field.1 field.2 } ∧
        (c.Bears field ↔ c.metadata.get? field.1 = some field.2) := by
  by_cases hlabel : ∃ label, field = ("label", .str label)
  · exact .inl hlabel
  by_cases hclass : ∃ name, field = ("class", .str name)
  · exact .inr (.inl hclass)
  refine .inr (.inr fun c => ⟨?_, ?_⟩)
  · unfold applyField
    split
    · exact absurd ⟨_, rfl⟩ hlabel
    · exact absurd ⟨_, rfl⟩ hclass
    · rfl
  · unfold Bears
    split
    · exact absurd ⟨_, rfl⟩ hlabel
    · exact absurd ⟨_, rfl⟩ hclass
    · rfl

variable {c : Container} {field other : String × Json} {fields : Dictionary Json}

theorem bears_applyField (c : Container) (field : String × Json) :
    (applyField c field).Bears field := by
  rcases field_cases field with ⟨label, rfl⟩ | ⟨name, rfl⟩ | hmeta
  · rfl
  · rfl
  · rw [(hmeta _).2, (hmeta c).1, Dictionary.get?_insert, if_pos rfl]

/-- A field stays where another is applied. -/
theorem Bears.applyField (h : c.Bears field) (hne : field.1 ≠ other.1) :
    (applyField c other).Bears field := by
  rcases field_cases other with ⟨label, rfl⟩ | ⟨name, rfl⟩ | hother
  · rcases field_cases field with ⟨label', rfl⟩ | ⟨name', rfl⟩ | hmeta
    · exact absurd rfl hne
    · exact h
    · exact (hmeta _).2.2 ((hmeta c).2.1 h)
  · rcases field_cases field with ⟨label', rfl⟩ | ⟨name', rfl⟩ | hmeta
    · exact h
    · exact absurd rfl hne
    · exact (hmeta _).2.2 ((hmeta c).2.1 h)
  · rw [(hother c).1]
    rcases field_cases field with ⟨label', rfl⟩ | ⟨name', rfl⟩ | hmeta
    · exact h
    · exact h
    · rw [(hmeta _).2, Dictionary.get?_insert, if_neg hne]
      exact (hmeta c).2.1 h

theorem applyField_of_bears (h : c.Bears field) : applyField c field = c := by
  rcases field_cases field with ⟨label, rfl⟩ | ⟨name, rfl⟩ | hmeta
  · obtain rfl : c.label = label := h
    exact eta c
  · have hclass : c.mediaClass = .ofName name := h
    show { c with mediaClass := MediaClass.ofName name } = c
    rw [← hclass]
    exact eta c
  · rw [(hmeta c).1, Dictionary.insert_of_get? ((hmeta c).2.1 h)]
    exact eta c

/-- A node to which fields have been applied bears them all. -/
theorem bears_foldl {entries : List (String × Json)} (hkeys : (entries.map (·.1)).Nodup)
    (hfield : field ∈ entries ∨ c.Bears field ∧ field.1 ∉ entries.map (·.1)) :
    (entries.foldl applyField c).Bears field := by
  induction entries generalizing c with
  | nil =>
    rcases hfield with hmem | ⟨hbears, -⟩
    · cases hmem
    · exact hbears
  | cons entry rest ih =>
    obtain ⟨hentry, hrest⟩ := List.nodup_cons.1 hkeys
    rw [List.foldl_cons]
    rcases hfield with hmem | ⟨hbears, hnone⟩
    · rcases List.mem_cons.1 hmem with rfl | hmem
      · exact ih hrest (.inr ⟨bears_applyField c field, hentry⟩)
      · exact ih hrest (.inl hmem)
    · obtain ⟨hne, hnone⟩ := not_or.1 (mt List.mem_cons.2 hnone)
      exact ih hrest (.inr ⟨hbears.applyField hne, hnone⟩)

theorem bears_applyFields (c : Container) (hfield : field ∈ fields.entries) :
    (applyFields c fields).Bears field :=
  bears_foldl fields.nodup_keys (.inl hfield)

theorem applyFields_of_bears (h : ∀ field ∈ fields.entries, c.Bears field) :
    applyFields c fields = c :=
  foldl_eq_self fun field hfield => applyField_of_bears (h field hfield)

end Container

end Mediatheque
