import Mediatheque.Proofs.List
import Mediatheque.Proofs.Registry.Persister
import Mediatheque.Proofs.Toml.Document

/-!
# The text of a registry

A registry without floating-point numbers is loaded from its settings file with every value of its
kind (`lossless_settings_file`). Its text is in every style one of the spellings of its tables
(`spellsTables_textIn`), and each of them is read as the registry (`ofText?_of_spells`), so it does
not matter how a writer quotes names and texts and breaks lists and texts into lines.
-/

namespace Mediatheque

namespace Registry

open Toml (SpellsValue SpellsEntries SpellsTables)

variable {r : Registry} {v : ParameterValue}

/-! ## The document of a registry -/

/-- The TOML value that writes a value. -/
def tomlOfValue : ParameterValue → Toml
  | .bool b => .boolean b
  | .int i => .integer i
  | .float x => .float x
  | .string s => .string s
  | .stringList items => .array (items.map .string)

/-- The entries of the table that writes a section. -/
def entriesOfSection (values : Dictionary ParameterValue) : List (String × Toml) :=
  values.entries.map fun e => (e.1, tomlOfValue e.2)

/-- The tables that write a registry. -/
def document (r : Registry) : List (String × List (String × Toml)) :=
  r.sections.entries.map fun s => (s.1, entriesOfSection s.2)

/-! ## Reading -/

/-- What writes a value keeps its kind. -/
theorem valueOfToml?_tomlOfValue (v : ParameterValue) : valueOfToml? (tomlOfValue v) = some v := by
  cases v with
  | stringList items =>
    have hitems : (items.map Toml.string).mapM Toml.string? = some items :=
      mapM_map_eq_some fun _ _ => rfl
    rw [tomlOfValue, valueOfToml?, hitems, Option.map_some]
  | _ => rfl

theorem sectionOfToml?_entriesOfSection (values : Dictionary ParameterValue) :
    sectionOfToml? (.table (entriesOfSection values)) = some values := by
  have hentries : (entriesOfSection values).mapM
      (fun e => (valueOfToml? e.2).map (e.1, ·)) = some values.entries :=
    mapM_map_eq_some fun e _ => by rw [valueOfToml?_tomlOfValue]; rfl
  simp only [sectionOfToml?, Toml.entries?, Option.bind_eq_bind, Option.bind_some, hentries,
    Dictionary.ofList_entries]

theorem ofDocument?_document (r : Registry) :
    ofDocument? (r.document.map fun e => (e.1, .table e.2)) = some r := by
  have hsections : (r.document.map fun e => (e.1, Toml.table e.2)).mapM
      (fun s => (sectionOfToml? s.2).map (s.1, ·)) = some r.sections.entries := by
    rw [document, List.map_map]
    exact mapM_map_eq_some fun s _ => by
      rw [Function.comp_apply, sectionOfToml?_entriesOfSection]
      rfl
  rw [ofDocument?, hsections, Option.map_some, Dictionary.ofList_entries]

/-- Every spelling of the tables of a registry is read as the registry. -/
theorem ofText?_of_spells {text : String} (h : SpellsTables text.toList r.document) :
    ofText? text = some r := by
  have hnames : r.document.map (·.1) = r.sections.keys := by
    rw [document, List.map_map]
    rfl
  have hkeys : ∀ e ∈ r.document, (e.2.map (·.1)).Nodup := by
    intro e he
    obtain ⟨s, hs, rfl⟩ := List.mem_map.1 he
    rw [entriesOfSection, List.map_map]
    exact s.2.nodup_keys
  have hread := Toml.read?_of_spellsTables h (hnames ▸ r.sections.nodup_keys) hkeys
  rw [String.ofList_toList] at hread
  rw [ofText?, hread, Option.bind_eq_bind, Option.bind_some, ofDocument?_document]

/-! ## Writing -/

/-- Whether a value is no floating-point number. -/
def isPlain : ParameterValue → Bool
  | .float _ => false
  | _ => true

/-- A registry holds no floating-point number. -/
def Plain (r : Registry) : Prop :=
  ∀ s ∈ r.sections.entries, ∀ e ∈ s.2.entries, isPlain e.2

instance (r : Registry) : Decidable r.Plain :=
  inferInstanceAs (Decidable (∀ s ∈ r.sections.entries, ∀ e ∈ s.2.entries, isPlain e.2))

theorem spellsValue_writeValue (style : Toml.Style) (hv : isPlain v) :
    SpellsValue (writeValue style v) (tomlOfValue v) := by
  cases v with
  | bool b =>
    cases b with
    | true => exact .yes
    | false => exact .no
  | int i => exact .integer i
  | float x => contradiction
  | string s => exact .text (Toml.spells_writeText style s.toList)
  | stringList items =>
    obtain ⟨g, rest, h, hg, hrest⟩ := Toml.spellsItems_writeTexts style items
    rw [writeValue, h]
    exact .texts hg hrest

/-- The lines of entries spell them, with what is spelled behind them. -/
theorem spellsEntries_writeEntry (style : Toml.Style) {t : List Char}
    {behind : List (String × Toml)} (ht : SpellsEntries t behind)
    {entries : List (String × ParameterValue)}
    (h : ∀ e ∈ entries, isPlain e.2) :
    SpellsEntries ((entries.flatMap fun e => Toml.writeEntry e.1 (writeValue style e.2)) ++ t)
      (entries.map (fun e => (e.1, tomlOfValue e.2)) ++ behind) := by
  induction entries with
  | nil => exact ht
  | cons e entries ih =>
    obtain ⟨he, hentries⟩ := List.forall_mem_cons.1 h
    have hcons := SpellsEntries.cons (Toml.spellsKey_writeKey e.1.toList)
      (spellsValue_writeValue style he) (ih hentries)
    simpa [Toml.writeEntry] using hcons

/-- A table that is written spells its header and its entries, with what is spelled behind it. -/
theorem spellsTables_writeTable (style : Toml.Style) {t u : List Char}
    {tables : List (String × List (String × Toml))} (ht : SpellsEntries t [])
    (hu : SpellsTables u tables) (name : String)
    {values : Dictionary ParameterValue} (h : ∀ e ∈ values.entries, isPlain e.2) :
    SpellsTables (Toml.writeTable name (values.entries.map fun e => (e.1, writeValue style e.2)) ++
      (t ++ u)) ((name, entriesOfSection values) :: tables) := by
  have hentries := spellsEntries_writeEntry style ht h
  rw [List.append_nil, ← entriesOfSection] at hentries
  have hcons := SpellsTables.cons (Toml.spellsKey_writeKey name.toList) hentries hu
  simpa [Toml.writeTable, List.flatMap_map] using hcons

/-- Tables that are written have empty lines between them. -/
theorem spellsTables_writeTables (style : Toml.Style)
    {sections : List (String × Dictionary ParameterValue)}
    (h : ∀ s ∈ sections, ∀ e ∈ s.2.entries, isPlain e.2) :
    SpellsTables (Toml.writeTables (sections.map fun s =>
        (s.1, s.2.entries.map fun e => (e.1, writeValue style e.2))))
      (sections.map fun s => (s.1, entriesOfSection s.2)) := by
  induction sections with
  | nil => exact .nil
  | cons s sections ih =>
    obtain ⟨hs, hsections⟩ := List.forall_mem_cons.1 h
    cases sections with
    | nil =>
      have htable := spellsTables_writeTable style .nil .nil s.1 hs
      rwa [List.append_nil, List.append_nil] at htable
    | cons s' sections => exact spellsTables_writeTable style (.blank .nil) (ih hsections) s.1 hs

/-- The text of a registry spells its tables. -/
theorem spellsTables_textIn (style : Toml.Style) (hr : r.Plain) :
    SpellsTables (r.textIn style).toList r.document := by
  rw [textIn, String.toList_ofList]
  exact spellsTables_writeTables style hr

/-! ## The settings file -/

theorem readsBack_of_plain (hr : r.Plain) : r.ReadsBack :=
  ofText?_of_spells (spellsTables_textIn .quotesFirst hr)

/-- A registry without floating-point numbers is loaded from the file in which it was saved, and
from any other that spells its tables, as the text of the registry does in every style. -/
theorem lossless_settings_file (r : Registry) (hr : r.Plain) :
    (∀ style, SpellsTables (r.textIn style).toList r.document) ∧
    (∀ path disk text, Disk.read disk path = .ok text → SpellsTables text.toList r.document →
      load path disk = .ok r) ∧
    ∀ path disk disk', r.save path disk = (.ok (), disk') → load path disk' = .ok r := by
  refine ⟨fun style => spellsTables_textIn style hr, fun path disk text hread h => ?_,
    fun path disk disk' h => ?_⟩
  · exact load_of_read hread (ofText?_of_spells h)
  · exact load_of_read (read_of_save h) (readsBack_of_plain hr)

/-- A context without a name that has an empty list, a text with marks of both kinds and one like a
truth value on a line of its own: saved, and in a file of the other style. -/
theorem lossless_settings_file_lines :
    let r : Registry :=
      ⟨.ofList [("", .ofList [("list", .stringList []), ("marks", .string "it's \"so\""),
        ("text", .string "true\n")])]⟩
    let disk : Disk := { nodes := .ofList [("/other.toml", .file (r.textIn .apostrophesFirst))] }
    let saved := (r.save "/config.toml" disk).2
    r.Plain ∧
      r.text = "[\"\"]\nlist = []\n" ++ "marks = \"\"\"it's \"so\"\"\"\"\n" ++
        "text = \"\"\"\ntrue\n\"\"\"\n" ∧
      r.textIn .apostrophesFirst = "[\"\"]\nlist = []\n" ++ "marks = '''it's \"so\"'''\n" ++
        "text = \"\"\"\ntrue\n\"\"\"\n" ∧
      r.save "/config.toml" disk = (.ok (), saved) ∧ load "/config.toml" saved = .ok r ∧
      load "/other.toml" disk = .ok r := by
  intro r disk saved
  have hplain : r.Plain := by decide +kernel
  have hsave : r.save "/config.toml" disk = (.ok (), saved) := rfl
  have hread : disk.read "/other.toml" = .ok (r.textIn .apostrophesFirst) := rfl
  obtain ⟨hspells, hload, hsaved⟩ := lossless_settings_file r hplain
  exact ⟨hplain, by decide +kernel, by decide +kernel, hsave, hsaved _ _ _ hsave,
    hload _ _ _ hread (hspells .apostrophesFirst)⟩

end Registry

end Mediatheque
