import Mediatheque.Proofs.Toml.Values

/-!
# Reading documents

A document of tables with plain values has a line for each header and each entry, and empty lines
between them (`SpellsTables`). However its keys and values are spelled, it is read as the tables
(`read?_of_spellsTables`): each header opens a new table behind those that are finished, and each
line below adds an entry to it (`readLines_entries`), since no two tables have one name and no two
entries of a table one key.
-/

namespace Mediatheque

namespace Toml

variable {name key : String} {value : Toml} {k v t u s rest : List Char} {fuel : Nat}
  {entries : List (String × Toml)} {tables : List (String × List (String × Toml))}

/-! ## Spellings -/

/-- The spellings of a plain value. -/
inductive SpellsValue : List Char → Toml → Prop where
  | yes : SpellsValue ['t', 'r', 'u', 'e'] (.boolean true)
  | no : SpellsValue ['f', 'a', 'l', 's', 'e'] (.boolean false)
  | integer (i : Int64) : SpellsValue (intText i.toInt) (.integer i)
  | text {t : List Char} {s : String} (h : Spells t s.toList) : SpellsValue t (.string s)
  | texts {g t : List Char} {items : List String} (hg : Gap g) (h : SpellsItems t items) :
      SpellsValue ('[' :: (g ++ t)) (.array (items.map .string))

/-- The spellings of the entries of a table, with empty lines between some of them. -/
inductive SpellsEntries : List Char → List (String × Toml) → Prop where
  | nil : SpellsEntries [] []
  | blank {t : List Char} {entries : List (String × Toml)} (h : SpellsEntries t entries) :
      SpellsEntries ('\n' :: t) entries
  | cons {k v t : List Char} {key : String} {value : Toml} {entries : List (String × Toml)}
      (hk : SpellsKey k key.toList) (hv : SpellsValue v value) (h : SpellsEntries t entries) :
      SpellsEntries (k ++ ' ' :: '=' :: ' ' :: (v ++ '\n' :: t)) ((key, value) :: entries)

/-- The spellings of tables, each behind a header with its name. -/
inductive SpellsTables : List Char → List (String × List (String × Toml)) → Prop where
  | nil : SpellsTables [] []
  | cons {k t u : List Char} {name : String} {entries : List (String × Toml)}
      {tables : List (String × List (String × Toml))} (hk : SpellsKey k name.toList)
      (ht : SpellsEntries t entries) (h : SpellsTables u tables) :
      SpellsTables ('[' :: (k ++ ']' :: '\n' :: (t ++ u))) ((name, entries) :: tables)

/-! ## Values -/

theorem readValue_intText (i : Int64) :
    readValue (fuel + 1) 0 (intText i.toInt ++ '\n' :: rest) = some (.integer i, '\n' :: rest) := by
  rw [← readScalar_intText]
  unfold readValue
  split
  next heq => exact absurd (first_of_intText heq) (by decide)
  next heq => exact absurd (first_of_intText heq) (by decide)
  next => rfl

/-- Every spelling of a plain value is read as the value. -/
theorem readValue_of_spellsValue (h : SpellsValue v value) (hf : v.length < fuel) :
    readValue fuel 0 (v ++ '\n' :: rest) = some (value, '\n' :: rest) := by
  obtain ⟨fuel, rfl⟩ := Nat.exists_eq_add_of_lt hf
  cases h with
  | yes => rfl
  | no => rfl
  | integer i => exact readValue_intText i
  | text h =>
    rw [readValue_of_spells h, String.ofList_toList]
    rintro q (rfl | rfl) <;> simp
  | texts hg h =>
    rename_i g t items
    have hitems : readItems (('[' :: (g ++ t)).length + fuel) 1 (t ++ '\n' :: rest) =
        some (items.map .string, '\n' :: rest) := readItems_of_spellsItems h (by simp; omega)
    obtain ⟨c, u, rfl, hc⟩ := h.exists_cons
    rw [List.cons_append] at hitems
    rw [List.cons_append, List.append_assoc, List.cons_append, readValue, if_pos (by decide),
      skipAllLines_gap hg hc, hitems]
    rfl

/-! ## Tables under construction -/

/-- Finished entries with plain values. -/
def leaves (entries : List (String × Toml)) : Draft.Entries :=
  entries.map fun e => (e.1, .leaf e.2)

/-- Finished tables with plain values. -/
def drafts (tables : List (String × List (String × Toml))) : Draft.Entries :=
  tables.map fun e => (e.1, .table .explicit (leaves e.2))

/-- Of entries with distinct names, none has the name of one behind it. -/
theorem not_mem_of_nodup {α : Type} {done rest : List (String × α)} {e : String × α}
    (h : ((done ++ e :: rest).map (·.1)).Nodup) : e.1 ∉ done.map (·.1) := by
  rw [List.map_append, List.map_cons, List.nodup_append] at h
  exact fun hmem => h.2.2 e.1 hmem e.1 List.mem_cons_self rfl

/-- No entry is found under a name that none of them has, whatever is made of their values. -/
theorem lookup_map_eq_none {α β : Type} {f : α → β} {l : List (String × α)}
    (h : name ∉ l.map (·.1)) : (l.map fun e => (e.1, f e.2)).lookup name = none := by
  rw [List.lookup_eq_none_iff]
  intro e he
  obtain ⟨d, hd, rfl⟩ := List.mem_map.1 he
  rw [bne_iff_ne]
  rintro rfl
  exact h (List.mem_map_of_mem hd)

theorem lookup_leaves_eq_none (h : key ∉ entries.map (·.1)) :
    (leaves entries).lookup key = none :=
  lookup_map_eq_none h

theorem lookup_drafts_eq_none (h : name ∉ tables.map (·.1)) :
    (drafts tables).lookup name = none :=
  lookup_map_eq_none (f := fun entries => Draft.table .explicit (leaves entries)) h

/-- The table that was opened last stands behind the others. -/
theorem drafts_append (tables : List (String × List (String × Toml))) (name : String)
    (entries : List (String × Toml)) :
    drafts (tables ++ [(name, entries)]) =
      drafts tables ++ [(name, .table .explicit (leaves entries))] := by
  rw [drafts, List.map_append]
  rfl

/-- A header opens a new table behind those that are finished. -/
theorem openTable?_drafts (h : name ∉ tables.map (·.1)) :
    Draft.openTable? [] name (drafts tables) = some (drafts (tables ++ [(name, [])])) := by
  simp only [Draft.openTable?, Draft.alter?, lookup_drafts_eq_none h, drafts_append]
  rfl

theorem set_append {d d' : Draft} {root : Draft.Entries} (h : name ∉ root.map (·.1)) :
    Draft.set name d' (root ++ [(name, d)]) = root ++ [(name, d')] := by
  induction root with
  | nil => simp [Draft.set]
  | cons e root ih =>
    rw [List.map_cons, List.mem_cons, not_or] at h
    rw [List.cons_append, Draft.set, if_neg (Ne.symm h.1), ih h.2]
    rfl

/-- A new key is put into the table that was opened last. -/
theorem insertBelow?_drafts (h : name ∉ tables.map (·.1)) (hkey : key ∉ entries.map (·.1)) :
    Draft.insertBelow? [name] [] key value (drafts (tables ++ [(name, entries)])) =
      some (drafts (tables ++ [(name, entries ++ [(key, value)])])) := by
  have hlast : (drafts tables ++ [(name, Draft.table .explicit (leaves entries))]).lookup name =
      some (.table .explicit (leaves entries)) := by
    rw [List.lookup_append, lookup_drafts_eq_none h, List.lookup_cons_self]
    rfl
  have hinsert : Draft.insert? [] key value .explicit (leaves entries) =
      some (leaves (entries ++ [(key, value)])) := by
    simp only [Draft.insert?, Draft.alter?, lookup_leaves_eq_none hkey]
    rw [leaves, leaves, List.map_append]
    rfl
  rw [drafts_append, drafts_append, Draft.insertBelow?, Draft.alter?, hlast]
  simp only [Draft.alter?, hinsert, Option.bind_eq_bind, Option.bind_some]
  rw [set_append (by simpa [drafts] using h)]
  rfl

theorem values_leaves (entries : List (String × Toml)) :
    Draft.values (leaves entries) = entries := by
  induction entries with
  | nil => rfl
  | cons e entries ih =>
    rw [leaves, List.map_cons, ← leaves, Draft.values, ih]
    rfl

theorem values_drafts (tables : List (String × List (String × Toml))) :
    Draft.values (drafts tables) = tables.map fun e => (e.1, .table e.2) := by
  induction tables with
  | nil => rfl
  | cons e tables ih =>
    rw [drafts, List.map_cons, ← drafts, Draft.values, ih, Draft.value, values_leaves]
    rfl

/-! ## Lines -/

theorem restOfLine?_lineEnd (s : List Char) : restOfLine? ('\n' :: s) = some s := rfl

theorem SpellsValue.exists_cons (h : SpellsValue v value) : ∃ c u, v = c :: u ∧ ¬isBlank c := by
  cases h with
  | yes => exact ⟨_, _, rfl, by decide⟩
  | no => exact ⟨_, _, rfl, by decide⟩
  | integer i =>
    obtain ⟨c, u, hcons, hc, -⟩ := exists_intText_cons i.toInt
    refine ⟨c, u, hcons, fun hb => ?_⟩
    simp only [isBlank, decide_eq_true_eq] at hb
    rcases hb with rfl | rfl <;> revert hc <;> decide
  | text h =>
    obtain ⟨c, u, rfl, hc⟩ := h.exists_cons
    exact ⟨c, u, rfl, by rcases hc with rfl | rfl <;> decide⟩
  | texts hg h => exact ⟨_, _, rfl, by decide⟩

/-- The line of an entry is read as its key and its value. -/
theorem readEntry_of_spells (p : Progress) (hk : SpellsKey k key.toList)
    (hv : SpellsValue v value) :
    readEntry p (k ++ ' ' :: '=' :: ' ' :: (v ++ '\n' :: t)) =
      (Draft.insertBelow? p.header [] key value p.root).map fun root =>
        ({ p with root := root }, t) := by
  have hkey : readKey (k ++ ' ' :: '=' :: ' ' :: (v ++ '\n' :: t)) = _ :=
    readKey_of_spellsKey hk (by simp; decide) (by simp [skipBlank, isBlank])
  have hskip : skipBlank (' ' :: (v ++ '\n' :: t)) = v ++ '\n' :: t := by
    obtain ⟨c, u, rfl, hc⟩ := hv.exists_cons
    exact skipBlank_of_not_isBlank hc
  have hexpect : expect '=' (skipBlank (' ' :: '=' :: ' ' :: (v ++ '\n' :: t))) =
      some (' ' :: (v ++ '\n' :: t)) := rfl
  have hlength : v.length < (' ' :: (v ++ '\n' :: t)).length + 1 := by
    rw [List.length_cons, List.length_append]
    omega
  rw [readEntry, hkey]
  simp only [Option.bind_eq_bind, Option.bind_some, hexpect, hskip,
    readValue_of_spellsValue hv hlength, restOfLine?_lineEnd, String.ofList_toList]
  cases Draft.insertBelow? p.header [] key value p.root <;> rfl

/-- The line of a header is read as its name. -/
theorem readHeader_of_spells (p : Progress) (hk : SpellsKey k name.toList) :
    readHeader p ('[' :: (k ++ ']' :: '\n' :: t)) =
      (Draft.openTable? [] name p.root).map fun root => (⟨root, [name]⟩, t) := by
  have hkey : readKey (k ++ ']' :: '\n' :: t) = _ :=
    readKey_of_spellsKey hk (by simp; decide) (by simp [skipBlank, isBlank])
  have hexpect : expect ']' (skipBlank (']' :: '\n' :: t)) = some ('\n' :: t) := rfl
  unfold readHeader
  split
  next heq =>
    obtain ⟨c, u, rfl, hc⟩ := hk.exists_cons
    rw [(List.cons.inj (List.cons.inj heq).2).1] at hc
    exact absurd hc (by decide)
  next heq =>
    cases heq
    rw [hkey]
    simp only [Option.bind_eq_bind, Option.bind_some, hexpect, restOfLine?_lineEnd,
      String.ofList_toList, List.nil_append]
    cases Draft.openTable? [] name p.root <;> rfl
  next hne => exact absurd rfl (hne _)

theorem readLines_of_spellsKey (p : Progress) (hk : SpellsKey k s) :
    readLines (fuel + 1) p (k ++ rest) =
      readEntry p (k ++ rest) >>= fun (p, s) => readLines fuel p s := by
  have hskip := hk.skipBlank_append rest
  obtain ⟨c, u, rfl, hc⟩ := hk.exists_cons
  have hline : ¬(c = '#' ∨ c = '\n' ∨ c = '\r') := by
    rintro (rfl | rfl | rfl) <;> exact absurd hc (by decide)
  have hheader : c ≠ '[' := by
    rintro rfl
    exact absurd hc (by decide)
  rw [List.cons_append] at hskip ⊢
  rw [readLines, hskip]
  dsimp only
  rw [if_neg hline, if_neg hheader]

/-- The lines below a header add their entries to its table, one after the other. Each line takes
one of the lines that may be read, and has a character at least, so enough are left. -/
theorem readLines_entries (ht : SpellsEntries t entries) (done : List (String × Toml))
    (hname : name ∉ tables.map (·.1)) (hkeys : ((done ++ entries).map (·.1)).Nodup)
    (hf : (t ++ rest).length < fuel) :
    ∃ fuel', rest.length < fuel' ∧
      readLines fuel ⟨drafts (tables ++ [(name, done)]), [name]⟩ (t ++ rest) =
        readLines fuel' ⟨drafts (tables ++ [(name, done ++ entries)]), [name]⟩ rest := by
  induction ht generalizing done fuel with
  | nil => exact ⟨fuel, hf, by rw [List.append_nil, List.nil_append]⟩
  | blank h ih =>
    obtain _ | fuel := fuel
    · contradiction
    · exact ih done hkeys (Nat.lt_of_succ_lt_succ hf)
  | @cons k v t key value entries hk hv h ih =>
    obtain _ | fuel := fuel
    · contradiction
    have hkey : key ∉ done.map (·.1) := not_mem_of_nodup hkeys
    have hlength : (t ++ rest).length < fuel := by
      simp at hf ⊢
      omega
    obtain ⟨fuel', hf', hlines⟩ := ih (done ++ [(key, value)])
      (by rwa [List.append_assoc, List.singleton_append]) hlength
    refine ⟨fuel', hf', ?_⟩
    simp only [List.append_assoc, List.cons_append]
    rw [readLines_of_spellsKey _ hk, readEntry_of_spells _ hk hv, insertBelow?_drafts hname hkey]
    simp only [Option.map_some, Option.bind_eq_bind, Option.bind_some, hlines, List.append_assoc,
      List.singleton_append]

/-- The headers open their tables one after the other. -/
theorem readLines_tables (h : SpellsTables t tables) (done : List (String × List (String × Toml)))
    (hnames : ((done ++ tables).map (·.1)).Nodup) (hkeys : ∀ e ∈ tables, (e.2.map (·.1)).Nodup)
    (header : List String) (hf : t.length < fuel) :
    ∃ header',
      readLines fuel ⟨drafts done, header⟩ t = some ⟨drafts (done ++ tables), header'⟩ := by
  induction h generalizing done header fuel with
  | nil =>
    obtain ⟨fuel, rfl⟩ := Nat.exists_eq_add_of_lt hf
    exact ⟨header, by rw [List.append_nil]; rfl⟩
  | @cons k t u name entries tables hk ht h ih =>
    obtain _ | fuel := fuel
    · contradiction
    obtain ⟨hentries, htables⟩ := List.forall_mem_cons.1 hkeys
    have hname : name ∉ done.map (·.1) := not_mem_of_nodup hnames
    have hlength : (t ++ u).length < fuel := by
      simp at hf ⊢
      omega
    obtain ⟨fuel', hf', hlines⟩ := readLines_entries ht [] hname hentries hlength
    obtain ⟨header', hread⟩ := ih (done ++ [(name, entries)])
      (by rwa [List.append_assoc, List.singleton_append]) htables [name] hf'
    refine ⟨header', ?_⟩
    show (readHeader ⟨drafts done, header⟩ ('[' :: (k ++ ']' :: '\n' :: (t ++ u))) >>=
      fun (p, s) => readLines fuel p s) = _
    rw [readHeader_of_spells _ hk, openTable?_drafts hname]
    simp only [Option.map_some, Option.bind_eq_bind, Option.bind_some, hlines, List.nil_append,
      hread, List.append_assoc, List.singleton_append]

/-- Every spelling of tables is read as the tables. -/
theorem read?_of_spellsTables (h : SpellsTables t tables) (hnames : (tables.map (·.1)).Nodup)
    (hkeys : ∀ e ∈ tables, (e.2.map (·.1)).Nodup) :
    read? (String.ofList t) = some (tables.map fun e => (e.1, .table e.2)) := by
  have hmark : skipMark t = t := by cases h <;> rfl
  obtain ⟨header, hread⟩ := readLines_tables h [] hnames hkeys [] (Nat.lt_succ_self t.length)
  rw [read?, String.toList_ofList, hmark]
  show (readLines (t.length + 1) ⟨drafts [], []⟩ t).map _ = _
  rw [hread, Option.map_some, List.nil_append, values_drafts]

end Toml

end Mediatheque
