import Mediatheque.Proofs.List
import Mediatheque.Settings.Basic

/-!
# Layers of settings

A text is a settings file if it is a document whose entries are all of their kinds (`Accepted`), and
then it gives the settings that it has entries for (`Gives`). Of texts that are put one above
another the last one that gives a setting counts, for each setting by itself (`get_overlayAll`), and
a text that is no settings file counts for nothing.

* `ofDocument?_eq_some_iff`: a document gives each setting in the entry of its own name, and none
  from another;
* `get_merge`: what the upper layer gives counts, for each setting by itself;
* `ofText?_builtInText`: the built-in values are those of a text, too.

With the bounds of the options this is what layers of settings come to (`layers_last_writer`).
-/

namespace Mediatheque

/-- The settings that layers give. -/
inductive Setting where
  | baseDir
  | createIfMissing
  | pollIntervalMs
  | saveDebounceMs
  | waitForCreation
  | creationTimeoutSecs
  | objectCacheSize
  | rootUrl
  | radioBrowser

namespace Setting

/-- The kind of the values of a setting. -/
def Value : Setting → Type
  | baseDir | rootUrl | radioBrowser => String
  | createIfMissing | waitForCreation => Bool
  | pollIntervalMs | saveDebounceMs | creationTimeoutSecs | objectCacheSize => UInt64

/-- The section that has a setting. -/
def sectionName : Setting → String
  | baseDir | createIfMissing => "database"
  | pollIntervalMs | saveDebounceMs | waitForCreation | creationTimeoutSecs | objectCacheSize =>
    "runtime"
  | rootUrl | radioBrowser => "server"

/-- The names of the entries of a section, in their declared order. -/
def siblings : Setting → List String
  | baseDir | createIfMissing => ["base_dir", "create_if_missing"]
  | pollIntervalMs | saveDebounceMs | waitForCreation | creationTimeoutSecs | objectCacheSize =>
    ["poll_interval_ms", "save_debounce_ms", "wait_for_creation", "creation_timeout_secs",
      "object_cache_size"]
  | rootUrl | radioBrowser => ["root_url", "radio_browser"]

/-- The entry that has a setting. -/
def entryName : Setting → String
  | baseDir => "base_dir"
  | createIfMissing => "create_if_missing"
  | pollIntervalMs => "poll_interval_ms"
  | saveDebounceMs => "save_debounce_ms"
  | waitForCreation => "wait_for_creation"
  | creationTimeoutSecs => "creation_timeout_secs"
  | objectCacheSize => "object_cache_size"
  | rootUrl => "root_url"
  | radioBrowser => "radio_browser"

/-- A value of the kind of a setting. -/
def read? : (k : Setting) → Toml → Option k.Value
  | baseDir | rootUrl | radioBrowser => Toml.string?
  | createIfMissing | waitForCreation => Toml.boolean?
  | pollIntervalMs | saveDebounceMs | creationTimeoutSecs | objectCacheSize => Toml.natural?

/-- The entry of a document for a setting, if there is one; nothing if it is of another kind, or if
its section is none. -/
def inDocument? (k : Setting) (document : List (String × Toml)) : Option (Option k.Value) := do
  let entries ← Settings.section? document k.sectionName k.siblings
  Toml.entry? entries k.entryName k.read?

/-- The entry of a setting is looked up in the section that it is in. -/
theorem inDocument?_eq_of_section? {k : Setting} {document entries : List (String × Toml)}
    (h : Settings.section? document k.sectionName k.siblings = some entries) :
    k.inDocument? document = Toml.entry? entries k.entryName k.read? := by
  rw [inDocument?, h, Option.bind_eq_bind, Option.bind_some]

/-- A text is a settings file: a document whose entries are of the kinds of their settings. -/
def Accepted (text : String) (document : List (String × Toml)) : Prop :=
  Toml.read? text = some document ∧ ∀ k : Setting, ∃ o, k.inDocument? document = some o

/-- A text is a settings file and has an entry for a setting. -/
def Gives (k : Setting) (text : String) (v : k.Value) : Prop :=
  ∃ document, Accepted text document ∧ k.inDocument? document = some (some v)

/-- What a setting comes to under texts, from what it was: the value in the last text that gives it,
or else what it was. -/
inductive LastGiven (k : Setting) (start : Option k.Value) :
    List String → Option k.Value → Prop where
  | given {before : List String} {text : String} {after : List String} {v : k.Value}
      (hgives : k.Gives text v) (hafter : ∀ later ∈ after, ∀ w, ¬k.Gives later w) :
      LastGiven k start (before ++ text :: after) (some v)
  | untouched {texts : List String} (h : ∀ text ∈ texts, ∀ w, ¬k.Gives text w) :
      LastGiven k start texts start

end Setting

namespace Settings

open Setting (Accepted Gives inDocument?_eq_of_section?)

variable {s upper : Settings} {text : String} {document : List (String × Toml)}

/-- What layers have for a setting. -/
def get (s : Settings) : (k : Setting) → Option k.Value
  | .baseDir => s.baseDir
  | .createIfMissing => s.createIfMissing
  | .pollIntervalMs => s.pollIntervalMs
  | .saveDebounceMs => s.saveDebounceMs
  | .waitForCreation => s.waitForCreation
  | .creationTimeoutSecs => s.creationTimeoutSecs
  | .objectCacheSize => s.objectCacheSize
  | .rootUrl => s.rootUrl
  | .radioBrowser => s.radioBrowser

/-- Layers that have the same for all settings are the same. -/
theorem ext_get {s t : Settings} (h : ∀ k, s.get k = t.get k) : s = t := by
  obtain ⟨_, _, _, _, _, _, _, _, _⟩ := s
  obtain ⟨_, _, _, _, _, _, _, _, _⟩ := t
  obtain rfl := h .baseDir
  obtain rfl := h .createIfMissing
  obtain rfl := h .pollIntervalMs
  obtain rfl := h .saveDebounceMs
  obtain rfl := h .waitForCreation
  obtain rfl := h .creationTimeoutSecs
  obtain rfl := h .objectCacheSize
  obtain rfl := h .rootUrl
  obtain rfl := h .radioBrowser
  rfl

/-! ## Reading a layer -/

/-- A document gives each setting in the entry of its own name. -/
theorem ofDocument?_eq_some_iff :
    ofDocument? document = some s ↔ ∀ k : Setting, k.inDocument? document = some (s.get k) := by
  constructor
  · intro h k
    simp only [ofDocument?, Option.bind_eq_bind, Option.bind_eq_some_iff] at h
    obtain ⟨database, hdatabase, baseDir, hbaseDir, createIfMissing, hcreate, runtime, hruntime,
      poll, hpoll, save, hsave, wait, hwait, timeout, htimeout, cache, hcache, server, hserver,
      rootUrl, hrootUrl, radio, hradio, h⟩ := h
    cases h
    cases k with
    | baseDir | createIfMissing => exact (inDocument?_eq_of_section? hdatabase).trans ‹_›
    | rootUrl | radioBrowser => exact (inDocument?_eq_of_section? hserver).trans ‹_›
    | _ => exact (inDocument?_eq_of_section? hruntime).trans ‹_›
  · intro h
    obtain ⟨database, hdatabase, -⟩ := Option.bind_eq_some_iff.1 (h .baseDir)
    obtain ⟨runtime, hruntime, -⟩ := Option.bind_eq_some_iff.1 (h .pollIntervalMs)
    obtain ⟨server, hserver, -⟩ := Option.bind_eq_some_iff.1 (h .rootUrl)
    have read {entries : List (String × Toml)} (k : Setting)
        (hsection : section? document k.sectionName k.siblings = some entries) :
        Toml.entry? entries k.entryName k.read? = some (s.get k) :=
      (inDocument?_eq_of_section? hsection).symm.trans (h k)
    simp only [ofDocument?, Option.bind_eq_bind, Option.bind_eq_some_iff]
    exact ⟨database, hdatabase,
      _, read .baseDir hdatabase,
      _, read .createIfMissing hdatabase,
      runtime, hruntime,
      _, read .pollIntervalMs hruntime,
      _, read .saveDebounceMs hruntime,
      _, read .waitForCreation hruntime,
      _, read .creationTimeoutSecs hruntime,
      _, read .objectCacheSize hruntime,
      server, hserver,
      _, read .rootUrl hserver,
      _, read .radioBrowser hserver, rfl⟩

/-- A layer that has given values. -/
theorem exists_get_eq (f : (k : Setting) → Option k.Value) : ∃ s : Settings, ∀ k, s.get k = f k :=
  ⟨⟨f .baseDir, f .createIfMissing, f .pollIntervalMs, f .saveDebounceMs, f .waitForCreation,
    f .creationTimeoutSecs, f .objectCacheSize, f .rootUrl, f .radioBrowser⟩,
    fun k => by cases k <;> rfl⟩

/-- The texts that give a layer are the settings files. -/
theorem exists_ofText?_iff : (∃ s, ofText? text = some s) ↔ ∃ document, Accepted text document := by
  constructor
  · rintro ⟨s, h⟩
    obtain ⟨document, hread, h⟩ := Option.bind_eq_some_iff.1 h
    exact ⟨document, hread, fun k => ⟨s.get k, ofDocument?_eq_some_iff.1 h k⟩⟩
  · rintro ⟨document, hread, h⟩
    obtain ⟨f, hf⟩ := Classical.skolem.1 h
    obtain ⟨s, hs⟩ := exists_get_eq f
    refine ⟨s, Option.bind_eq_some_iff.2 ⟨document, hread, ofDocument?_eq_some_iff.2 fun k => ?_⟩⟩
    rw [hf, hs]

theorem ofText?_eq_none_iff : ofText? text = none ↔ ¬∃ document, Accepted text document := by
  rw [← exists_ofText?_iff, Option.eq_none_iff_forall_ne_some, not_exists]

/-- A settings file gives what its layer has. -/
theorem gives_iff (h : ofText? text = some upper) {k : Setting} {v : k.Value} :
    k.Gives text v ↔ upper.get k = some v := by
  obtain ⟨document, hread, h⟩ := Option.bind_eq_some_iff.1 h
  have hentry := ofDocument?_eq_some_iff.1 h
  constructor
  · rintro ⟨document', ⟨hread', -⟩, hv⟩
    obtain rfl := Option.some.inj (hread.symm.trans hread')
    exact Option.some.inj ((hentry k).symm.trans hv)
  · intro hv
    exact ⟨document, ⟨hread, fun k => ⟨_, hentry k⟩⟩, hv ▸ hentry k⟩

/-! ## One layer above another -/

/-- What the upper layer gives counts, for each setting by itself. -/
theorem get_merge (lower upper : Settings) (k : Setting) :
    (lower.merge upper).get k = (upper.get k).or (lower.get k) := by
  cases k <;> exact Option.or_eq_orElse.symm

/-- The settings once a text has been put above them, which a text that gives no layer leaves. -/
def overlay (s : Settings) (text : String) : Settings := (s.merge? text).getD s

/-- The settings once texts have been put above them in turn. -/
def overlayAll (s : Settings) (texts : List String) : Settings := texts.foldl overlay s

theorem merge?_eq_none_iff : s.merge? text = none ↔ ¬∃ document, Accepted text document := by
  rw [merge?, Option.map_eq_none_iff, ofText?_eq_none_iff]

theorem overlay_of_merge? (h : s.merge? text = none) : s.overlay text = s := by
  rw [overlay, h, Option.getD_none]

theorem overlay_of_ofText? (h : ofText? text = some upper) : s.overlay text = s.merge upper := by
  rw [overlay, merge?, h, Option.map_some, Option.getD_some]

/-- A text sets the settings that it gives, and leaves the others. -/
theorem get_overlay (s : Settings) (text : String) (k : Setting) :
    (∃ v, k.Gives text v ∧ (s.overlay text).get k = some v) ∨
      (∀ v, ¬k.Gives text v) ∧ (s.overlay text).get k = s.get k := by
  cases h : ofText? text with
  | none =>
    have hnone := ofText?_eq_none_iff.1 h
    refine .inr ⟨fun v ⟨document, hdocument, _⟩ => hnone ⟨document, hdocument⟩, ?_⟩
    rw [overlay_of_merge? (merge?_eq_none_iff.2 hnone)]
  | some upper =>
    rw [overlay_of_ofText? h, get_merge]
    cases hk : upper.get k with
    | none =>
      refine .inr ⟨fun v hv => ?_, Option.none_or⟩
      rw [gives_iff h, hk] at hv
      cases hv
    | some v => exact .inl ⟨v, (gives_iff h).2 hk, Option.some_or⟩

/-- Of texts put one above another, the last that gives a setting counts. -/
theorem get_overlayAll (s : Settings) (texts : List String) (k : Setting) :
    k.LastGiven (s.get k) texts ((s.overlayAll texts).get k) := by
  induction texts generalizing s with
  | nil => exact .untouched nofun
  | cons text texts ih =>
    have hrest := ih (s.overlay text)
    rw [overlayAll, List.foldl_cons, ← overlayAll]
    generalize ((s.overlay text).overlayAll texts).get k = final at hrest
    cases hrest with
    | given hgives hafter =>
      rw [← List.cons_append]
      exact .given hgives hafter
    | untouched hnone =>
      -- No later text gives the setting, so that the first is the last that may.
      rcases get_overlay s text k with ⟨v, hgives, hget⟩ | ⟨hnot, hget⟩
      · rw [hget, ← List.nil_append (text :: texts)]
        exact .given hgives hnone
      · rw [hget]
        exact .untouched (List.forall_mem_cons.2 ⟨hnot, hnone⟩)

/-- The same text once more changes nothing. -/
theorem overlay_overlay (s : Settings) (text : String) :
    (s.overlay text).overlay text = s.overlay text := by
  cases h : ofText? text with
  | none => rw [overlay_of_merge? (merge?_eq_none_iff.2 (ofText?_eq_none_iff.1 h))]
  | some upper =>
    refine ext_get fun k => ?_
    rw [overlay_of_ofText? h, overlay_of_ofText? h, get_merge, get_merge, ← Option.or_assoc,
      Option.or_self]

/-! ## The built-in values -/

/-- The text of the built-in values, line by line. -/
def builtInLines : List String := [
  "# Default settings for medialib.",
  "# Override any of these in ~/.config/medialib/config.toml",
  "",
  "[database]",
  "# Directory holding the medialib/ database directory.",
  "# Defaults to the platform data dir (~/.local/share on Linux).",
  "# base_dir = \"/srv\"",
  "create_if_missing = true",
  "",
  "[runtime]",
  "# Back-off sleep of idle backend and dispatcher loops",
  "poll_interval_ms = 50",
  "# Quiet period before changed settings are written to disk",
  "save_debounce_ms = 3000",
  "# Block in open() until every backend finished creating a new database",
  "wait_for_creation = true",
  "creation_timeout_secs = 600",
  "object_cache_size = 4096",
  "",
  "[server]",
  "# Root URL of the HTTP server exporting media files, e.g.",
  "# root_url = \"http://192.168.1.10:8888\"",
  "radio_browser = \"de1.api.radio-browser.info\""]

def builtInText : String := String.join (builtInLines.map (· ++ "\n"))

theorem toList_builtInText :
    builtInText.toList = builtInLines.flatMap fun line => line.toList ++ ['\n'] := by
  have hline (line : String) : (line ++ "\n").toList = line.toList ++ ['\n'] := String.toList_append
  rw [builtInText, String.toList_join, List.flatMap_map]
  simp only [hline]

/-- The built-in values are those of their text. -/
theorem ofText?_builtInText : ofText? builtInText = some builtIn := by
  rw [ofText?, Toml.read?, toList_builtInText]
  decide +kernel

/-! ## Values in effect -/

theorem pollInterval_bounds (s : Settings) : 1 ≤ s.pollInterval ∧ s.pollInterval ≤ 1000 := by
  rw [pollInterval]
  omega

theorem one_le_cacheSize (s : Settings) : 1 ≤ s.cacheSize := Nat.le_max_right _ _

/-- There is no limit for creation exactly if it is set to zero: one holds unless it is set. -/
theorem creationTimeout_eq_none_iff :
    s.creationTimeout = none ↔ s.creationTimeoutSecs = some 0 := by
  have hzero : (s.creationTimeoutSecs.getD 600).toNat = 0 ↔ s.creationTimeoutSecs = some 0 := by
    cases s.creationTimeoutSecs with
    | none => decide
    | some n =>
      rw [Option.getD_some, Option.some_inj]
      exact UInt64.toNat_inj (b := 0)
  rw [creationTimeout, ← hzero]
  split
  next h => exact iff_of_true rfl h
  next h => exact iff_of_false nofun h

/-- Texts that are put above the built-in settings, whatever they are. Each of the nine settings is
what the last settings file with an entry for it has there, or else as built in, whatever the others
are. A text that is no settings file is refused and leaves all settings, and the same text once more
changes none. The options that come of it have a poll interval from 1 to 1000 milliseconds, a cache
of one object at least, and no limit for creation exactly if that setting is zero. -/
theorem layers_last_writer (texts : List String) :
    ofText? builtInText = some builtIn ∧
    (∀ k : Setting, k.LastGiven (builtIn.get k) texts ((builtIn.overlayAll texts).get k)) ∧
    (∀ (s : Settings) text, (s.merge? text = none ↔ ¬∃ document, Accepted text document) ∧
      (s.merge? text = none → ∀ k, (s.overlay text).get k = s.get k)) ∧
    (∀ (s : Settings) text, (s.overlay text).overlay text = s.overlay text) ∧
    ∀ dataDir create,
      let o := (builtIn.overlayAll texts).options dataDir create
      (1 ≤ o.pollInterval ∧ o.pollInterval ≤ 1000) ∧ 1 ≤ o.objectCacheSize ∧
        (o.creationTimeout = none ↔
          (builtIn.overlayAll texts).get .creationTimeoutSecs = some (0 : UInt64)) :=
  ⟨ofText?_builtInText, get_overlayAll builtIn texts,
    fun s text => ⟨merge?_eq_none_iff, fun h k => by rw [overlay_of_merge? h]⟩, overlay_overlay,
    fun _ _ => ⟨pollInterval_bounds _, one_le_cacheSize _, creationTimeout_eq_none_iff⟩⟩

/-- An interval that is no number is refused, although the limit beside it is one. -/
theorem layers_last_writer_refused :
    builtIn.merge? "[runtime]\ncreation_timeout_secs = 0\npoll_interval_ms = \"fast\"" = none ∧
      ∀ k, (builtIn.overlay
          "[runtime]\ncreation_timeout_secs = 0\npoll_interval_ms = \"fast\"").get k =
        builtIn.get k :=
  have hrefused : builtIn.merge?
      "[runtime]\ncreation_timeout_secs = 0\npoll_interval_ms = \"fast\"" = none := by
    decide +kernel
  ⟨hrefused, ((layers_last_writer []).2.2.1 builtIn _).2 hrefused⟩

example : (builtIn.overlayAll ["[runtime]\npoll_interval_ms = 5000", "[server]\nroot_url = 1",
    "[runtime]\ncreation_timeout_secs = 0"]).options "/srv" true =
      { builtIn.options "/srv" true with pollInterval := 1000, creationTimeout := none } := by
  decide +kernel

end Settings

end Mediatheque
