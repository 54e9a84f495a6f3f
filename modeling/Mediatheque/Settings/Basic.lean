import Mediatheque.Disk.Path
import Mediatheque.Toml.Reader

/-!
# Settings of the process

The settings that hold for the whole program, as opposed to those that a database
keeps for its contexts. They come in layers: the built-in values, and texts that
override some of them. A text that is not a settings file overrides nothing.

* `Settings.merge?`: one more layer;
* `Settings.load`: the built-in values under the user's own file;
* `Settings.options`: what opening a database needs to know.
-/

namespace Mediatheque

/-- The settings that a layer gives. -/
structure Settings where
  baseDir : Option String := none
  createIfMissing : Option Bool := none
  pollIntervalMs : Option UInt64 := none
  saveDebounceMs : Option UInt64 := none
  waitForCreation : Option Bool := none
  creationTimeoutSecs : Option UInt64 := none
  objectCacheSize : Option UInt64 := none
  rootUrl : Option String := none
  radioBrowser : Option String := none
deriving DecidableEq, Inhabited

/-- What opening a database needs to know. Times are in milliseconds. -/
structure Options where
  /-- The directory that the database's own is below. -/
  baseDir : String
  /-- Whether to create a database, instead of opening one. -/
  create : Bool
  pollInterval : Nat
  saveDebounce : Nat
  waitForCreation : Bool
  creationTimeout : Option Nat
  /-- The address of the own server, in front of the paths of exported files. -/
  serverUrl : Option String
  radioBrowserServer : String
  objectCacheSize : Nat
deriving DecidableEq, Inhabited

namespace Toml

/-! ## Reading records -/

/-- The entries of a table; an array gives them in the order of some names. -/
def fields? (names : List String) : Toml → Option (List (String × Toml))
  | array items => if names.length ≤ items.length then some (names.zip items) else none
  | v => v.entries?

/-- An entry that may be missing. -/
def entry? {α : Type} (entries : List (String × Toml)) (name : String) (read : Toml → Option α) :
    Option (Option α) :=
  match entries.lookup name with
  | none => some none
  | some v => (read v).map some

def string? : Toml → Option String
  | string s => some s
  | _ => none

def boolean? : Toml → Option Bool
  | boolean b => some b
  | _ => none

/-- An integer that is not negative. -/
def natural? : Toml → Option UInt64
  | integer i => if 0 ≤ i.toInt then some (.ofNat i.toInt.toNat) else none
  | _ => none

end Toml

namespace Settings

/-! ## Layers -/

/-- The built-in values. The base directory and the server have none. -/
def builtIn : Settings where
  createIfMissing := some true
  pollIntervalMs := some 50
  saveDebounceMs := some 3000
  waitForCreation := some true
  creationTimeoutSecs := some 600
  objectCacheSize := some 4096
  radioBrowser := some "de1.api.radio-browser.info"

/-- The entries of a section, none if the section is missing. -/
def section? (document : List (String × Toml)) (name : String) (names : List String) :
    Option (List (String × Toml)) :=
  match document.lookup name with
  | none => some []
  | some v => v.fields? names

/-- The layer that a document gives. Entries of other names are passed over. -/
def ofDocument? (document : List (String × Toml)) : Option Settings := do
  let database ← section? document "database" ["base_dir", "create_if_missing"]
  let baseDir ← Toml.entry? database "base_dir" Toml.string?
  let createIfMissing ← Toml.entry? database "create_if_missing" Toml.boolean?
  let runtime ← section? document "runtime" ["poll_interval_ms", "save_debounce_ms",
    "wait_for_creation", "creation_timeout_secs", "object_cache_size"]
  let pollIntervalMs ← Toml.entry? runtime "poll_interval_ms" Toml.natural?
  let saveDebounceMs ← Toml.entry? runtime "save_debounce_ms" Toml.natural?
  let waitForCreation ← Toml.entry? runtime "wait_for_creation" Toml.boolean?
  let creationTimeoutSecs ← Toml.entry? runtime "creation_timeout_secs" Toml.natural?
  let objectCacheSize ← Toml.entry? runtime "object_cache_size" Toml.natural?
  let server ← section? document "server" ["root_url", "radio_browser"]
  let rootUrl ← Toml.entry? server "root_url" Toml.string?
  let radioBrowser ← Toml.entry? server "radio_browser" Toml.string?
  some ⟨baseDir, createIfMissing, pollIntervalMs, saveDebounceMs, waitForCreation,
    creationTimeoutSecs, objectCacheSize, rootUrl, radioBrowser⟩

/-- The layer that a text gives. -/
def ofText? (text : String) : Option Settings := Toml.read? text >>= ofDocument?

/-- Puts a layer above another: what the upper one gives counts. -/
def merge (lower upper : Settings) : Settings where
  baseDir := upper.baseDir <|> lower.baseDir
  createIfMissing := upper.createIfMissing <|> lower.createIfMissing
  pollIntervalMs := upper.pollIntervalMs <|> lower.pollIntervalMs
  saveDebounceMs := upper.saveDebounceMs <|> lower.saveDebounceMs
  waitForCreation := upper.waitForCreation <|> lower.waitForCreation
  creationTimeoutSecs := upper.creationTimeoutSecs <|> lower.creationTimeoutSecs
  objectCacheSize := upper.objectCacheSize <|> lower.objectCacheSize
  rootUrl := upper.rootUrl <|> lower.rootUrl
  radioBrowser := upper.radioBrowser <|> lower.radioBrowser

/-- Puts the layer that a text gives above the others, unless the text gives none. -/
def merge? (s : Settings) (text : String) : Option Settings := (ofText? text).map s.merge

/-- The built-in values under the user's own file. A file that gives no layer is passed
over. -/
def load (userFile : Option String) : Settings :=
  ((userFile.bind builtIn.merge?)).getD builtIn

/-! ## Values in effect -/

/-- The time that an idle loop sleeps, between 1 and 1000 milliseconds. -/
def pollInterval (s : Settings) : Nat := min (max (s.pollIntervalMs.getD 50).toNat 1) 1000

def saveDebounce (s : Settings) : Nat := (s.saveDebounceMs.getD 3000).toNat

/-- The time that creation may take in milliseconds; zero stands for no limit. -/
def creationTimeout (s : Settings) : Option Nat :=
  let secs := (s.creationTimeoutSecs.getD 600).toNat
  if secs = 0 then none else some (secs * 1000)

def cacheSize (s : Settings) : Nat := max (s.objectCacheSize.getD 4096).toNat 1

def radioBrowserServer (s : Settings) : String :=
  s.radioBrowser.getD "de1.api.radio-browser.info"

def createsIfMissing (s : Settings) : Bool := s.createIfMissing.getD true

/-- What opening a database needs to know. The base directory that holds unless a layer
gives one is the directory for the user's data. -/
def options (s : Settings) (dataDir : String) (create : Bool) : Options where
  baseDir := s.baseDir.getD dataDir
  create := create
  pollInterval := s.pollInterval
  saveDebounce := s.saveDebounce
  waitForCreation := s.waitForCreation.getD true
  creationTimeout := s.creationTimeout
  serverUrl := s.rootUrl
  radioBrowserServer := s.radioBrowserServer
  objectCacheSize := s.cacheSize

end Settings

/-- The built-in options for a database below a directory. -/
def Options.new (baseDir : String) : Options := Settings.builtIn.options baseDir false

end Mediatheque
