import SealedChannel.Settings.Basic
import SealedChannel.Settings.Files
import SealedChannel.Storage.Table
import SealedChannel.Text.Numeral
import SealedChannel.Toml.Document

/-!
# Loading settings

Settings start from their defaults; environment variables change them, then a TOML file if a
variable names one.  The result must be valid.

## What is here

* `Settings.ofVariables` — the settings that environment variables make of others.
* `Settings.withToml` — the settings that a document makes of others.  Its keys are applied in a
  fixed order, and those before an error stay applied.
* `Settings.withFile` — the same for a file.
* `Settings.load` — the whole process.
-/

set_option autoImplicit false
namespace SealedChannel

namespace Settings

/-- One change to settings, which may be impossible. -/
abbrev Change := Settings → Except SettingsError Settings

/-! ## Environment variables -/

/-- The text of a variable; a variable that holds no text counts as absent. -/
def textOf? (env : Table Bytes) (name : String) : Option String :=
  (env.get? name).bind Utf8.decode?

/-- The address to listen on, from a text. -/
def address (what text : String) : Except SettingsError SocketAddress :=
  match SocketAddress.ofText? text with
  | some a => .ok a
  | none => .error (.invalid (what ++ ": invalid socket address syntax"))

/-- The number of 64 bits that a variable writes. -/
def number (field text : String) : Except SettingsError Nat :=
  match Numeral.natural (UInt64.size - 1) text.toList with
  | .ok n => .ok n
  | .error e => .error (.invalid ("Invalid " ++ field ++ ": " ++ e.message))

/-- The truth value that a text names. -/
def truth? (text : String) : Option Bool :=
  if text = "true" then some true else if text = "false" then some false else none

/-- A change by the text of a variable, if it is there. -/
def byVariable (env : Table Bytes) (name : String) (change : String → Change) : Change := fun s =>
  match textOf? env name with
  | none => .ok s
  | some text => change text s

/-- The settings that the environment variables make of others. -/
def ofVariables (env : Table Bytes) (s : Settings) : Except SettingsError Settings := do
  let s ← byVariable env "E2EE_LISTEN_ADDR" (fun text s => do
    let a ← address "Invalid listen_addr" text
    return { s with listenAddress := a }) s
  let s ← byVariable env "E2EE_GPG_KEY_SERVER" (fun text s =>
    .ok { s with keyServer := text }) s
  let s ← byVariable env "E2EE_BOT_CAN_ALWAYS_POST" (fun text s =>
    .ok { s with botsMayPost := (truth? text).getD s.botsMayPost }) s
  let s ← byVariable env "E2EE_KV_TIMEOUT_SECS" (fun text s => do
    let n ← number "kv_timeout_secs" text
    return { s with storeSeconds := n }) s
  let s ← byVariable env "E2EE_HTTP_TIMEOUT_SECS" (fun text s => do
    let n ← number "http_timeout_secs" text
    return { s with requestSeconds := n }) s
  byVariable env "E2EE_MODE_LOCK_SHARDS" (fun text s => do
    let n ← number "mode_lock_shards" text
    return { s with modeLocks := n }) s

/-! ## TOML -/

/-- A number of a document, which must not be negative. -/
def natural (field : String) (n : Int) : Except SettingsError Nat :=
  if n < 0 then .error (.invalid (field ++ " must not be negative")) else .ok n.toNat

/-- The changes that a document asks for, in the order in which they are applied.  A value of
another type than expected is passed over. -/
def changesOf (doc : Toml.Content) : List Change :=
  let change {α : Type} (value : Option α) (f : α → Change) : List Change :=
    (value.map f).toList
  change (doc.text? "listen_addr") (fun text s => do
      let a ← address "Invalid listen_addr in TOML" text
      return { s with listenAddress := a })
    ++ change (doc.text? "gpg_key_server") (fun text s => .ok { s with keyServer := text })
    ++ change (doc.boolean? "bot_can_always_post") (fun b s => .ok { s with botsMayPost := b })
    ++ change (doc.integer? "kv_timeout_secs") (fun n s => do
      let n ← natural "kv_timeout_secs" n
      return { s with storeSeconds := n })
    ++ change (doc.integer? "http_timeout_secs") (fun n s => do
      let n ← natural "http_timeout_secs" n
      return { s with requestSeconds := n })
    ++ change (doc.integer? "mode_lock_shards") (fun n s => do
      let n ← natural "mode_lock_shards" n
      return { s with modeLocks := n })

/-- The settings after some changes, up to the first one that is impossible, and its error. -/
def applyAll : List Change → Settings → Settings × Option SettingsError
  | [], s => (s, none)
  | change :: rest, s =>
    match change s with
    | .ok s => applyAll rest s
    | .error e => (s, some e)

/-- The settings that a document makes of others, and the error that stopped it. -/
def withToml (text : String) (s : Settings) : Settings × Option SettingsError :=
  match Toml.parse? text with
  | some doc => applyAll (changesOf doc) s
  | none => (s, some .toml)

/-- The settings that a file makes of others, and the error that stopped it. -/
def withFile (content : Except FileError Bytes) (s : Settings) :
    Settings × Option SettingsError :=
  match textOfFile content with
  | .ok text => withToml text s
  | .error e => (s, some (.io e.message))

/-! ## Loading -/

/-- The settings of an environment, in which a variable may name one of the files. -/
def load (env : Table Bytes) (files : Files) : Except SettingsError Settings := do
  let s ← ofVariables env default
  let s ←
    match textOf? env "E2EE_CONFIG" with
    | none => pure s
    | some path =>
      match withFile (files.read path) s with
      | (s, none) => pure s
      | (_, some e) => throw e
  s.validate
  return s

end Settings

end SealedChannel
