import SealedChannel.Json.Decode
import SealedChannel.Settings.SocketAddress
import SealedChannel.Time.Duration

/-!
# Settings

## What is here

* `Settings` — how the service is set up, with its defaults and its JSON form.
* `SettingsError` — why settings are refused or cannot be loaded, with its text in
  `SettingsError.message`.
* `Settings.validate` — the limits and the number of locks are positive, and the key server is
  asked over HTTP.
-/

set_option autoImplicit false
namespace SealedChannel

/-! ## Errors -/

/-- Why settings are refused or cannot be loaded. -/
inductive SettingsError where
  /-- The file cannot be read. -/
  | io (reason : String)
  /-- The file is not in the right format. -/
  | toml
  /-- A value is out of place. -/
  | invalid (reason : String)
  deriving DecidableEq, Repr

/-- The text of an error. -/
def SettingsError.message : SettingsError → String
  | .io reason => "IO error: " ++ reason
  | .toml => "TOML parse error"
  | .invalid reason => "Invalid configuration: " ++ reason

/-! ## Settings -/

/-- How the service is set up. -/
structure Settings where
  listenAddress : SocketAddress
  /-- The address of the key server. -/
  keyServer : String
  /-- Whether bots may post plain messages on encrypted channels. -/
  botsMayPost : Bool
  /-- The limit of a store call, in seconds. -/
  storeSeconds : Nat
  /-- The limit of a request to the key server, in seconds. -/
  requestSeconds : Nat
  /-- The number of locks that mode changes share. -/
  modeLocks : Nat
  deriving DecidableEq, Repr

namespace Settings

/-- The settings where nothing else is said. -/
def default : Settings :=
  ⟨.v4 ⟨127, 0, 0, 1⟩ 8065, "https://keys.openpgp.org", false, 5, 5, 64⟩

instance : Inhabited Settings :=
  ⟨default⟩

/-- The limit of a store call. -/
def storeLimit (s : Settings) : Duration :=
  .ofSeconds s.storeSeconds

/-- The limit of a request to the key server. -/
def requestLimit (s : Settings) : Duration :=
  .ofSeconds s.requestSeconds

/-- Settings that the service can work with, or the first thing that is wrong with them. -/
def validate (s : Settings) : Except SettingsError Unit :=
  if s.storeSeconds = 0 then .error (.invalid "kv_timeout_secs must be > 0")
  else if s.requestSeconds = 0 then .error (.invalid "http_timeout_secs must be > 0")
  else if s.modeLocks = 0 then .error (.invalid "mode_lock_shards must be > 0")
  else if "http://".toList.isPrefixOf s.keyServer.toList
      || "https://".toList.isPrefixOf s.keyServer.toList then .ok ()
  else .error (.invalid "gpg_key_server must be an http:// or https:// URL")

/-! ## JSON -/

/-- Settings as a JSON value. -/
def toJson (s : Settings) : Json :=
  .record [("listen_addr", .ofText s.listenAddress.text), ("gpg_key_server", .ofText s.keyServer),
    ("bot_can_always_post", .bool s.botsMayPost), ("kv_timeout_secs", .ofNat s.storeSeconds),
    ("http_timeout_secs", .ofNat s.requestSeconds), ("mode_lock_shards", .ofNat s.modeLocks)]

/-- The settings of a JSON value. -/
def ofJson? (value : Json) : Option Settings := do
  let r ← Json.Record.ofJson? ["listen_addr", "gpg_key_server", "bot_can_always_post",
    "kv_timeout_secs", "http_timeout_secs", "mode_lock_shards"] value
  let listenAddress ← r.required "listen_addr" fun v => v.text?.bind SocketAddress.ofText?
  let keyServer ← r.required "gpg_key_server" Json.text?
  let botsMayPost ← r.required "bot_can_always_post" Json.bool?
  let storeSeconds ← r.required "kv_timeout_secs" Json.size?
  let requestSeconds ← r.required "http_timeout_secs" Json.size?
  let modeLocks ← r.required "mode_lock_shards" Json.size?
  some ⟨listenAddress, keyServer, botsMayPost, storeSeconds, requestSeconds, modeLocks⟩

end Settings

end SealedChannel
