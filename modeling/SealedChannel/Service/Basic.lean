import SealedChannel.Service.Error
import SealedChannel.Settings.Basic
import SealedChannel.Storage.Modes

/-!
# The service

The service lets the members of a chat publish keys and switch channels to encryption.  It acts in
the chat through an account of its own.

## What is here

* `Diagnostics` — what is said about bytes that cannot be read.
* `Service` — the settings and what the service has learned since it was set up.
* `Service.modes`, `Service.limit` — how it reads and changes modes, and the limit of a store call.
* `Service.activate` — announces the slash command and obtains the service's own account.
-/

set_option autoImplicit false
namespace SealedChannel

/-- What is said about bytes that cannot be read, by what is to be read.  The texts are those of the
reader, and they are passed on as they are. -/
structure Diagnostics where
  keyPair : Json.Diagnosis
  push : Json.Diagnosis
  userIds : Json.Diagnosis

/-- A reader that gives no reasons. -/
def Diagnostics.silent : Diagnostics :=
  ⟨fun _ => "", fun _ => "", fun _ => ""⟩

/-- The service. -/
structure Service where
  settings : Settings
  /-- Whether the store offers compare-and-set. -/
  atomic : Bool
  /-- The number from which the lock of a channel is taken. -/
  spread : String → Nat
  diagnostics : Diagnostics
  /-- The id of the service's own account, once it is known. -/
  botId : Option String

namespace Service

/-- A service that has not been activated yet. -/
def new (settings : Settings) (atomic : Bool) (diagnostics : Diagnostics := .silent) : Service :=
  ⟨settings, atomic, Modes.defaultSpread, diagnostics, none⟩

/-- The limit of a store call. -/
def limit (s : Service) : Duration :=
  s.settings.storeLimit

/-- How the service reads and changes modes. -/
def modes (s : Service) : Modes :=
  ⟨s.limit, s.atomic, s.settings.modeLocks, s.spread⟩

/-- The id of the service's own account; empty before it is known. -/
def botUserId (s : Service) : String :=
  s.botId.getD ""

/-- A post by the service. -/
def botPost (s : Service) (channelId message : String) : Post :=
  .draft s.botUserId channelId message

/-- The slash command of the service. -/
def command : SlashCommand :=
  ⟨"e2ee", "e2ee", "End to end message encryption", true, "Available commands: init import help",
    "[command][subcommands]"⟩

/-- The account of the service. -/
def bot : BotSpec :=
  ⟨"e2ee", "E2EE", "Created by the E2EE plugin."⟩

/-- A call to the platform on behalf of the service. -/
def ask (c : HostCall) : Operation ServiceError c.Answer :=
  .wrap .host (.host c)

/-- Announces the slash command and obtains the service's own account.  An account that is known
already is kept. -/
def activate (s : Service) : Operation ServiceError Service := do
  let _ ← ask (.registerCommand command)
  let id : String ← ask (.ensureBot bot)
  return { s with botId := some (s.botId.getD id) }

end Service

end SealedChannel
