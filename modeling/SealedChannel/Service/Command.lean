import SealedChannel.Service.Basic
import SealedChannel.Storage.Backups
import SealedChannel.Text.Blank

/-!
# The slash command

## What is here

* `Service.helpText` — what the command answers to a request for help.
* `Service.execute` — runs a slash command; a line that begins with another word is ignored.
-/

set_option autoImplicit false
namespace SealedChannel
namespace Service

/-- The help text. -/
def helpText : String :=
  "###### Mattermost E2EE Plugin - Slash command help\n"
    ++ "* |/e2ee help| - print this help message.\n"
    ++ "* |/e2ee init [--force] [gpg key fingerprint]| - initialize E2EE for your account. "
    ++ "This will generate a new key for your session. Use --force to erase an existing key.\n"
    ++ "* |/e2ee activate| - encrypt the messages you send in this channel.\n"
    ++ "* |/e2ee deactivate| - do not encrypt the messages you send in this channel.\n"
    ++ "* |/e2ee import [private_key]| - import your private key into this device.\n"
    ++ "* |/e2ee show_backup| - show saved encrypted GPG backup.\n"

/-- Answers a command with a post that its user alone sees. -/
def reply (s : Service) (call : Invocation) (text : String) : Operation ServiceError Unit := do
  let _ ← ask (.sendEphemeralPost call.userId (s.botPost call.channelId text))
  return ()

/-- Runs a subcommand. -/
def executeWord (s : Service) (call : Invocation) (word : String) :
    Operation ServiceError Unit := do
  if word = "help" then s.reply call helpText
  else if word = "show_backup" then
    let some backup ← Operation.wrap .store (Backups.get s.limit call.userId) | throw .noBackup
    s.reply call backup
  else throw (.unknownCommand word)

/-- Runs a slash command.  Without a subcommand it is a request for help. -/
def execute (s : Service) (call : Invocation) : Operation ServiceError Unit :=
  match (Text.words call.line.toList).map String.ofList with
  | "/e2ee" :: word :: _ => s.executeWord call word
  | ["/e2ee"] => s.executeWord call "help"
  | _ => return ()

end Service

end SealedChannel
