import SealedChannel.Json.Decode

/-!
# Slash commands

## What is here

* `SlashCommand` — how a slash command is announced to the platform, with its JSON form.
* `Invocation` — one use of a slash command.
-/

set_option autoImplicit false
namespace SealedChannel

/-- How a slash command is announced to the platform. -/
structure SlashCommand where
  trigger : String
  displayName : String
  description : String
  autoComplete : Bool
  autoCompleteDesc : String
  autoCompleteHint : String
  deriving DecidableEq, Repr, Inhabited

namespace SlashCommand

/-- A slash command as a JSON value. -/
def toJson (c : SlashCommand) : Json :=
  .record [("trigger", .ofText c.trigger), ("display_name", .ofText c.displayName),
    ("description", .ofText c.description), ("auto_complete", .bool c.autoComplete),
    ("auto_complete_desc", .ofText c.autoCompleteDesc),
    ("auto_complete_hint", .ofText c.autoCompleteHint)]

/-- The slash command of a JSON value. -/
def ofJson? (value : Json) : Option SlashCommand := do
  let r ← Json.Record.ofJson? ["trigger", "display_name", "description", "auto_complete",
    "auto_complete_desc", "auto_complete_hint"] value
  let trigger ← r.required "trigger" Json.text?
  let displayName ← r.required "display_name" Json.text?
  let description ← r.required "description" Json.text?
  let autoComplete ← r.required "auto_complete" Json.bool?
  let autoCompleteDesc ← r.required "auto_complete_desc" Json.text?
  let autoCompleteHint ← r.required "auto_complete_hint" Json.text?
  some ⟨trigger, displayName, description, autoComplete, autoCompleteDesc, autoCompleteHint⟩

end SlashCommand

/-- One use of a slash command: who typed what in which channel. -/
structure Invocation where
  userId : String
  channelId : String
  line : String
  deriving DecidableEq, Repr, Inhabited

end SealedChannel
