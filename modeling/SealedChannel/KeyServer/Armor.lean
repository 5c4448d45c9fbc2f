import SealedChannel.KeyServer.Error
import SealedChannel.Text.Split

/-!
# Armored key blocks

A key server sends a key as a block of text between two fixed lines, often inside a web page.

## What is here

* `Armor.header`, `Armor.footer` — the two lines.
* `Armor.extract` — the first block of a text, with everything around it dropped.
-/

set_option autoImplicit false
namespace SealedChannel
namespace KeyServer
namespace Armor

/-- The line that begins a block. -/
def header : List Char :=
  "-----BEGIN PGP PUBLIC KEY BLOCK-----".toList

/-- The line that ends a block. -/
def footer : List Char :=
  "-----END PGP PUBLIC KEY BLOCK-----".toList

/-- The block that begins with the first header of a text and ends with the first footer after
it. -/
def extractChars? (cs : List Char) : Option (List Char) := do
  let body := (← Text.findTail? header cs).drop header.length
  let rest ← Text.findTail? footer body
  some (header ++ body.take (body.length - rest.length) ++ footer)

/-- The first block of a text. -/
def extract (text : String) : Except Error String :=
  match extractChars? text.toList with
  | some cs => .ok (String.ofList cs)
  | none => .error .invalidFormat

end Armor

end KeyServer

end SealedChannel
