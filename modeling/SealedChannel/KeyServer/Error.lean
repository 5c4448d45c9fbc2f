import SealedChannel.Bytes

/-!
# Key-server errors

## What is here

* `KeyServer.Error` — why no key was obtained, with its text in `Error.message`.
-/

set_option autoImplicit false
namespace SealedChannel
namespace KeyServer

/-- Why no key was obtained from a key server. -/
inductive Error where
  /-- The server knows no usable key. -/
  | noValidKey
  /-- The answer holds no key block. -/
  | invalidFormat
  /-- The server could not be reached. -/
  | transport (reason : String)
  /-- The server refused. -/
  | status (code : Nat)
  deriving DecidableEq, Repr

/-- The text of an error. -/
def Error.message : Error → String
  | .noValidKey => "no valid key found"
  | .invalidFormat => "invalid format"
  | .transport reason => "key server request failed: " ++ reason
  | .status code => "key server returned status " ++ toString code

end KeyServer

end SealedChannel
