import SealedChannel.Time.Duration

/-!
# Store errors

## What is here

* `StoreError` — why a store call failed, with its text in `StoreError.message`.
-/

set_option autoImplicit false
namespace SealedChannel

/-- Why a store call failed. -/
inductive StoreError where
  /-- The store itself failed. -/
  | backend (reason : String)
  /-- The call took longer than its limit. -/
  | timeout (limit : Duration)
  /-- Other writers kept changing the value under the key. -/
  | conflict (key : String)
  /-- The store does not offer the operation. -/
  | unsupported (operation : String)
  deriving DecidableEq, Repr

/-- The text of an error. -/
def StoreError.message : StoreError → String
  | .backend reason => "storage operation failed: " ++ reason
  | .timeout limit => "storage operation timed out after " ++ limit.text
  | .conflict key => "concurrent update conflict on key " ++ key
  | .unsupported operation => "storage operation not supported: " ++ operation

end SealedChannel
