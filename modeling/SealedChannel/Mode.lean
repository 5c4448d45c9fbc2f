import SealedChannel.Json.Basic

/-!
# Encryption modes

## What is here

* `Mode` — the encryption mode of a channel.
* `Mode.name`, `Mode.ofName` — the name used in requests and messages.
* `Mode.tag`, `Mode.ofTag?` — the number under which a mode is stored.
* `Mode.encode`, `Mode.decode?` — the stored form, the tag as a JSON number.
* `Mode.current` — the mode that a stored value, absent or not, stands for.
-/

set_option autoImplicit false
namespace SealedChannel

/-- The encryption mode of a channel. -/
inductive Mode where
  /-- Messages are not encrypted. -/
  | plain
  /-- Messages are encrypted between the members. -/
  | p2p
  deriving DecidableEq, Repr, Inhabited

namespace Mode

/-! ## Names and tags -/

/-- The name of a mode. -/
def name : Mode → String
  | .plain => "none"
  | .p2p => "p2p"

/-- The mode of a name; an unknown name means no encryption. -/
def ofName (name : String) : Mode :=
  if name = "p2p" then .p2p else .plain

/-- Each mode is the mode of its name. -/
theorem ofName_name (m : Mode) : ofName m.name = m := by
  cases m <;> simp [ofName, name]

/-- The number under which a mode is stored. -/
def tag : Mode → Nat
  | .plain => 0
  | .p2p => 1

/-- The mode of a number. -/
def ofTag? : Nat → Option Mode
  | 0 => some .plain
  | 1 => some .p2p
  | _ => none

/-- A number is the tag of at most one mode. -/
theorem ofTag?_eq_some_iff {n : Nat} {m : Mode} : ofTag? n = some m ↔ n = m.tag := by
  match n with
  | 0 => cases m <;> simp [ofTag?, tag]
  | 1 => cases m <;> simp [ofTag?, tag]
  | n + 2 => cases m <;> simp [ofTag?, tag]

/-! ## The stored form -/

/-- The stored form of a mode. -/
def encode (m : Mode) : Bytes :=
  Json.naturalDigits m.tag

/-- The mode of a stored value: a JSON number that is a known tag, blanks around it allowed. -/
def decode? (raw : Bytes) : Option Mode :=
  (Json.natural? (Json.strip raw)).bind ofTag?

/-- The mode that a stored value stands for; absence and an unreadable value mean no
encryption. -/
def current (raw : Option Bytes) : Mode :=
  (raw.bind decode?).getD .plain

end Mode

end SealedChannel
