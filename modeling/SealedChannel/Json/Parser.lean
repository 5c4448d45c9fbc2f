import SealedChannel.Json.Basic

/-!
# Reading JSON

The parser is a machine with a stack: it takes one byte at a time and keeps the containers that are
still open, so a document may be nested to any depth.  It checks the grammar only.  Strings may
hold any bytes but quotes, backslashes and control characters, and any escape with four hexadecimal
digits.

## What is here

* `Json.Container` — an array or object that is still open.
* `Json.Phase` — where in a number the machine stands.
* `Json.State`, `Json.Machine` — what the machine expects, with `Machine.step`.
* `Json.parse?` — the value of a whole document, blanks around it allowed.
-/

set_option autoImplicit false
namespace SealedChannel
namespace Json

/-! ## Numbers -/

/-- Where in a number the machine stands. -/
inductive Phase where
  /-- After the minus sign. -/
  | sign
  /-- After a zero at the front. -/
  | zero
  /-- Among the digits before the point. -/
  | whole
  /-- After the point. -/
  | point
  /-- Among the digits after the point. -/
  | fraction
  /-- After the letter of the exponent. -/
  | letter
  /-- After the sign of the exponent. -/
  | powerSign
  /-- Among the digits of the exponent. -/
  | power
  deriving DecidableEq, Repr

/-- The phase after one more byte of the number, `none` for a byte that does not continue it. -/
def Phase.next? (p : Phase) (b : UInt8) : Option Phase :=
  let isE := b == 0x65 || b == 0x45
  match p with
  | .sign => if b == 0x30 then some .zero else if isDigit b then some .whole else none
  | .zero => if b == 0x2E then some .point else if isE then some .letter else none
  | .whole =>
    if isDigit b then some .whole else if b == 0x2E then some .point
    else if isE then some .letter else none
  | .point => if isDigit b then some .fraction else none
  | .fraction => if isDigit b then some .fraction else if isE then some .letter else none
  | .letter =>
    if isDigit b then some .power else if b == 0x2B || b == 0x2D then some .powerSign else none
  | .powerSign => if isDigit b then some .power else none
  | .power => if isDigit b then some .power else none

/-- Whether a number may end here; a zero at the front may not be followed by a digit. -/
def Phase.mayEnd (p : Phase) : Bool :=
  match p with
  | .zero | .whole | .fraction | .power => true
  | .sign | .point | .letter | .powerSign => false

/-! ## The machine -/

/-- A container that is still open, with what has been read of it, latest first. -/
inductive Container where
  | array (items : List Json)
  | object (members : List (Bytes × Json)) (name : Bytes)

/-- How much of an escape has been read. -/
inductive Escape where
  | outside
  | started
  | hex (owed : Nat)
  deriving DecidableEq, Repr

/-- What the machine expects. -/
inductive State where
  /-- A value must begin. -/
  | value
  /-- After `[`: a value begins or the array ends. -/
  | itemOrEnd
  /-- After the brace: a name begins or the object ends. -/
  | nameOrEnd
  /-- After a comma in the object with these members: a name must begin. -/
  | name (members : List (Bytes × Json))
  /-- Within the string of a value, with its bytes, latest first. -/
  | text (raw : Bytes) (escape : Escape)
  /-- Within a name, with its bytes, latest first. -/
  | nameText (members : List (Bytes × Json)) (raw : Bytes) (escape : Escape)
  /-- After a name: the colon must follow. -/
  | colon (members : List (Bytes × Json)) (name : Bytes)
  /-- Within a word, with the bytes still owed and the value it stands for. -/
  | word (owed : Bytes) (value : Json)
  /-- Within a number, with its bytes, latest first. -/
  | number (phase : Phase) (raw : Bytes)
  /-- After a value. -/
  | after (value : Json)

/-- The machine: the open containers, innermost first, and what it expects. -/
structure Machine where
  opened : List Container
  state : State

namespace Machine

/-- The machine before the first byte. -/
def start : Machine :=
  ⟨[], .value⟩

/-- Begins a value. -/
def beginValue (opened : List Container) (b : UInt8) : Option Machine :=
  if b == 0x22 then some ⟨opened, .text [] .outside⟩
  else if b == 0x5B then some ⟨opened, .itemOrEnd⟩
  else if b == 0x7B then some ⟨opened, .nameOrEnd⟩
  else if b == 0x2D then some ⟨opened, .number .sign [b]⟩
  else if b == 0x30 then some ⟨opened, .number .zero [b]⟩
  else if isDigit b then some ⟨opened, .number .whole [b]⟩
  else if b == 0x6E then some ⟨opened, .word (Bytes.ofText "ull") .null⟩
  else if b == 0x74 then some ⟨opened, .word (Bytes.ofText "rue") (.bool true)⟩
  else if b == 0x66 then some ⟨opened, .word (Bytes.ofText "alse") (.bool false)⟩
  else none

/-- Takes a byte after a value. -/
def afterValue (opened : List Container) (value : Json) (b : UInt8) : Option Machine :=
  if isSpace b then some ⟨opened, .after value⟩
  else
    match opened with
    | [] => none
    | .array items :: outer =>
      if b == 0x2C then some ⟨.array (value :: items) :: outer, .value⟩
      else if b == 0x5D then some ⟨outer, .after (.array (value :: items).reverse)⟩
      else none
    | .object members name :: outer =>
      if b == 0x2C then some ⟨outer, .name ((name, value) :: members)⟩
      else if b == 0x7D then some ⟨outer, .after (.object ((name, value) :: members).reverse)⟩
      else none

/-- One more byte of a string: `none` if it is not allowed, else how much of an escape has then
been read. -/
def textByte (escape : Escape) (b : UInt8) : Option Escape :=
  match escape with
  | .outside => if b == 0x5C then some .started else if b < 0x20 then none else some .outside
  | .started =>
    if b == 0x75 then some (.hex 4)
    else if Bytes.ofText "\"\\/bfnrt" |>.contains b then some .outside
    else none
  | .hex owed =>
    let n := b.toNat
    if isDigit b || (65 ≤ n && n ≤ 70) || (97 ≤ n && n ≤ 102) then
      some (if owed ≤ 1 then .outside else .hex (owed - 1))
    else none

/-- Takes one byte, `none` if the grammar does not allow it. -/
def step (m : Machine) (b : UInt8) : Option Machine :=
  match m.state with
  | .value => if isSpace b then some m else beginValue m.opened b
  | .itemOrEnd =>
    if isSpace b then some m
    else if b == 0x5D then some ⟨m.opened, .after (.array [])⟩
    else beginValue (.array [] :: m.opened) b
  | .nameOrEnd =>
    if isSpace b then some m
    else if b == 0x7D then some ⟨m.opened, .after (.object [])⟩
    else if b == 0x22 then some ⟨m.opened, .nameText [] [] .outside⟩
    else none
  | .name members =>
    if isSpace b then some m
    else if b == 0x22 then some ⟨m.opened, .nameText members [] .outside⟩
    else none
  | .text raw escape =>
    if escape = .outside ∧ b = 0x22 then some ⟨m.opened, .after (.string raw.reverse)⟩
    else (textByte escape b).map fun escape => ⟨m.opened, .text (b :: raw) escape⟩
  | .nameText members raw escape =>
    if escape = .outside ∧ b = 0x22 then some ⟨m.opened, .colon members raw.reverse⟩
    else (textByte escape b).map fun escape => ⟨m.opened, .nameText members (b :: raw) escape⟩
  | .colon members name =>
    if isSpace b then some m
    else if b == 0x3A then some ⟨.object members name :: m.opened, .value⟩
    else none
  | .word owed value =>
    match owed with
    | [] => afterValue m.opened value b
    | c :: rest =>
      if b = c then
        some ⟨m.opened, if rest.isEmpty then .after value else .word rest value⟩
      else none
  | .number phase raw =>
    match phase.next? b with
    | some phase => some ⟨m.opened, .number phase (b :: raw)⟩
    | none => if phase.mayEnd then afterValue m.opened (.number raw.reverse) b else none
  | .after value => afterValue m.opened value b

/-- The value of a document that ends here. -/
def finish? (m : Machine) : Option Json :=
  match m.opened, m.state with
  | [], .after value => some value
  | [], .number phase raw => if phase.mayEnd then some (.number raw.reverse) else none
  | _, _ => none

end Machine

/-! ## Documents -/

/-- The machine after a byte string. -/
def scan (m : Option Machine) (bs : Bytes) : Option Machine :=
  bs.foldl (fun m b => m.bind (·.step b)) m

/-- The value of a document: blanks, one value, blanks. -/
def parse? (bs : Bytes) : Option Json :=
  (scan (some .start) bs).bind Machine.finish?

end Json

end SealedChannel
