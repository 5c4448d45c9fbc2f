import SealedChannel.Bytes

/-!
# Socket addresses

The address on which the service listens: four octets or eight groups of 16 bits, and a port.

## What is here

* `SocketAddress` — the addresses.
* `SocketAddress.text` — the longest run of zero groups is left out, and a mapped address shows its
  octets.
* `SocketAddress.ofText?` — reads every spelling of an address; octets may have no leading zero.
-/

set_option autoImplicit false
namespace SealedChannel

/-! ## Addresses -/

/-- Four octets. -/
structure Octets where
  a : UInt8
  b : UInt8
  c : UInt8
  d : UInt8
  deriving DecidableEq, Repr

/-- Eight groups of 16 bits. -/
structure Groups where
  groups : List UInt16
  length_eq : groups.length = 8
  deriving DecidableEq, Repr

/-- An address with a port. -/
inductive SocketAddress where
  | v4 (octets : Octets) (port : UInt16)
  | v6 (groups : Groups) (scope : UInt32) (port : UInt16)
  deriving DecidableEq, Repr

/-! ## Writing -/

/-- Octets with points between them. -/
def Octets.text (o : Octets) : String :=
  toString o.a ++ "." ++ toString o.b ++ "." ++ toString o.c ++ "." ++ toString o.d

namespace Groups

/-- Groups with colons between them. -/
def joined (gs : List UInt16) : String :=
  ":".intercalate (gs.map fun g => String.ofList (Nat.toDigits 16 g.toNat))

/-- The first of the longest runs of zeros, as its start and length, from position `i` on. `best` is
the longest run so far, and `run` the length of the run that ends here. -/
def zeroRun (i : Nat) (best : Nat × Nat) (run : Nat) : List UInt16 → Nat × Nat
  | [] => best
  | g :: gs =>
    if g = 0 then
      let run := run + 1
      zeroRun (i + 1) (if best.2 < run then (i + 1 - run, run) else best) run gs
    else zeroRun (i + 1) best 0 gs

/-- The octets of an address that maps them. -/
def mapped? (g : Groups) : Option Octets :=
  match g.groups with
  | [0, 0, 0, 0, 0, 0xFFFF, x, y] =>
    some ⟨(x >>> 8).toUInt8, x.toUInt8, (y >>> 8).toUInt8, y.toUInt8⟩
  | _ => none

/-- The text of groups: a run of at least two zeros is left out. -/
def text (g : Groups) : String :=
  match g.mapped? with
  | some octets => "::ffff:" ++ octets.text
  | none =>
    let (start, length) := zeroRun 0 (0, 0) 0 g.groups
    if 1 < length then
      joined (g.groups.take start) ++ "::" ++ joined (g.groups.drop (start + length))
    else joined g.groups

end Groups

namespace SocketAddress

/-- The text of an address. -/
def text : SocketAddress → String
  | .v4 octets port => octets.text ++ ":" ++ toString port
  | .v6 groups scope port =>
    let zone := if scope = 0 then "" else "%" ++ toString scope
    "[" ++ groups.text ++ zone ++ "]:" ++ toString port

/-! ## Reading -/

/-- The value of a digit in a base of at most 16. -/
def digit? (base : Nat) (c : Char) : Option Nat :=
  let n := c.toNat
  let value :=
    if 48 ≤ n ∧ n ≤ 57 then n - 48
    else if 97 ≤ n ∧ n ≤ 102 then n - 87
    else if 65 ≤ n ∧ n ≤ 70 then n - 55
    else base
  if value < base then some value else none

/-- A number of at most `width` digits, and what follows it. -/
def number? (base limit : Nat) (width : Option Nat) (zeros : Bool) (cs : List Char) :
    Option (Nat × List Char) :=
  let ds := cs.takeWhile fun c => (digit? base c).isSome
  let value := ds.foldl (fun n c => base * n + (digit? base c).getD 0) 0
  let tooWide :=
    match width with
    | none => false
    | some width => width < ds.length
  if ds.isEmpty || tooWide then none
  else if !zeros && ds.head? == some '0' && 1 < ds.length then none
  else if value ≤ limit then some (value, cs.drop ds.length)
  else none

/-- What follows a given character. -/
def after? (c : Char) : List Char → Option (List Char)
  | [] => none
  | x :: rest => if x = c then some rest else none

/-- One octet: at most three digits without a leading zero. -/
def octet? (cs : List Char) : Option (UInt8 × List Char) :=
  (number? 10 255 (some 3) false cs).map fun (n, rest) => (UInt8.ofNat n, rest)

/-- Four octets with points between them. -/
def octets? (cs : List Char) : Option (Octets × List Char) := do
  let (a, rest) ← octet? cs
  let (b, rest) ← octet? (← after? '.' rest)
  let (c, rest) ← octet? (← after? '.' rest)
  let (d, rest) ← octet? (← after? '.' rest)
  some (⟨a, b, c, d⟩, rest)

/-- One group: at most four hexadecimal digits. -/
def group? (cs : List Char) : Option (UInt16 × List Char) :=
  (number? 16 0xFFFF (some 4) true cs).map fun (n, rest) => (UInt16.ofNat n, rest)

/-- What may be read next: the text itself at the start, else the text after a colon. -/
def afterColon? (isFirst : Bool) (cs : List Char) : Option (List Char) :=
  if isFirst then some cs else after? ':' cs

/-- Up to `slots` groups with colons between them, whether they end in octets, which stand for two
groups, and what follows them. -/
def groupsFrom : Nat → Bool → List Char → List UInt16 × Bool × List Char
  | 0, _, cs => ([], false, cs)
  | slots + 1, isFirst, cs =>
    let start := afterColon? isFirst cs
    match if slots = 0 then none else start.bind octets? with
    | some (o, rest) =>
      ([o.a.toUInt16 * 256 + o.b.toUInt16, o.c.toUInt16 * 256 + o.d.toUInt16], true, rest)
    | none =>
      match start.bind group? with
      | some (g, rest) =>
        let (gs, hasOctets, rest) := groupsFrom slots false rest
        (g :: gs, hasOctets, rest)
      | none => ([], false, cs)

/-- Eight groups, of which two colons may leave out a run of zeros. -/
def groups? (cs : List Char) : Option (Groups × List Char) := do
  let (head, hasOctets, rest) := groupsFrom 8 true cs
  if h : head.length = 8 then some (⟨head, h⟩, rest)
  else if hasOctets then none
  else
    let rest ← after? ':' (← after? ':' rest)
    let (tail, _, rest) := groupsFrom (7 - head.length) true rest
    let all := head ++ List.replicate (8 - head.length - tail.length) 0 ++ tail
    if h : all.length = 8 then some (⟨all, h⟩, rest) else none

/-- A colon and a port, at the end of the text. -/
def port? (cs : List Char) : Option UInt16 := do
  let (n, rest) ← number? 10 0xFFFF none true (← after? ':' cs)
  if rest.isEmpty then some (UInt16.ofNat n) else none

/-- A scope, if there is one, and what follows it. -/
def scopeOf (cs : List Char) : UInt32 × List Char :=
  match (after? '%' cs).bind (number? 10 0xFFFFFFFF none true) with
  | some (n, rest) => (UInt32.ofNat n, rest)
  | none => (0, cs)

/-- An address with octets. -/
def ofChars4? (cs : List Char) : Option SocketAddress := do
  let (octets, rest) ← octets? cs
  some (.v4 octets (← port? rest))

/-- An address with groups, in brackets. -/
def ofChars6? (cs : List Char) : Option SocketAddress := do
  let (groups, rest) ← groups? (← after? '[' cs)
  let (scope, rest) := scopeOf rest
  some (.v6 groups scope (← port? (← after? ']' rest)))

/-- The address of a text. -/
def ofText? (s : String) : Option SocketAddress :=
  (ofChars4? s.toList).or (ofChars6? s.toList)

end SocketAddress

end SealedChannel
