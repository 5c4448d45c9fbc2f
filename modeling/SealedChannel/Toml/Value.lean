import SealedChannel.Toml.Date
import SealedChannel.Toml.Number

/-!
# TOML keys and values

Arrays and inline tables may be nested, up to a depth.  The readers take a bound on their own
recursion, for which twice the length of the text is enough.

## What is here

* `Toml.key?` — a dotted key.
* `Toml.putInline?` — a pair of an inline table; a dotted key makes tables on its way.
* `Toml.value?` — a value.
-/

set_option autoImplicit false
namespace SealedChannel
namespace Toml

/-! ## Keys -/

/-- The number of parts of a key, and of containers within each other, that is too large. -/
def depthLimit : Nat := 80

/-- Whether a character may stand in a key without quotes. -/
def isBare (c : Char) : Bool :=
  c.isAlphanum || c == '_' || c == '-'

/-- One part of a key. -/
def part? (cs : List Char) : Option (String × List Char) :=
  match cs with
  | '"' :: _ => quotedLine? cs
  | '\'' :: _ => quotedLine? cs
  | _ =>
    let bare := cs.takeWhile isBare
    if bare.isEmpty then none else some (String.ofList bare, cs.drop bare.length)

/-- The parts of a key with points between them and blanks around each of them. -/
def parts? : Nat → List Char → Option (List String × List Char)
  | 0, _ => none
  | bound + 1, cs => do
    let (part, rest) ← part? (skipBlanks cs)
    match skipBlanks rest with
    | '.' :: rest =>
      let (parts, rest) ← parts? bound rest
      some (part :: parts, rest)
    | rest => some ([part], rest)

/-- A key: the parts before the last one, and the last one. -/
def key? (cs : List Char) : Option ((List String × String) × List Char) := do
  let (parts, rest) ← parts? (cs.length + 1) cs
  if depthLimit ≤ parts.length then none
  else
    let last ← parts.getLast?
    some ((parts.dropLast, last), rest)

/-! ## Pairs of inline tables -/

/-- The entries of an inline table with one more pair.  `isDotted` says whether a dotted key made
this table, which is how a dotted key may enter it; `path` is what is left of the key. -/
def putInline? (isDotted viaPath : Bool) (path : List String) (key : String) (item : Item)
    (es : Entries) : Option Entries :=
  match path with
  | [] =>
    if isDotted = viaPath ∧ (es.get? key).isNone then some (es.put key item) else none
  | part :: path =>
    match es.get? part with
    | none =>
      (putInline? true true path key item []).map fun inner => es.put part (.inline true inner)
    | some (.inline true inner) =>
      (putInline? true true path key item inner).map fun inner => es.put part (.inline true inner)
    | some _ => none

/-! ## Values -/

/-- A string, number, date or truth value. -/
def scalar? : List Char → Option (Scalar × List Char)
  | 't' :: 'r' :: 'u' :: 'e' :: rest => some (.boolean true, rest)
  | 'f' :: 'a' :: 'l' :: 's' :: 'e' :: rest => some (.boolean false, rest)
  | cs =>
    ((quoted? cs).map fun (s, rest) => (Scalar.text s, rest))
      |>.or (date? cs) |>.or (float? cs) |>.or (integer? cs)

mutual

/-- A value within `depth` containers. -/
def valueWithin? : Nat → Nat → List Char → Option (Item × List Char)
  | 0, _, _ => none
  | bound + 1, depth, cs =>
    match cs with
    | '[' :: rest =>
      if depthLimit ≤ depth + 1 then none else itemsWithin? bound (depth + 1) [] rest
    | '{' :: rest =>
      if depthLimit ≤ depth + 1 then none
      else
        match skipBlanks rest with
        | '}' :: rest => some (.inline false [], rest)
        | rest => pairsWithin? bound (depth + 1) [] rest
    | _ => (scalar? cs).map fun (s, rest) => (.scalar s, rest)

/-- The rest of an array after the items `done`, latest first. -/
def itemsWithin? : Nat → Nat → List Item → List Char → Option (Item × List Char)
  | 0, _, _, _ => none
  | bound + 1, depth, done, cs =>
    match skipFiller false cs with
    | ']' :: rest => some (.array done.reverse, rest)
    | cs => do
      let (item, rest) ← valueWithin? bound depth cs
      match skipFiller false rest with
      | ',' :: rest => itemsWithin? bound depth (item :: done) rest
      | ']' :: rest => some (.array (item :: done).reverse, rest)
      | _ => none

/-- The rest of an inline table, where a pair must follow. -/
def pairsWithin? : Nat → Nat → Entries → List Char → Option (Item × List Char)
  | 0, _, _, _ => none
  | bound + 1, depth, es, cs => do
    let ((path, key), rest) ← key? cs
    let rest ← after? '=' rest
    let (item, rest) ← valueWithin? bound depth (skipBlanks rest)
    let es ← putInline? false false path key item es
    match skipBlanks rest with
    | ',' :: rest => pairsWithin? bound depth es rest
    | '}' :: rest => some (.inline false es, rest)
    | _ => none

end

/-- A value. -/
def value? (cs : List Char) : Option (Item × List Char) :=
  valueWithin? (2 * cs.length + 2) 0 cs

end Toml

end SealedChannel
