import SealedChannel.Toml.Content
import SealedChannel.Toml.Value

/-!
# TOML documents

A document is a list of lines: pairs, headers of tables, headers of elements of an array of tables,
comments and empty lines.  No table may be defined twice, and no key either.

## What is here

* `Toml.within?` — changes the entries at a path, making tables on the way.
* `Toml.Draft` — a document of which some lines have been read, with `Draft.pair?` and
  `Draft.header?`.
* `Toml.parse?` — the content of a document.
-/

set_option autoImplicit false
namespace SealedChannel
namespace Toml

/-! ## Walking along a path -/

/-- What follows a path of keys is given to `change`, with the form of the table there.  A dotted
key may only enter tables that have no header; a header may enter any table, and of an array of
tables its latest element. -/
def within? {α : Type} (isDotted : Bool) (change : Form → Entries → Option (Entries × α)) :
    List String → Form → Entries → Option (Entries × α)
  | [], form, es => change form es
  | key :: path, _, es =>
    match es.get? key with
    | none => do
      let form := if isDotted then Form.dotted else .implied
      let (inner, a) ← within? isDotted change path form []
      some (es.put key (.table form inner), a)
    | some (.table form inner) =>
      if isDotted ∧ form = .defined then none
      else do
        let (inner, a) ← within? isDotted change path form inner
        some (es.put key (.table form inner), a)
    | some (.tables (latest :: earlier)) => do
      let (inner, a) ← within? isDotted change path .defined latest
      some (es.put key (.tables (inner :: earlier)), a)
    | some _ => none

/-- Changes the entries at a path, without another result. -/
def updateWithin? (isDotted : Bool) (change : Form → Entries → Option Entries)
    (path : List String) (es : Entries) : Option Entries :=
  (within? isDotted (fun form inner => (change form inner).map fun inner => (inner, ())) path
    .defined es).map Prod.fst

/-! ## Drafts -/

/-- Where the table under way belongs. -/
inductive Place where
  | root
  | table (path : List String) (key : String)
  | element (path : List String) (key : String)
  deriving DecidableEq, Repr

/-- A document of which some lines have been read: the tables that are complete, and the one under
way. -/
structure Draft where
  complete : Entries
  place : Place
  current : Entries

namespace Draft

/-- The document before its first line. -/
def start : Draft :=
  ⟨[], .root, []⟩

/-- Adds a pair to the table under way. -/
def pair? (d : Draft) (path : List String) (key : String) (item : Item) : Option Draft := do
  let current ← updateWithin? true (fun form es =>
    if (form = .dotted ↔ path ≠ []) ∧ (es.get? key).isNone then some (es.put key item) else none)
    path d.current
  some { d with current := current }

/-- Puts the table under way in its place. -/
def close? (d : Draft) : Option Entries :=
  match d.place with
  | .root => some d.current
  | .table path key =>
    updateWithin? false (fun _ es =>
      match es.get? key with
      | none => some (es.put key (.table .defined d.current))
      | some (.table .defined _) => none
      | some (.table _ _) => some (es.put key (.table .defined d.current))
      | some _ => none) path d.complete
  | .element path key =>
    updateWithin? false (fun _ es =>
      match es.get? key with
      | none => some (es.put key (.tables [d.current]))
      | some (.tables elements) => some (es.put key (.tables (d.current :: elements)))
      | some _ => none) path d.complete

/-- Begins the table of a header.  A table that only its children have made so far keeps them, and
moves behind the other entries around it. -/
def openTable? (complete : Entries) (path : List String) (key : String) : Option Draft := do
  let (complete, current) ← within? false (fun _ es =>
    match es.get? key with
    | none => some (es, [])
    | some (.table .implied inner) => some (es.erase key, inner)
    | some _ => none) path .defined complete
  some ⟨complete, .table path key, current⟩

/-- Begins the next element of an array of tables. -/
def openElement? (complete : Entries) (path : List String) (key : String) : Option Draft := do
  let complete ← updateWithin? false (fun _ es =>
    match es.get? key with
    | none => some (es.put key (.tables []))
    | some (.tables _) => some es
    | some _ => none) path complete
  some ⟨complete, .element path key, []⟩

/-- Closes the table under way and begins the one of a header. -/
def header? (d : Draft) (isElement : Bool) (path : List String) (key : String) : Option Draft := do
  let complete ← d.close?
  if isElement then openElement? complete path key else openTable? complete path key

end Draft

/-! ## Lines -/

/-- The draft after one line, and what follows the line. -/
def line? (d : Draft) (cs : List Char) : Option (Draft × List Char) :=
  match cs with
  | '[' :: '[' :: rest => do
    let ((path, key), rest) ← key? rest
    let rest ← lineEnd? (← after? ']' (← after? ']' rest))
    some (← d.header? true path key, rest)
  | '[' :: rest => do
    let ((path, key), rest) ← key? rest
    let rest ← lineEnd? (← after? ']' rest)
    some (← d.header? false path key, rest)
  | '#' :: _ => (lineEnd? cs).map fun rest => (d, rest)
  | '\n' :: _ => (newline? cs).map fun rest => (d, rest)
  | '\r' :: _ => (newline? cs).map fun rest => (d, rest)
  | _ => do
    let ((path, key), rest) ← key? cs
    let (item, rest) ← value? (skipBlanks (← after? '=' rest))
    let rest ← lineEnd? rest
    some (← d.pair? path key item, rest)

/-- The draft after all lines. -/
def lines? : Nat → Draft → List Char → Option Draft
  | 0, _, _ => none
  | bound + 1, d, cs =>
    match skipBlanks cs with
    | [] => some d
    | cs => do
      let (d, rest) ← line? d cs
      lines? bound d rest

/-- The content of a document; a byte order mark may stand in front of it. -/
def parse? (text : String) : Option Content := do
  let cs :=
    match text.toList with
    | '\uFEFF' :: rest => rest
    | cs => cs
  let draft ← lines? (cs.length + 1) .start cs
  tableContent? (← draft.close?)

end Toml

end SealedChannel
