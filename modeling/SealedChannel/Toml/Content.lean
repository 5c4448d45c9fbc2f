import SealedChannel.Toml.Date

/-!
# What a TOML document says

Once a document is complete, it does not matter any more how its tables came to be.  What is left
is its content.

TOML has dates, and other formats with the same model of data have not.  There a date travels as a
table of one text under a reserved key, and this form is understood here as well: a table whose
first key is the reserved one is a date.

## What is here

* `Toml.Content` — scalars, arrays and tables.
* `Toml.dateKey` — the reserved key.
* `Toml.Item.content?` — the content of an item; a text under the reserved key must be a date.
* `Content.get?`, `Content.text?`, `Content.integer?`, `Content.boolean?` — what is under a key.
-/

set_option autoImplicit false
namespace SealedChannel
namespace Toml

/-- What an item says. -/
inductive Content where
  | scalar (s : Scalar)
  | array (items : List Content)
  | table (entries : List (String × Content))
  deriving Repr, Inhabited

/-! ## Dates in the form of tables -/

/-- The key under which a table holds the text of a date. -/
def dateKey : String :=
  "$__toml_private_datetime"

/-- Whether a text is a date or a time, and nothing else. -/
def isDate (text : String) : Bool :=
  match date? text.toList with
  | some (_, []) => true
  | _ => false

/-- The date of a table that holds an item under the reserved key. -/
def taggedDate? : Item → Option Content
  | .scalar (.text s) => if isDate s then some (.scalar .date) else none
  | _ => none

/-! ## Content -/

mutual

/-- The content of an item. -/
def Item.content? : Item → Option Content
  | .scalar s => some (.scalar s)
  | .array items => (itemsContent? items).map .array
  | .inline _ entries => tableContent? entries
  | .table _ entries => tableContent? entries
  | .tables elements => (elementsContent? elements).map fun cs => .array cs.reverse

/-- The contents of the items of an array. -/
def itemsContent? : List Item → Option (List Content)
  | [] => some []
  | item :: rest => do
    let content ← item.content?
    let contents ← itemsContent? rest
    some (content :: contents)

/-- The content of a table.  Where the first key is the reserved one, the other entries do not
count. -/
def tableContent? : List (String × Item) → Option Content
  | [] => some (.table [])
  | (key, item) :: rest =>
    if key = dateKey then taggedDate? item
    else do
      let content ← item.content?
      let contents ← entriesContent? rest
      some (.table ((key, content) :: contents))

/-- The contents of the entries of a table. -/
def entriesContent? : List (String × Item) → Option (List (String × Content))
  | [] => some []
  | (key, item) :: rest => do
    let content ← item.content?
    let contents ← entriesContent? rest
    some ((key, content) :: contents)

/-- The contents of the elements of an array of tables, in the order in which they are given. -/
def elementsContent? : List (List (String × Item)) → Option (List Content)
  | [] => some []
  | entries :: rest => do
    let content ← tableContent? entries
    let contents ← elementsContent? rest
    some (content :: contents)

end

/-! ## Looking up -/

namespace Content

/-- What is under a key; what is no table has no keys. -/
def get? (content : Content) (key : String) : Option Content :=
  match content with
  | .table entries => entries.lookup key
  | _ => none

/-- The text under a key. -/
def text? (content : Content) (key : String) : Option String :=
  match content.get? key with
  | some (.scalar (.text s)) => some s
  | _ => none

/-- The integer under a key. -/
def integer? (content : Content) (key : String) : Option Int :=
  match content.get? key with
  | some (.scalar (.integer n)) => some n
  | _ => none

/-- The truth value under a key. -/
def boolean? (content : Content) (key : String) : Option Bool :=
  match content.get? key with
  | some (.scalar (.boolean b)) => some b
  | _ => none

end Content

end Toml

end SealedChannel
