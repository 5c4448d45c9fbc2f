import SealedChannel.Bytes

/-!
# TOML items

## What is here

* `Toml.Scalar` — strings, integers and truth values; of a float or a date only that it is one.
* `Toml.Form` — how a table came to be, which decides where it may be extended.
* `Toml.Item` — scalars, arrays and the three kinds of table.
* `Toml.Entries` — the entries of a table, first to last, with `get?`, `erase` and `put`.
-/

set_option autoImplicit false
namespace SealedChannel
namespace Toml

/-- A scalar. -/
inductive Scalar where
  | text (s : String)
  | integer (n : Int)
  | boolean (b : Bool)
  | float
  | date
  deriving DecidableEq, Repr

/-- How a table came to be. -/
inductive Form where
  /-- By a header of its own. -/
  | defined
  /-- As the parent of a table with a header. -/
  | implied
  /-- By a dotted key. -/
  | dotted
  deriving DecidableEq, Repr

/-- An item of a document. -/
inductive Item where
  | scalar (s : Scalar)
  | array (items : List Item)
  /-- A table within braces, or a part of one that dotted keys made. -/
  | inline (isDotted : Bool) (entries : List (String × Item))
  | table (form : Form) (entries : List (String × Item))
  /-- The tables of an array of tables, latest first. -/
  | tables (elements : List (List (String × Item)))
  deriving Repr, Inhabited

/-- The entries of a table, first to last. -/
abbrev Entries := List (String × Item)

namespace Entries

/-- The item under a key. -/
def get? (es : Entries) (key : String) : Option Item :=
  es.lookup key

/-- The entries without a key. -/
def erase (es : Entries) (key : String) : Entries :=
  es.filter fun entry => entry.1 != key

/-- The entries with an item under a key.  A key that is there keeps its place, and a new one comes
last. -/
def put : Entries → String → Item → Entries
  | [], key, item => [(key, item)]
  | (other, present) :: rest, key, item =>
    if other = key then (key, item) :: rest else (other, present) :: put rest key item

end Entries

end Toml

end SealedChannel
