import SealedChannel.KeyServer.Error
import SealedChannel.KeyServer.Listing
import SealedChannel.Text.Blank
import SealedChannel.Text.Split

/-!
# Key-server indexes

The index of a key server is a text with one line for each record.  A line that describes a key has
seven fields, separated by colons, of which the first is `pub`; all other lines are passed over.

## What is here

* `Index.listing?` — the record of a line.
* `Index.parse` — the records of an index, first to last.
* `Index.firstUsable` — the id of the first usable record.
-/

set_option autoImplicit false
namespace SealedChannel
namespace KeyServer
namespace Index

/-- A number of at most 32 bits. -/
def number? (field : List Char) : Option Nat :=
  (Numeral.natural (UInt32.size - 1) field).toOption

/-- A point in time, given in seconds as a number of 64 bits with a sign. -/
def time? (field : List Char) : Option Timestamp :=
  (Numeral.integer? (UInt64.size / 2) (UInt64.size / 2 - 1) field).bind Timestamp.ofSeconds?

/-- The record of a line, if the line describes a key. -/
def listing? (line : List Char) : Option Listing :=
  match Text.splitOn ':' (Text.trim line) with
  | [kind, keyId, algorithm, length, created, expires, flags] =>
    if kind = ['p', 'u', 'b'] then
      some ⟨String.ofList keyId, (number? algorithm).bind Algorithm.ofId?, number? length,
        time? created, time? expires, flags.contains 'r', flags.contains 'd',
        flags.contains 'e'⟩
    else none
  | _ => none

/-- The records of an index, first to last. -/
def parse (body : String) : List Listing :=
  (Text.splitOn '\n' body.toList).filterMap listing?

/-- The id of the first usable record. -/
def firstUsable (listings : List Listing) : Except Error String :=
  match listings.find? Listing.isUsable with
  | some l => .ok l.keyId
  | none => .error .noValidKey

end Index

end KeyServer

end SealedChannel
