import SealedChannel.Text.Form

/-!
# Addresses of resources

## What is here

* `Target` — the parts of an address: origin, path and query.
* `Target.ofUrl` — cuts an address into its parts; a fragment is dropped.
* `Target.withPairs` — adds pairs to the query, after those that are there.
* `Target.resource` — path and query, as a server sees them.
-/

set_option autoImplicit false
namespace SealedChannel
namespace Http

/-- The parts of an address. -/
structure Target where
  /-- Scheme and host; empty for an address that begins with its path. -/
  origin : String
  path : String
  query : Option String
  deriving DecidableEq, Repr

namespace Target

/-- The scheme and host of an address without query, and the path after them. -/
def cutOrigin (cs : List Char) : List Char × List Char :=
  if cs.head? = some '/' then ([], cs)
  else
    match Text.findTail? "://".toList cs with
    | none => ([], cs)
    | some tail =>
      let path := (tail.drop 3).dropWhile (· ≠ '/')
      (cs.take (cs.length - path.length), path)

/-- The parts of an address. -/
def ofUrl (url : String) : Target :=
  let (address, query) := Text.cutAt '?' (Text.cutAt '#' url.toList).1
  let (origin, path) := cutOrigin address
  ⟨String.ofList origin, if path.isEmpty then "/" else String.ofList path,
    query.map String.ofList⟩

/-- Adds pairs to the query. -/
def withPairs (t : Target) (pairs : List (String × String)) : Target :=
  let added := Utf8.decodeLossy (Form.print pairs)
  let before :=
    match t.query with
    | none => ""
    | some query => if query = "" then "" else query ++ "&"
  { t with query := some (before ++ added) }

/-- Path and query. -/
def resource (t : Target) : String :=
  match t.query with
  | none => t.path
  | some query => t.path ++ "?" ++ query

end Target

end Http

end SealedChannel
