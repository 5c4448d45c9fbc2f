import SealedChannel.Bytes

/-!
# Cutting a list at a separator

## What is here

* `Text.splitOn` — the parts between the separators; one more part than there are separators.
* `Text.cutAt` — the part before the first separator and, if there is one, the part after it.
* `Text.findTail?` — the rest of a list from the first occurrence of a pattern on.
-/

set_option autoImplicit false
namespace SealedChannel
namespace Text

variable {α : Type} [DecidableEq α]

/-- The parts of a list between the occurrences of a separator. -/
def splitOn (sep : α) : List α → List (List α)
  | [] => [[]]
  | a :: as =>
    if a = sep then [] :: splitOn sep as
    else
      match splitOn sep as with
      | [] => [[a]]
      | part :: parts => (a :: part) :: parts

/-- The part before the first separator and the part after it, `none` where there is none. -/
def cutAt (sep : α) (as : List α) : List α × Option (List α) :=
  let before := as.takeWhile (· ≠ sep)
  match as.drop before.length with
  | [] => (before, none)
  | _ :: rest => (before, some rest)

/-- The rest of a list from the first occurrence of `pattern` on. -/
def findTail? (pattern : List α) : List α → Option (List α)
  | [] => if pattern.isEmpty then some [] else none
  | a :: as =>
    if pattern.isPrefixOf (a :: as) then some (a :: as) else findTail? pattern as

end Text

end SealedChannel
