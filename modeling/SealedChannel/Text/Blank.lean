import SealedChannel.Bytes

/-!
# Blanks between words

Index lines are trimmed and command lines are split at every character with the Unicode property
`White_Space`.

## What is here

* `Text.isBlank` — the property.
* `Text.trim` — a text without the blanks at both ends.
* `Text.words` — the maximal runs of characters that are no blanks.
-/

set_option autoImplicit false
namespace SealedChannel
namespace Text

/-- Whether a character has the Unicode property `White_Space`. -/
def isBlank (c : Char) : Bool :=
  let n := c.toNat
  (0x9 ≤ n && n ≤ 0xD) || n == 0x20 || n == 0x85 || n == 0xA0 || n == 0x1680
    || (0x2000 ≤ n && n ≤ 0x200A) || n == 0x2028 || n == 0x2029 || n == 0x202F || n == 0x205F
    || n == 0x3000

/-- The rest of a text after its leading blanks. -/
def trimStart (cs : List Char) : List Char :=
  cs.dropWhile isBlank

/-- A text without its trailing blanks. -/
def trimEnd (cs : List Char) : List Char :=
  (cs.reverse.dropWhile isBlank).reverse

/-- A text without the blanks at both ends. -/
def trim (cs : List Char) : List Char :=
  trimEnd (trimStart cs)

/-- The words of a text after the characters `word`, latest first, of a word under way. -/
def wordsFrom (word : List Char) : List Char → List (List Char)
  | [] => if word.isEmpty then [] else [word.reverse]
  | c :: cs =>
    if isBlank c then
      if word.isEmpty then wordsFrom [] cs else word.reverse :: wordsFrom [] cs
    else wordsFrom (c :: word) cs

/-- The maximal runs of characters that are no blanks, first to last. -/
def words (cs : List Char) : List (List Char) :=
  wordsFrom [] cs

end Text

end SealedChannel
