import SealedChannel.Bytes

/-!
# Blanks, comments and line ends

## What is here

* `Toml.isPlain` — the characters that a comment or a string on one line may hold.
* `Toml.skipBlanks` — skips blanks and tabs.
* `Toml.lineEnd?` — blanks, perhaps a comment, and the end of the line.
* `Toml.skipFiller` — skips blanks, comments and line ends, as between the items of an array.
-/

set_option autoImplicit false
namespace SealedChannel
namespace Toml

/-- Whether a character is a blank within a line. -/
def isBlank (c : Char) : Bool :=
  c == ' ' || c == '\t'

/-- Whether a comment may hold a character: anything but control characters, of which the tab is
allowed. -/
def isPlain (c : Char) : Bool :=
  c == '\t' || (' ' ≤ c && c != '\x7F')

/-- The rest of a text after blanks. -/
def skipBlanks (cs : List Char) : List Char :=
  cs.dropWhile isBlank

/-- The rest of a text after a comment, if it begins with one. -/
def skipComment : List Char → List Char
  | '#' :: rest => rest.dropWhile isPlain
  | cs => cs

/-- The rest of a text after a line end. -/
def newline? : List Char → Option (List Char)
  | '\n' :: rest => some rest
  | '\r' :: '\n' :: rest => some rest
  | _ => none

/-- The rest of a text after blanks, perhaps a comment, and the end of the line or of the text. -/
def lineEnd? (cs : List Char) : Option (List Char) :=
  match skipComment (skipBlanks cs) with
  | [] => some []
  | rest => newline? rest

/-- The rest of a text after blanks, comments and line ends. -/
def skipFiller (inComment : Bool) : List Char → List Char
  | [] => []
  | '\n' :: rest => skipFiller false rest
  | '\r' :: '\n' :: rest => skipFiller false rest
  | c :: rest =>
    if inComment then if isPlain c then skipFiller true rest else c :: rest
    else if isBlank c then skipFiller false rest
    else if c = '#' then skipFiller true rest
    else c :: rest

end Toml

end SealedChannel
