import SealedChannel.Toml.Blank

/-!
# TOML strings

There are four kinds of string: with escapes or literal, on one line or on several.

## What is here

* `Toml.escape?`, `Toml.codePoint?` — what an escape of one letter, and one of hexadecimal digits,
  stands for.
* `Toml.basic?`, `Toml.literal?` — a string on one line, after its opening quote.
* `Toml.basicLines?`, `Toml.literalLines?` — a string on several lines, after its opening quotes.
* `Toml.quoted?` — a string of any kind.
-/

set_option autoImplicit false
namespace SealedChannel
namespace Toml

/-! ## Escapes -/

/-- What an escape of one letter stands for. -/
def escape? (c : Char) : Option Char :=
  match c with
  | 'b' => some '\x08'
  | 'f' => some '\x0C'
  | 'n' => some '\n'
  | 'r' => some '\r'
  | 't' => some '\t'
  | '"' => some '"'
  | '\\' => some '\\'
  | _ => none

/-- The value of a hexadecimal digit. -/
def hexValue? (c : Char) : Option Nat :=
  let n := c.toNat
  if 48 ≤ n ∧ n ≤ 57 then some (n - 48)
  else if 65 ≤ n ∧ n ≤ 70 then some (n - 55)
  else if 97 ≤ n ∧ n ≤ 102 then some (n - 87)
  else none

/-- The character whose code point the digits write. -/
def codePoint? (digits : List Char) : Option Char := do
  let n ← digits.foldlM (fun n c => (hexValue? c).map (16 * n + ·)) 0
  if n < 0xD800 ∨ (0xDFFF < n ∧ n < 0x110000) then some (Char.ofNat n) else none

/-! ## Strings on one line -/

/-- The rest of a string with escapes, after the characters `done`, latest first. -/
def basic? (done : List Char) : List Char → Option (String × List Char)
  | [] => none
  | '"' :: rest => some (String.ofList done.reverse, rest)
  | '\\' :: 'u' :: a :: b :: c :: d :: rest =>
    match codePoint? [a, b, c, d] with
    | some x => basic? (x :: done) rest
    | none => none
  | '\\' :: 'U' :: a :: b :: c :: d :: e :: f :: g :: h :: rest =>
    match codePoint? [a, b, c, d, e, f, g, h] with
    | some x => basic? (x :: done) rest
    | none => none
  | '\\' :: c :: rest =>
    match escape? c with
    | some x => basic? (x :: done) rest
    | none => none
  | c :: rest => if isPlain c && c != '\\' then basic? (c :: done) rest else none

/-- The rest of a literal string. -/
def literal? (cs : List Char) : Option (String × List Char) :=
  let content := cs.takeWhile fun c => isPlain c && c != '\''
  match cs.drop content.length with
  | '\'' :: rest => some (String.ofList content, rest)
  | _ => none

/-! ## Strings on several lines -/

/-- Where in a string on several lines the reader stands. -/
inductive Fold where
  /-- Within the text. -/
  | content
  /-- After a backslash at the end of a line, before the line end. -/
  | beforeEnd
  /-- After that line end, before the next text. -/
  | afterEnd
  deriving DecidableEq

/-- The rest of a string with escapes on several lines.  A backslash at the end of a line takes the
line end and all blanks and line ends after it away.  Up to two quotes may stand before the three
that close the string. -/
def basicLines? (done : List Char) (fold : Fold) : List Char → Option (String × List Char)
  | [] => none
  | '"' :: '"' :: '"' :: '"' :: '"' :: rest =>
    if fold = .beforeEnd then none else some (String.ofList ('"' :: '"' :: done).reverse, rest)
  | '"' :: '"' :: '"' :: '"' :: rest =>
    if fold = .beforeEnd then none else some (String.ofList ('"' :: done).reverse, rest)
  | '"' :: '"' :: '"' :: rest =>
    if fold = .beforeEnd then none else some (String.ofList done.reverse, rest)
  | '\n' :: rest =>
    if fold = .content then basicLines? ('\n' :: done) .content rest
    else basicLines? done .afterEnd rest
  | '\r' :: '\n' :: rest =>
    if fold = .content then basicLines? ('\n' :: done) .content rest
    else basicLines? done .afterEnd rest
  | '\\' :: 'u' :: a :: b :: c :: d :: rest =>
    match if fold = .beforeEnd then none else codePoint? [a, b, c, d] with
    | some x => basicLines? (x :: done) .content rest
    | none => none
  | '\\' :: 'U' :: a :: b :: c :: d :: e :: f :: g :: h :: rest =>
    match if fold = .beforeEnd then none else codePoint? [a, b, c, d, e, f, g, h] with
    | some x => basicLines? (x :: done) .content rest
    | none => none
  | '\\' :: c :: rest =>
    if fold = .beforeEnd then none
    else if isBlank c || c == '\n' || c == '\r' then basicLines? done .beforeEnd (c :: rest)
    else
      match escape? c with
      | some x => basicLines? (x :: done) .content rest
      | none => none
  | c :: rest =>
    if isBlank c && fold != .content then basicLines? done fold rest
    else if fold = .beforeEnd then none
    else if isPlain c && c != '\\' then basicLines? (c :: done) .content rest
    else none

/-- The rest of a literal string on several lines. -/
def literalLines? (done : List Char) : List Char → Option (String × List Char)
  | [] => none
  | '\'' :: '\'' :: '\'' :: '\'' :: '\'' :: rest =>
    some (String.ofList ('\'' :: '\'' :: done).reverse, rest)
  | '\'' :: '\'' :: '\'' :: '\'' :: rest => some (String.ofList ('\'' :: done).reverse, rest)
  | '\'' :: '\'' :: '\'' :: rest => some (String.ofList done.reverse, rest)
  | '\r' :: '\n' :: rest => literalLines? ('\n' :: done) rest
  | c :: rest => if isPlain c || c == '\n' then literalLines? (c :: done) rest else none

/-- The text after a line end at the very start of a string on several lines. -/
def skipFirstEnd (cs : List Char) : List Char :=
  (newline? cs).getD cs

/-! ## Strings of any kind -/

/-- A string on one line. -/
def quotedLine? : List Char → Option (String × List Char)
  | '"' :: rest => basic? [] rest
  | '\'' :: rest => literal? rest
  | _ => none

/-- A string of any kind. -/
def quoted? : List Char → Option (String × List Char)
  | '"' :: '"' :: '"' :: rest => basicLines? [] .content (skipFirstEnd rest)
  | '\'' :: '\'' :: '\'' :: rest => literalLines? [] (skipFirstEnd rest)
  | cs => quotedLine? cs

end Toml

end SealedChannel
