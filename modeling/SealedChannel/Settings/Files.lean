import SealedChannel.Text.Split
import SealedChannel.Text.Utf8

/-!
# Files by path

A path is a list of names with slashes between them.  It is followed name by name, from the root if
it begins with a slash and from the working directory otherwise.

## What is here

* `FileError` — why a file cannot be read, with its text in `FileError.message`.
* `FileTree` — files and directories.
* `FileTree.walk` — follows the names of a path.
* `Files.read` — the content of the file at a path.
* `textOfFile` — the content of a file as a text.
-/

set_option autoImplicit false
namespace SealedChannel

/-! ## Errors -/

/-- Why a file cannot be read. -/
inductive FileError where
  | notFound
  /-- A name is looked up in a file. -/
  | notDirectory
  | isDirectory
  /-- The path or one of its names is too long. -/
  | nameTooLong
  /-- The content is no text. -/
  | notText
  deriving DecidableEq, Repr

/-- The text of an error. -/
def FileError.message : FileError → String
  | .notFound => "No such file or directory (os error 2)"
  | .notDirectory => "Not a directory (os error 20)"
  | .isDirectory => "Is a directory (os error 21)"
  | .nameTooLong => "File name too long (os error 36)"
  | .notText => "stream did not contain valid UTF-8"

/-! ## Trees -/

/-- A file, or a directory with what it holds by name. -/
inductive FileTree where
  | file (content : Bytes)
  | directory (entries : List (String × FileTree))
  deriving Repr, Inhabited

/-- The largest number of bytes of a name. -/
def nameLimit : Nat := 255

/-- The largest number of bytes of a path. -/
def pathLimit : Nat := 4095

namespace FileTree

/-- What a name means in a tree.  `above` are the directories above the tree, nearest first; the
directory above the root is the root. -/
def enter (above : List FileTree) (tree : FileTree) (name : String) :
    Except FileError (List FileTree × FileTree) :=
  match tree with
  | .file _ => .error .notDirectory
  | .directory entries =>
    if name = "" ∨ name = "." then .ok (above, tree)
    else if name = ".." then
      match above with
      | [] => .ok ([], tree)
      | parent :: above => .ok (above, parent)
    else if nameLimit < name.utf8ByteSize then .error .nameTooLong
    else
      match entries.lookup name with
      | some inner => .ok (tree :: above, inner)
      | none => .error .notFound

/-- What the names of a path lead to. -/
def walk (above : List FileTree) (tree : FileTree) : List String → Except FileError FileTree
  | [] => .ok tree
  | name :: names => do
    let (above, tree) ← enter above tree name
    walk above tree names

end FileTree

/-! ## Reading -/

/-- The files that a process can read. -/
structure Files where
  root : FileTree
  /-- The names that lead from the root to the working directory. -/
  workingDirectory : List String
  deriving Repr

/-- The content of the file at a path. -/
def Files.read (files : Files) (path : String) : Except FileError Bytes :=
  if path = "" then .error .notFound
  else if pathLimit < path.utf8ByteSize then .error .nameTooLong
  else
    let names := (Text.splitOn '/' path.toList).map String.ofList
    let start := if path.toList.head? = some '/' then [] else files.workingDirectory
    match files.root.walk [] (start ++ names) with
    | .ok (.file content) => .ok content
    | .ok (.directory _) => .error .isDirectory
    | .error e => .error e

/-- The text of a file. -/
def textOfFile (content : Except FileError Bytes) : Except FileError String :=
  match content with
  | .error e => .error e
  | .ok bytes =>
    match Utf8.decode? bytes with
    | some text => .ok text
    | none => .error .notText

end SealedChannel
