/-!
# Files by path

A tree of files holds bytes in its files and names in its directories. A place of the tree is a file
or a directory together with the directories around it, and a path leads from place to place, part
by part. Names and whole paths are limited in length, by their bytes in UTF-8. `Place.readText`
reads the file at a path as text.
-/

namespace PinsSyntax

/-- Why a source cannot be read. -/
inductive ReadFault where
  | notFound
  | notADirectory
  | isADirectory
  | nameTooLong
  | invalidText
  | other (reason : String)
  deriving DecidableEq, Repr

/-- The text of a fault. -/
def ReadFault.message : ReadFault → String
  | notFound => "No such file or directory (os error 2)"
  | notADirectory => "Not a directory (os error 20)"
  | isADirectory => "Is a directory (os error 21)"
  | nameTooLong => "File name too long (os error 36)"
  | invalidText => "stream did not contain valid UTF-8"
  | other reason => reason

/-- Bytes as text in UTF-8. -/
def decodeText (bytes : ByteArray) : Except ReadFault String :=
  match String.fromUTF8? bytes with
  | some text => .ok text
  | none => .error .invalidText

/-- A file with its bytes, or a directory with what it holds by name. -/
inductive FileTree where
  | file (bytes : ByteArray)
  | directory (entries : List (String × FileTree))

namespace FileTree

/-- The most bytes that the name of a file or directory has. -/
def nameLimit : Nat := 255

/-- The most bytes that a path has. -/
def pathLimit : Nat := 4095

/-- A place of a tree: what stands there, and the directories around it from the inside out. -/
structure Place where
  node : FileTree
  around : List FileTree

namespace Place

/-- The directory around a place; the outermost place is around itself. -/
def parent (p : Place) : Place :=
  match p.around with
  | [] => p
  | node :: around => ⟨node, around⟩

/-- The outermost place. -/
def root (p : Place) : Place := ⟨p.around.getLastD p.node, []⟩

/-- The place that one part of a path leads to. An empty part or a dot stays in a directory, and two
dots leave it; no part leads on from a file. -/
def step (p : Place) (part : String) : Except ReadFault Place :=
  match p.node with
  | file _ => .error .notADirectory
  | directory entries =>
    if part = "" ∨ part = "." then .ok p
    else if part = ".." then .ok p.parent
    else if nameLimit < part.utf8ByteSize then .error .nameTooLong
    else
      match entries.lookup part with
      | some node => .ok ⟨node, p.node :: p.around⟩
      | none => .error .notFound

/-- The place that a path leads to; a path with a leading slash starts from the outermost place. -/
def resolve (p : Place) (path : String) : Except ReadFault Place :=
  if pathLimit < path.utf8ByteSize then .error .nameTooLong
  else (path.splitOn "/").foldlM step (if path.startsWith "/" then p.root else p)

/-- The bytes of the file at a path. -/
def read (p : Place) (path : String) : Except ReadFault ByteArray := do
  match (← p.resolve path).node with
  | file bytes => .ok bytes
  | directory _ => .error .isADirectory

/-- The text of the file at a path. -/
def readText (p : Place) (path : String) : Except ReadFault String := do
  decodeText (← p.read path)

end Place

end FileTree

end PinsSyntax
