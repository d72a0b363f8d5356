import TimetableFeed.Text.Pieces
import TimetableFeed.Text.Quoted

/-!
# Files

File names as the command shows them, why a file cannot be read, and the files below a directory.

Main definitions: `FileName.read`, `FileName.write`, `FileTree.read?`.
-/

namespace TimetableFeed.Command

/-- The name of a file: the slashes at its front, and the names on the way to it. -/
structure FileName where
  root : Nat
  parts : List (List Char)
  deriving DecidableEq, Repr

namespace FileName

/-- How many slashes at the front count: two are kept, three and more are as good as one. -/
def rootOf (cs : List Char) : Nat :=
  let slashes := (cs.takeWhile (· = '/')).length
  if slashes ≤ 2 then slashes else 1

/-- The name that a text writes. Empty names on the way and single dots lead nowhere. -/
def read (s : String) : FileName :=
  ⟨rootOf s.toList, (Text.splitAt '/' s.toList).filter fun part => part ≠ [] ∧ part ≠ ['.']⟩

/-- The text of a name; that of the working directory is a dot. -/
def write (name : FileName) : String :=
  if name.root = 0 ∧ name.parts = [] then "."
  else String.ofList (List.replicate name.root '/' ++ ['/'].intercalate name.parts)

/-- The character NUL, which ends a name early, is in it. -/
def hasNul (name : FileName) : Bool := name.write.toList.contains (Char.ofNat 0)

end FileName

inductive FileFault where
  | missing
  | notDirectory
  | isDirectory
  | nameTooLong
  | nul
  deriving DecidableEq, Repr

def FileFault.message (name : FileName) : FileFault → String
  | .missing => "[Errno 2] No such file or directory: " ++ Text.quoted name.write
  | .notDirectory => "[Errno 20] Not a directory: " ++ Text.quoted name.write
  | .isDirectory => "[Errno 21] Is a directory: " ++ Text.quoted name.write
  | .nameTooLong => "[Errno 36] File name too long: " ++ Text.quoted name.write
  | .nul => "embedded null byte"

/-! ## The files below a directory -/

abbrev FileTree := List (List (List Char) × List UInt8)

/-- Where a way through the files has led. -/
inductive FilePlace where
  | file (bytes : List UInt8)
  /-- The directory that the names lead to. -/
  | inside (names : List (List Char))
  /-- A directory outside, of which nothing is known. -/
  | outside
  deriving DecidableEq, Repr

namespace FileTree

/-- How many bytes a name may have, and a whole file name. -/
def nameLimit : Nat := 255

@[inherit_doc nameLimit]
def pathLimit : Nat := 4095

def step? (tree : FileTree) (place : FilePlace) (name : List Char) : Except FileFault FilePlace :=
  match place with
  | .file _ => .error .notDirectory
  | .outside =>
    if name = ['.', '.'] then .ok .outside
    else if nameLimit < (String.ofList name).utf8ByteSize then .error .nameTooLong
    else .error .missing
  | .inside names =>
    if name = ['.', '.'] then .ok (if names = [] then .outside else .inside names.dropLast)
    else if nameLimit < (String.ofList name).utf8ByteSize then .error .nameTooLong
    else
      let names := names ++ [name]
      match tree.lookup names with
      | some bytes => .ok (.file bytes)
      | none =>
        if tree.any fun entry => names.isPrefixOf entry.1 then .ok (.inside names)
        else .error .missing

def read? (tree : FileTree) (name : FileName) : Except FileFault (List UInt8) :=
  if name.hasNul then .error .nul
  else if pathLimit < name.write.utf8ByteSize then .error .nameTooLong
  else do
    match ← name.parts.foldlM tree.step? (if name.root = 0 then .inside [] else .outside) with
    | .file bytes => .ok bytes
    | _ => .error .isDirectory

end FileTree

end TimetableFeed.Command
