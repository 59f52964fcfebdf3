/-!
Folders of texts, and the text that a path leads to.
-/

set_option autoImplicit false

namespace PoolQuote

inductive FileFault
  | missing
  | denied
  | notFolder
  | isFolder
  | nameTooLong
  | nullCharacter
  | notText
  deriving DecidableEq, Repr

namespace FileFault

def message : FileFault → String
  | missing => "No such file or directory (os error 2)"
  | denied => "Permission denied (os error 13)"
  | notFolder => "Not a directory (os error 20)"
  | isFolder => "Is a directory (os error 21)"
  | nameTooLong => "File name too long (os error 36)"
  | nullCharacter => "file name contained an unexpected NUL byte"
  | notText => "stream did not contain valid UTF-8"

end FileFault

inductive FileTree
  | file (text : String)
  | folder (entries : List (String × FileTree))

namespace FileTree

def maxName : Nat := 255

def maxPath : Nat := 4095

-- Follows one name of a path. The trail holds where the path has led so far, with the folders
-- around it outwards; no name leads out of the outermost.
def enter (trail : List FileTree) (name : List Char) : Except FileFault (List FileTree) :=
  match trail with
  | .folder entries :: outer =>
      if name = [] ∨ name = ['.'] then .ok trail
      else if name = ['.', '.'] then .ok (if outer.isEmpty then trail else outer)
      else if maxName < (String.ofList name).utf8ByteSize then .error .nameTooLong
      else match entries.lookup (String.ofList name) with
        | some found => .ok (found :: trail)
        | none => .error .missing
  | _ => .error .notFolder

def start (trail : List FileTree) (path : String) : List FileTree :=
  if path.toList.head? = some '/' then trail.getLast?.toList else trail

def names (path : String) : Except FileFault (List (List Char)) :=
  if '\x00' ∈ path.toList then .error .nullCharacter
  else if path = "" then .error .missing
  else if maxPath < path.utf8ByteSize then .error .nameTooLong
  else .ok (path.toList.splitOn '/')

def read (trail : List FileTree) (path : String) : Except FileFault String := do
  match ← (← names path).foldlM enter (start trail path) with
  | .file text :: _ => return text
  | .folder _ :: _ => throw .isFolder
  | [] => throw .missing

def checkWrite (trail : List FileTree) (path : String) : Except FileFault Unit := do
  let parts ← names path
  let name := parts.reverse.dropWhile (· = [])
  match ← (name.drop 1).reverse.foldlM enter (start trail path) with
  | .folder entries :: outer =>
      if name.length < parts.length then throw .isFolder
      match enter (.folder entries :: outer) (name.head?.getD []) with
      | .ok (.file _ :: _) | .error .missing => return ()
      | .ok _ => throw .isFolder
      | .error fault => throw fault
  | _ => throw .notFolder

end FileTree

end PoolQuote
