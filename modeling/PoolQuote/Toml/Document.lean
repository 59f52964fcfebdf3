import PoolQuote.Toml.Quoted
import PoolQuote.Toml.Scalar

/-!
Reading a TOML document: lines that are empty, hold a key with its value, or open a table.
-/

set_option autoImplicit false

namespace PoolQuote.Toml

abbrev Reader := StateT (List Char) Option

namespace Reader

def peek : Reader (Option Char) := fun text => some (text.head?, text)

def expect (c : Char) : Reader Unit
  | d :: rest => if c = d then some ((), rest) else none
  | [] => none

def skipBlanks : Reader Unit := fun text => some ((), text.dropWhile Quoted.isBlank)

def skipComment : List Char → List Char
  | '#' :: rest => rest.dropWhile Quoted.isPlain
  | text => text

def lineEnd : Reader Unit := fun text =>
  match skipComment (text.dropWhile Quoted.isBlank) with
  | [] => some ((), [])
  | rest => (Quoted.afterNewline? rest).map fun rest => ((), rest)

def skipLines : Nat → Reader Unit
  | 0 => pure ()
  | n + 1 => fun text =>
      let rest := text.dropWhile Quoted.isBlank
      match Quoted.afterNewline? (skipComment rest) with
      | some rest => skipLines n rest
      | none => some ((), rest)

def size : Reader Nat := fun text => some (text.length, text)

def isBare (c : Char) : Bool :=
  c.isAlphanum || c = '_' || c = '-'

def keyPart : Reader String := fun text =>
  match text.head? with
  | some '"' => (Quoted.line? text).map fun (part, rest) => (String.ofList part, rest)
  | some '\'' => (Quoted.line? text).map fun (part, rest) => (String.ofList part, rest)
  | _ =>
      let part := text.takeWhile isBare
      if part.isEmpty then none else some (String.ofList part, text.dropWhile isBare)

def keyParts : Nat → Reader (List String)
  | 0 => failure
  | n + 1 => do
      skipBlanks
      let part ← keyPart
      skipBlanks
      if (← peek) = some '.' then
        expect '.'
        return part :: (← keyParts n)
      else return [part]

def depthLimit : Nat := 79

def key : Reader (List String × String) := do
  let parts ← keyParts depthLimit
  match parts.getLast? with
  | some last => return (parts.dropLast, last)
  | none => failure

def items (item : Reader Toml) : Nat → Reader (List Toml)
  | 0 => failure
  | n + 1 => do
      skipLines (← size)
      if (← peek) = some ']' then
        expect ']'
        return []
      else
        let first ← item
        skipLines (← size)
        if (← peek) = some ',' then
          expect ','
          return first :: (← items item n)
        else
          expect ']'
          return [first]

def pairs (item : Reader Toml) (entries : Entries) : Nat → Reader Entries
  | 0 => failure
  | n + 1 => do
      let (steps, last) ← key
      expect '='
      skipBlanks
      let value ← item
      skipBlanks
      let entries ← Entries.enter value entries steps last
      if (← peek) = some ',' then
        expect ','
        pairs item entries n
      else
        expect '\x7d'
        return entries

def value (depth : Nat) : Reader Toml := do
  match ← peek with
  | some '"' => quoted
  | some '\'' => quoted
  | some '[' =>
      match depth with
      | 0 => failure
      | depth + 1 => do
          expect '['
          return .array (← items (value depth) (← size))
  | some '\x7b' =>
      match depth with
      | 0 => failure
      | depth + 1 => do
          expect '\x7b'
          skipBlanks
          if (← peek) = some '\x7d' then
            expect '\x7d'
            return .table .closed []
          else return .table .closed (← pairs (value depth) [] (← size))
  | _ => Scalar.read
where
  quoted : Reader Toml := fun text =>
    (Quoted.any? text).map fun (chars, rest) => (.string (String.ofList chars), rest)

end Reader

structure Document where
  entries : Entries
  header : List String

namespace Document

def empty : Document :=
  ⟨[], []⟩

def readHeader (document : Document) (opening : String → Entries → Option Entries) :
    Reader Document := do
  let (steps, last) ← Reader.key
  Reader.expect ']'
  let entries ← Entries.change (opening last) document.entries steps
  return ⟨entries, steps ++ [last]⟩

def readPair (document : Document) : Reader Document := do
  let (steps, last) ← Reader.key
  Reader.expect '='
  Reader.skipBlanks
  let value ← Reader.value Reader.depthLimit
  let entries ← Entries.change (fun entries => Entries.enter value entries steps last)
    document.entries document.header
  return { document with entries }

def readLine (document : Document) : Reader Document := fun text =>
  match text with
  | [] => some (document, [])
  | '[' :: '[' :: rest =>
      (do
        let next ← document.readHeader Entries.openItem
        Reader.expect ']'
        Reader.lineEnd
        return next : Reader Document) rest
  | '[' :: rest =>
      (do
        let next ← document.readHeader Entries.openTable
        Reader.lineEnd
        return next : Reader Document) rest
  | c :: _ =>
      (do
        let next ← if c ∈ ['#', '\n', '\r'] then pure document else document.readPair
        Reader.lineEnd
        return next : Reader Document) text

def readLines (document : Document) : Nat → List Char → Option Document
  | _, [] => some document
  | 0, _ => none
  | n + 1, text => do
      let (next, rest) ← document.readLine (text.dropWhile Quoted.isBlank)
      readLines next n rest

end Document

/-- The entries of a document. A byte order mark at its start is skipped. -/
def parse (text : String) : Option Entries :=
  let chars := match text.toList with
    | '\uFEFF' :: rest => rest
    | chars => chars
  (Document.empty.readLines chars.length chars).map Document.entries

end PoolQuote.Toml
