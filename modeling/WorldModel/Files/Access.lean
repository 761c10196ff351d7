/-
Files, as far as this library needs them: reading a text, writing one, and making the
folders on the way to one.

`FileAccess` is what a program is given to work with; it says nothing about where the
files are. `FileTree` is a store of files in memory with the same operations, in which
a folder exists if it was made or some file lies in it.
-/
import WorldModel.Table

set_option autoImplicit false

namespace WorldModel

/-- The operations on files, with their effects in `m`. -/
structure FileAccess (m : Type → Type) where
  /-- The text of a file; nothing if it cannot be read. -/
  read : String → m (Option String)
  /-- Writes a file, and says whether that was possible. -/
  write : String → String → m Bool
  /-- Makes a folder and those around it, and says whether that was possible. -/
  makeFolders : String → m Bool

/-- The path of the folder around a file; empty for a path of one part. -/
def parentPath (path : String) : String :=
  let trimmed := path.toList.reverse.dropWhile (· == '/')
  let kept := (trimmed.dropWhile (· != '/')).dropWhile (· == '/')
  if kept.isEmpty && trimmed.getLast? == some '/' then "/" else String.ofList kept.reverse

/-! ## Files in memory -/

/-- Files by their path, and folders that were made. A path is the list of the names
on the way from the folder that the program runs in. -/
structure FileTree where
  files : List (List String × String)
  folders : List (List String)

namespace FileTree

/-- A tree with some files and folders, given by names with slashes between them. -/
def ofFiles (files : List (String × String)) (folders : List String) : FileTree :=
  ⟨files.map fun f => (f.1.splitOn "/", f.2), folders.map (·.splitOn "/")⟩

/-- The text of a file. -/
def text? (t : FileTree) (names : List String) : Option String :=
  (t.files.find? (·.1 == names)).map (·.2)

/-- Whether there is a file of this path. -/
def isFile (t : FileTree) (names : List String) : Bool :=
  (t.text? names).isSome

/-- Whether there is a folder of this path. -/
def isFolder (t : FileTree) (names : List String) : Bool :=
  names.isEmpty || t.folders.any (names.isPrefixOf ·) ||
    t.files.any fun f => names.isPrefixOf f.1 && f.1 != names

/-- The tree with a file replaced or added. -/
def withFile (t : FileTree) (names : List String) (text : String) : FileTree :=
  { t with files := t.files.filter (·.1 != names) ++ [(names, text)] }

/-! ## Paths as written

A path as written is followed part by part, and all parts but the last must lead to
folders that exist: what does not exist has no folder around it. Nothing is known of
what lies outside the folder that the program runs in. -/

/-- The folder that one part of a path leads to from another one. -/
def enter (t : FileTree) (here : List String) (part : String) : Option (List String) :=
  if part = "" ∨ part = "." then some here
  else if part = ".." then if here.isEmpty then none else some here.dropLast
  else if t.isFolder (here ++ [part]) then some (here ++ [part])
  else none

/-- The greatest number of bytes of a name. -/
def maxNameBytes : Nat := 255

/-- Whether a part of a path is the name of something in a folder. -/
def isName (part : String) : Bool :=
  part != "" && part != "." && part != ".." && part.utf8ByteSize ≤ maxNameBytes

/-- The greatest number of bytes of a path. -/
def maxPathBytes : Nat := 4095

/-- The parts of a path that starts from the present folder and is not too long. -/
def partsOf? (path : String) : Option (List String) :=
  if path.toList.head? = some '/' || maxPathBytes < path.utf8ByteSize then none
  else some (path.splitOn "/")

/-- The path of the file that a path as written leads to, there or not. -/
def resolve (t : FileTree) (path : String) : Option (List String) := do
  let parts ← partsOf? path
  let name ← parts.getLast?
  let folder ← parts.dropLast.foldlM t.enter []
  if isName name then some (folder ++ [name]) else none

/-! ## Operations -/

/-- Reads a file. -/
def read (t : FileTree) (path : String) : Option String :=
  (t.resolve path).bind t.text?

/-- Writes a file into a folder, unless a folder has its name. -/
def write (t : FileTree) (path text : String) : Option FileTree :=
  match t.resolve path with
  | none => none
  | some names => if t.isFolder names then none else some (t.withFile names text)

/-- Makes the folder that one part of a path leads to, unless a file is in the way. -/
def makeFolder (s : FileTree × List String) (part : String) :
    Option (FileTree × List String) :=
  let (t, here) := s
  match t.enter here part with
  | some there => some (t, there)
  | none =>
    if !isName part || t.isFile (here ++ [part]) then none
    else some ({ t with folders := t.folders ++ [here ++ [part]] }, here ++ [part])

/-- Makes the folders on the way that are missing. -/
def makeFolders (t : FileTree) (path : String) : Option FileTree := do
  let parts ← partsOf? path
  let (t, _) ← parts.foldlM makeFolder (t, [])
  return t

/-- Applies a change that may be impossible, and says whether it was. -/
def attempt (change : FileTree → Option FileTree) : StateM FileTree Bool := do
  match change (← get) with
  | some t => set t; return true
  | none => return false

/-- The operations on a tree in memory. -/
def access : FileAccess (StateM FileTree) where
  read path := return (← get).read path
  write path text := attempt (·.write path text)
  makeFolders path := attempt (·.makeFolders path)

end FileTree

end WorldModel
