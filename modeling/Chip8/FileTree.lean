import Chip8.Failure

/-! # File trees

A tree of files around a working directory: how paths are looked up in it, and how files and
directories are made. A path is followed component by component, and every component before
the last has to lead to a directory. Nothing is known of what lies above the working
directory but that it is a directory.
-/

namespace Chip8

inductive FileEntry where
  | file (bytes : List UInt8)
  | directory
  deriving DecidableEq, Repr

namespace FileTree

inductive Origin where
  /-- The directory that lies some levels above the working directory. -/
  | above (levels : Nat)
  | root
  deriving DecidableEq, Repr

/-- Where a path leads: down from an origin. -/
structure Place where
  origin : Origin := .above 0
  path : List String := []
  deriving DecidableEq, Repr

namespace Place

def child (p : Place) (component : String) : Place := { p with path := p.path ++ [component] }

def parent (p : Place) : Place :=
  match p.origin, p.path with
  | .above levels, [] => { origin := .above (levels + 1) }
  | .root, [] => p
  | _, path => { p with path := path.dropLast }

end Place

end FileTree

/-- What has been made at which place, the newest first. -/
structure FileTree where
  entries : List (FileTree.Place × FileEntry) := []
  deriving Repr

namespace FileTree

def components (path : String) : List String := path.splitOn "/"

def baseName (path : String) : String := (components path).getLastD ""

def put (t : FileTree) (place : Place) (entry : FileEntry) : FileTree :=
  { entries := (place, entry) :: t.entries }

def entry? (t : FileTree) (place : Place) : Option FileEntry :=
  if place.path.isEmpty then some .directory else t.entries.lookup place

def isDirectory (t : FileTree) (place : Place) : Bool := t.entry? place == some .directory

/-- The place of a name in a directory, whether something is there or not. -/
def named (place : Place) (name : String) : Except FileError Place :=
  if 255 < name.utf8ByteSize then .error .nameTooLong else .ok (place.child name)

def enter (t : FileTree) (place : Place) (component : String) : Except FileError Place :=
  if !t.isDirectory place then .error .notDirectory
  else if component = "" ∨ component = "." then .ok place
  else if component = ".." then .ok place.parent
  else
    match named place component with
    | .error e => .error e
    | .ok place => if (t.entry? place).isSome then .ok place else .error .notFound

def start (path : String) : Except FileError Place :=
  if path = "" then .error .notFound
  else if 4096 ≤ path.utf8ByteSize then .error .nameTooLong
  else if path.startsWith "/" then .ok { origin := .root }
  else .ok {}

def find (t : FileTree) (path : String) : Except FileError Place := do
  let place ← start path
  (components path).foldlM t.enter place

def read (t : FileTree) (path : String) : Except FileError (List UInt8) := do
  let place ← t.find path
  match t.entry? place with
  | some (.file bytes) => return bytes
  | some .directory => throw .isDirectory
  | none => throw .notFound

def trimmed (path : String) : List String :=
  ((components path).reverse.dropWhile fun c => c = "").reverse

/-- Follows one component of a path, where a directory is made if there is nothing. -/
def enterMaking (made : FileTree × Place) (component : String) :
    Except FileError (FileTree × Place) :=
  match made.1.enter made.2 component with
  | .ok place => .ok (made.1, place)
  | .error .notFound =>
    let place := made.2.child component
    .ok (made.1.put place .directory, place)
  | .error e => .error e

/-- Makes a directory and those on the way to it, as far as they are not there. -/
def makeDirectory (t : FileTree) (path : String) : Except FileError FileTree := do
  let place ← start path
  let (made, place) ← (trimmed path).foldlM enterMaking (t, place)
  if made.isDirectory place then return made else throw .alreadyExists

/-- Makes a file, or gives one that is there new contents. Its directory must be there, and a
path that ends with a slash or in dots names no file. -/
def makeFile (t : FileTree) (path : String) (bytes : List UInt8) :
    Except FileError FileTree := do
  let place ← start path
  let place ← (trimmed path).dropLast.foldlM t.enter place
  let name := baseName path
  if !t.isDirectory place then throw .notDirectory
  else if name = "" ∨ name = "." ∨ name = ".." then throw .isDirectory
  else
    let place ← named place name
    if t.isDirectory place then throw .isDirectory
    else return t.put place (.file bytes)

end FileTree

end Chip8
