import SealedContainer.Container.Stream

/-!
Files and directories as a program meets them: a path is followed from place to place, and what is
there is read, or put there anew.
-/

namespace SealedContainer

inductive FileError where
  | notFound
  | notDirectory
  | isDirectory
  | notText
  deriving DecidableEq, Repr

def FileError.message : FileError → String
  | notFound => "No such file or directory (os error 2)"
  | notDirectory => "Not a directory (os error 20)"
  | isDirectory => "Is a directory (os error 21)"
  | notText => "stream did not contain valid UTF-8"

inductive Node where
  | file (content : Bytes)
  | directory
  deriving DecidableEq, Repr

/-- The names that lead to a place, from the current directory or from the root of all. -/
abbrev Place := List String

/-- What is at each place. The current directory and the root are always there. -/
structure FileTree where
  nodes : List (Place × Node)
  deriving DecidableEq, Repr

namespace FileTree

def root : Place := ["/"]

def node? (t : FileTree) (place : Place) : Option Node :=
  if place = [] ∨ place = root then some .directory else t.nodes.lookup place

def names (path : String) : Place :=
  let parts := (path.splitOn "/").filter fun part => part ≠ "" ∧ part ≠ "."
  if path.startsWith "/" then root ++ parts else parts

def step (place : Place) (name : String) : Place :=
  if name = ".." ∧ place = root then root
  else if name = ".." ∧ place ≠ [] ∧ place.getLast? ≠ some ".." then place.dropLast
  else place ++ [name]

def follow (t : FileTree) (place : Place) : List String → Except FileError Place
  | [] => .ok place
  | [name] => .ok (step place name)
  | name :: rest =>
    let next := step place name
    match t.node? next with
    | some .directory => follow t next rest
    | some (.file _) => .error .notDirectory
    | none => .error .notFound

/-- Whether a path can only lead to a directory. -/
def namesDirectory (path : String) : Bool := ["", "."].contains ((path.splitOn "/").getLastD "")

def locate (t : FileTree) (path : String) : Except FileError Place :=
  if path = "" then .error .notFound else t.follow [] (names path)

def find (t : FileTree) (path : String) : Except FileError Node := do
  match t.node? (← t.locate path) with
  | none => throw .notFound
  | some .directory => return .directory
  | some (.file content) =>
    if namesDirectory path then throw .notDirectory else return .file content

/-- Opens what a path leads to. A directory can be opened but not read. -/
def openFile (t : FileTree) (path : String) : Except FileError Source := do
  match ← t.find path with
  | .file content => return .ofBytes content
  | .directory => return [.fail FileError.isDirectory.message]

def readText (t : FileTree) (path : String) : Except FileError String := do
  match ← t.find path with
  | .directory => throw .isDirectory
  | .file content =>
    match Bytes.toString? content with
    | some text => return text
    | none => throw .notText

def put (t : FileTree) (place : Place) (content : Bytes) : FileTree :=
  ⟨t.nodes.filter (·.1 ≠ place) ++ [(place, .file content)]⟩

def write (t : FileTree) (path : String) (content : Bytes) : Except FileError FileTree := do
  let place ← t.locate path
  match t.node? place with
  | some .directory => throw .isDirectory
  | some (.file _) =>
    if namesDirectory path then throw .notDirectory
    return t.put place content
  | none =>
    if namesDirectory path then throw .isDirectory
    return t.put place content

def ofFiles (files : List (String × Bytes)) : FileTree :=
  let places := files.map fun f => (names f.1, f.2)
  let ways := (places.flatMap fun f => (List.range f.1.length).map f.1.take).eraseDups
  ⟨ways.map (·, .directory) ++ places.map fun f => (f.1, .file f.2)⟩

end FileTree

end SealedContainer
