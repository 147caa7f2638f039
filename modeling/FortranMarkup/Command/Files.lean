/-!
# Files

What the command needs of a file system: to read a file, and to tell whether a path leads anywhere.
A `FileTree` is a file system that is all in memory.
-/

namespace FortranMarkup.Command

/-- Why a file cannot be read. -/
inductive ReadError where
  | notFound
  | isDirectory
  | notDirectory
  /-- The file is to hold text and does not. -/
  | notText
  | other (description : String)
deriving Repr, DecidableEq

/-- What the user is told. -/
def ReadError.message : ReadError → String
  | notFound => "No such file or directory (os error 2)"
  | isDirectory => "Is a directory (os error 21)"
  | notDirectory => "Not a directory (os error 20)"
  | notText => "stream did not contain valid UTF-8"
  | other description => description

/-- Access to files, with what access to them takes. -/
structure Files (m : Type → Type) where
  /-- The home directory of the user, if there is one. -/
  home? : m (Option String)
  /-- Whether a path leads to a file or a directory. -/
  leads : String → m Bool
  /-- Reads a file. -/
  read : String → m (Except ReadError (List UInt8))

/-- The files below a directory by their paths. A path that ends with a slash is a directory. -/
structure FileTree where
  files : List (String × List UInt8)
deriving Repr

namespace FileTree

/-- What is at a place in a tree. -/
inductive Place where
  | file (bytes : List UInt8)
  | directory
deriving Repr, DecidableEq

/-- The names in a path. -/
def names (path : String) : List (List Char) :=
  path.toList.splitOn '/'

/-- What is at the place with some names. -/
def at? (tree : FileTree) (place : List (List Char)) : Option Place :=
  match tree.files.find? (fun file => names file.1 = place) with
  | some (_, bytes) => some (.file bytes)
  | none =>
    if place = [] ∨ tree.files.any (fun file => place.isPrefixOf (names file.1)) then
      some .directory
    else none

/-- Goes from a place along some names. Each step is taken in a directory. -/
def walk (tree : FileTree) :
    List (List Char) → List (List Char) → Except ReadError (List (List Char))
  | place, [] => .ok place
  | place, name :: rest =>
    match tree.at? place with
    | none => .error .notFound
    | some (.file _) => .error .notDirectory
    | some .directory =>
      if name = [] ∨ name = ['.'] then tree.walk place rest
      else if name = ['.', '.'] then tree.walk place.dropLast rest
      else tree.walk (place ++ [name]) rest

/-- Reads the file of a path. Only paths that begin at the tree's own directory lead into it. -/
def read (tree : FileTree) (path : String) : Except ReadError (List UInt8) :=
  if path = "" ∨ path.toList.head? = some '/' then .error .notFound
  else
    match tree.walk [] (names path) with
    | .error error => .error error
    | .ok place =>
      match tree.at? place with
      | some (.file bytes) => .ok bytes
      | some .directory => .error .isDirectory
      | none => .error .notFound

/-- Whether a path leads to a file or a directory. -/
def leads (tree : FileTree) (path : String) : Bool :=
  match tree.read path with
  | .ok _ | .error .isDirectory => true
  | .error _ => false

/-- Access to the files of a tree, with the given home directory. -/
def access (tree : FileTree) (home? : Option String) : Files Id where
  home? := home?
  leads := tree.leads
  read := tree.read

end FileTree

end FortranMarkup.Command
