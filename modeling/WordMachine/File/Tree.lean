import WordMachine.File.ReadError

namespace WordMachine

/-- The files and directories below the working directory. A path is the list of its names, and
every path that leads to an entry is a directory. -/
structure FileTree where
  files : List (List String × ByteArray) := []
  directories : List (List String) := []

namespace FileTree

inductive Entry
  | file (contents : ByteArray)
  | directory
  /-- A directory of which the tree knows nothing, above the working directory. -/
  | outside

def splitPath (path : String) : List String := path.splitOn "/"

def resolve (path : String) : List String :=
  let down (above : List String) (name : String) : List String :=
    if name = "" ∨ name = "." then above
    else if name = ".." then above.tail
    else name :: above
  ((splitPath path).foldl down []).reverse

def withFile (t : FileTree) (path : String) (contents : ByteArray) : FileTree :=
  let names := resolve path
  { t with files := (names, contents) :: t.files.filter fun (p, _) => p != names }

def withDirectory (t : FileTree) (path : String) : FileTree :=
  { t with directories := resolve path :: t.directories }

def isDirectory (t : FileTree) (path : List String) : Bool :=
  path.isEmpty || t.directories.any (path.isPrefixOf ·)
    || t.files.any fun (p, _) => path.isPrefixOf p && path != p

def entry? (t : FileTree) (path : List String) : Option Entry :=
  match t.files.find? fun (p, _) => p == path with
  | some (_, contents) => some (.file contents)
  | none => if t.isDirectory path then some .directory else none

def maxNameBytes : Nat := 255

def maxPathBytes : Nat := 4095

def walk (t : FileTree) (path : List String) (here : Entry) :
    List String → Except ReadError Entry
  | [] => .ok here
  | name :: rest =>
    match here with
    | .file _ => .error .notDirectory
    | .outside =>
      if name = "" ∨ name = "." ∨ name = ".." then walk t path .outside rest
      else if maxNameBytes < name.utf8ByteSize then .error .nameTooLong
      else .error .notFound
    | .directory =>
      if name = "" ∨ name = "." then walk t path here rest
      else if name = ".." then
        match path with
        | [] => walk t [] .outside rest
        | _ :: above => walk t above .directory rest
      else if maxNameBytes < name.utf8ByteSize then .error .nameTooLong
      else
        match t.entry? (name :: path).reverse with
        | some found => walk t (name :: path) found rest
        | none => .error .notFound

def lookup (t : FileTree) (path : String) : Except ReadError Entry :=
  if path.toList.contains '\x00' then .error .nulInName
  else if path.isEmpty then .error .notFound
  else if maxPathBytes < path.utf8ByteSize then .error .nameTooLong
  else if path.toList.head? = some '/' then t.walk [] .outside (splitPath path)
  else t.walk [] .directory (splitPath path)

def read (t : FileTree) (path : String) : Except ReadError String := do
  match ← t.lookup path with
  | .directory | .outside => .error .isDirectory
  | .file contents =>
    match String.fromUTF8? contents with
    | some text => .ok text
    | none => .error .notUtf8

end FileTree

end WordMachine
