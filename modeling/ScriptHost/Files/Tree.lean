/-
A tree of directories and files, and how a path is walked in it. Blank components and single dots
stay where they are, two dots go up, and a path that ends in a slash has to lead to a directory. What
lies above the tree is taken for empty directories. The paths that build a tree are walked likewise.
-/
import ScriptHost.Files.Basic
import ScriptHost.Script.Split

namespace ScriptHost

inductive Node where
  | directory
  | file (content : Bytes)
  deriving Repr, DecidableEq

/-- The nodes below a directory, each with the names on the way to it, the latest first. -/
structure FileTree where
  nodes : List (List String × Node)

/-- Why a path leads nowhere, or to something that cannot be read. -/
inductive PathError where
  | notFound
  | isDirectory
  | notDirectory
  | nameTooLong
  deriving Repr, DecidableEq

def PathError.fileError : PathError → FileError
  | .notFound => ⟨"NotFound", "No such file or directory (os error 2)"⟩
  | .isDirectory => ⟨"IsADirectory", "Is a directory (os error 21)"⟩
  | .notDirectory => ⟨"NotADirectory", "Not a directory (os error 20)"⟩
  | .nameTooLong => ⟨"InvalidFilename", "File name too long (os error 36)"⟩

/-- A place on the way: a node of the tree, or a number of steps above it. -/
inductive Place where
  | inside (names : List String)
  | above (steps : Nat)
  deriving Repr, DecidableEq

namespace FileTree

def empty : FileTree := ⟨[]⟩

/-- The most bytes that a name may have, and the most that a path may have. -/
def longestName : Nat := 255
def longestPath : Nat := 4095

def components (path : String) : List String :=
  ((Script.splitOnChar '/' path.toList).filter (!·.isEmpty)).map String.ofList

def node? (t : FileTree) : Place → Option Node
  | .inside [] => some .directory
  | .inside names => t.nodes.lookup names
  | .above _ => some .directory

def parent : Place → Place
  | .inside [] => .above 1
  | .inside names => .inside names.dropLast
  | .above steps => .above (steps + 1)

def enter (t : FileTree) (place : Place) (name : String) : Except PathError Place :=
  if t.node? place ≠ some .directory then .error .notDirectory
  else if name = "." then .ok place
  else if name = ".." then .ok (parent place)
  else if name.utf8ByteSize > longestName then .error .nameTooLong
  else
    match place with
    | .inside names =>
      let next := Place.inside (names ++ [name])
      if (t.node? next).isSome then .ok next else .error .notFound
    | .above _ => .error .notFound

def start (path : String) : Place :=
  if path.toList.head? = some '/' then .above 1 else .inside []

def endsInSlash (path : String) : Bool := path.toList.getLast? = some '/'

def walk (t : FileTree) (path : String) : Except PathError Node := do
  if path.isEmpty then throw .notFound
  if path.utf8ByteSize > longestPath then throw .nameTooLong
  let place ← (components path).foldlM t.enter (start path)
  match t.node? place with
  | none => throw .notFound
  | some (.file content) =>
    if endsInSlash path then throw .notDirectory
    return .file content
  | some .directory => return .directory

/-! ## Building a tree -/

/-- Puts a node at a place below the tree's root, over an older one. -/
def put (t : FileTree) (names : List String) (node : Node) : FileTree := ⟨(names, node) :: t.nodes⟩

/-- Goes along names and makes a directory where nothing stands. Where the way is barred it ends. -/
def makeDirectories (t : FileTree) (place : Place) : List String → FileTree
  | [] => t
  | name :: names =>
    match t.enter place name, place with
    | .ok next, _ => t.makeDirectories next names
    | .error .notFound, .inside here =>
      (t.put (here ++ [name]) .directory).makeDirectories (.inside (here ++ [name])) names
    | .error _, _ => t

/-- Adds a directory and those on the way to it. -/
def addDirectory (t : FileTree) (path : String) : FileTree :=
  t.makeDirectories (start path) (components path)

/-- Adds a file to a directory that is there, or changes the content of one. -/
def addFile (t : FileTree) (path : String) (content : Bytes) : FileTree :=
  match (components path).dropLast.foldlM t.enter (start path), (components path).getLast? with
  | .ok (.inside here), some name =>
    let free :=
      match t.enter (.inside here) name with
      | .ok (.inside names) => names = here ++ [name] && t.node? (.inside names) ≠ some .directory
      | .ok (.above _) => false
      | .error error => error = .notFound
    if free && !endsInSlash path then t.put (here ++ [name]) (.file content) else t
  | _, _ => t

def files (t : FileTree) : Files where
  isRegular path :=
    match t.walk path with
    | .ok (.file _) => true
    | _ => false
  read path :=
    match t.walk path with
    | .ok (.file content) => .ok content
    | .ok .directory => .error PathError.isDirectory.fileError
    | .error error => .error error.fileError

end FileTree

end ScriptHost
