import MethodLinkage.Classes.Archive

/-!
# File trees

The files a search reads: directories of named entries and files of bytes. A path
that starts with a slash is walked from the root, any other from the working
directory. An empty segment and the full stop stay where they are, two full stops
go to the parent, which for the root is itself, and all of them need a directory to
stand in. A name of more than 255 bytes cannot exist, a path of 4096 bytes or more
cannot be walked, and one with a null character is no path.

The working directory can be removed as any directory can, and is made again with
the next file in it. The root stays; what removes it empties it.

A tree comes with the reader of the archives among its files.
-/

namespace MethodLinkage

inductive AccessError where
  | notFound
  | notADirectory
  | isADirectory
  | nameTooLong
  | nullInPath
  | unexpectedEnd
  | placeOutOfReach
  | unspecified
  deriving DecidableEq

inductive Node where
  | file (content : ByteArray)
  | directory (entries : List (Text × Node))

/-- The entries of the root, the names that lead from there to the working directory, and what
tells whether an archive has an entry of a name that can be opened. -/
structure FileTree where
  entries : List (Text × Node)
  workingDirectory : List Text
  readEntry : Bytes → Text → Except ArchiveError (Option ArchiveEntry)

namespace Node

def emptyDirectory : Node := directory []

def isHere (segment : Text) : Bool := segment = [] || segment = ['.']

def isParent (segment : Text) : Bool := segment = ['.', '.']

def canExist (name : Text) : Bool := Text.byteLength name ≤ 255

/-- Walks from a node whose ancestors are given, nearest first. -/
def walk (above : List Node) (here : Node) : List Text → Except AccessError Node
  | [] => .ok here
  | segment :: rest =>
    match here with
    | file _ => .error .notADirectory
    | directory entries =>
      if isHere segment then walk above here rest
      else if isParent segment then
        match above with
        | [] => walk [] here rest
        | parent :: above => walk above parent rest
      else if !canExist segment then .error .nameTooLong
      else match entries.lookup segment with
        | none => .error .notFound
        | some child => walk (here :: above) child rest

def at? : List Text → Option Node → Option Node
  | [], here => here
  | name :: rest, some (directory entries) => at? rest (entries.lookup name)
  | _ :: _, _ => none

def setEntry (entries : List (Text × Node)) (name : Text) (child : Option Node) :
    List (Text × Node) :=
  let others := entries.filter (·.1 ≠ name)
  match child with
  | none => others
  | some child => (name, child) :: others

def alter (change : Option Node → Option Node) : List Text → Option Node → Option Node
  | [], here => change here
  | name :: rest, some (directory entries) =>
    some (directory (setEntry entries name (alter change rest (entries.lookup name))))
  | _ :: _, here => here

end Node

namespace FileTree

/-- The working directory stands below the root under some name. -/
def empty : FileTree :=
  let name := "working-directory".toList
  ⟨[(name, .emptyDirectory)], [name], Archive.find⟩

def root (tree : FileTree) : Node := .directory tree.entries

def alter (tree : FileTree) (change : Option Node → Option Node) (names : List Text) : FileTree :=
  match Node.alter change names (some tree.root) with
  | some (.directory entries) => { tree with entries := entries }
  | _ => { tree with entries := [] }

def isAbsolute (path : Text) : Bool := path.head? = some '/'

def pathError? (path : Text) : Option AccessError :=
  if '\x00' ∈ path then some .nullInPath
  else if 4096 ≤ Text.byteLength path then some .nameTooLong
  else none

def route (tree : FileTree) (path : Text) : List Text :=
  (if isAbsolute path then [] else tree.workingDirectory) ++ path.segments

def locate (tree : FileTree) (path : Text) : Except AccessError Node :=
  match pathError? path with
  | some error => .error error
  | none => tree.root.walk [] (tree.route path)

def namesAfter (names : List Text) (segment : Text) : List Text :=
  if Node.isHere segment then names
  else if Node.isParent segment then names.dropLast
  else names ++ [segment]

def names (tree : FileTree) (path : Text) : List Text := (tree.route path).foldl namesAfter []

/-- Makes the directories on the way, up to one that cannot be made, and tells the names of the
last if all are there. -/
def makeAlong (tree : FileTree) (names : List Text) : List Text → FileTree × Option (List Text)
  | [] => (tree, some names)
  | segment :: rest =>
    let names := namesAfter names segment
    match Node.at? names (some tree.root) with
    | some (.file _) => (tree, none)
    | some (.directory _) => tree.makeAlong names rest
    | none =>
      if Node.canExist segment then
        (tree.alter (fun _ => some .emptyDirectory) names).makeAlong names rest
      else (tree, none)

def makeDirectory (tree : FileTree) (path : Text) : FileTree :=
  if (pathError? path).isSome then tree else (tree.makeAlong [] (tree.route path)).1

def putFile (content : ByteArray) : Option Node → Option Node
  | some (.directory entries) => some (.directory entries)
  | _ => some (.file content)

def write (tree : FileTree) (path : Text) (content : ByteArray) : FileTree :=
  let name := path.segments.getLastD []
  if Node.isHere name || Node.isParent name || (pathError? path).isSome then tree
  else
    match tree.makeAlong [] (tree.route path).dropLast with
    | (tree, none) => tree
    | (tree, some names) =>
      if Node.canExist name then tree.alter (putFile content) (names ++ [name]) else tree

/-- Slashes may follow the name; the empty path names the working directory. -/
def endsInName (path : Text) : Bool :=
  match (path.segments.filter (· ≠ [])).getLast? with
  | none => true
  | some segment => !(Node.isHere segment || Node.isParent segment)

/-- Removes what is at a path. A directory is emptied first, and goes only if the path names it and
still leads to it. -/
def remove (tree : FileTree) (path : Text) : FileTree :=
  let change (node : Option Node) : FileTree := tree.alter (fun _ => node) (tree.names path)
  match tree.locate path with
  | .ok (.file _) => change none
  | .ok (.directory _) =>
    let emptied := change (some .emptyDirectory)
    if endsInName path && (emptied.locate path).isOk then change none else emptied
  | .error _ => tree

/-- The same path, said from the first segment on that goes anywhere: the form in which
paths are shown. -/
def shortened (path : Text) : Text :=
  ['/'].intercalate (path.segments.dropWhile (Node.isHere ·))

end FileTree

end MethodLinkage
