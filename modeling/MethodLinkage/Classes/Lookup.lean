import MethodLinkage.Descriptor.ClassName
import MethodLinkage.Classes.FileTree

/-!
# Looking a class up in one place

A place holds classes: a list of names in memory, a directory, an archive, or a
place that fails for given names. Looking up a name finds the class, or tells
that it is not there, or tells that the place could not be read.
-/

namespace MethodLinkage

/-- Texts are known only of failures that a place was made with. -/
inductive LookupError where
  | notFound
  | unreadable (cause : AccessError) (text : Option Text)
  | other (text : Option Text)
  deriving DecidableEq

def ArchiveError.lookupError : ArchiveError → LookupError
  | truncated => .unreadable .unexpectedEnd none
  | unreachable => .unreadable .placeOutOfReach none
  | malformed | unsupported => .other none

def LookupError.message : LookupError → Option Text
  | notFound => some "Class not found".toList
  | unreadable _ text => text.map ("IO error: ".toList ++ ·)
  | other text => text.map ("Cause: ".toList ++ ·)

inductive ClassOrigin where
  | memory
  | file (path : Text)
  | archive (file entry : Text)
  deriving DecidableEq

structure FoundClass where
  name : Text
  origin : ClassOrigin
  deriving DecidableEq

inductive Place where
  | memory (classes : List Text)
  | directory (path : Text)
  | archive (file : Text)
  | failing (error : LookupError) (only : Option (List Text))
  deriving DecidableEq

namespace Place

def classEnding : Text := ".class".toList

def classFile (directory name : Text) : Text :=
  let base :=
    if directory = [] ∨ directory.getLast? = some '/' then directory else directory ++ ['/']
  base ++ name ++ classEnding

/-- Only binary names are looked up, so a lookup stays inside the directory. -/
def findInDirectory (files : FileTree) (directory name : Text) : Except LookupError FoundClass :=
  if IsBinaryName name then
    match files.locate (classFile directory name) with
    | .ok (.file _) => .ok ⟨name, .file (classFile directory name)⟩
    | .ok (.directory _) => .error .notFound
    | .error .notFound => .error .notFound
    | .error cause => .error (.unreadable cause none)
  else .error .notFound

/-- Archives are searched by exact entry name, whatever the name. -/
def findInArchive (files : FileTree) (file name : Text) : Except LookupError FoundClass :=
  match files.locate file with
  | .error cause => .error (.unreadable cause none)
  | .ok (.directory _) => .error (.unreadable .isADirectory none)
  | .ok (.file content) =>
    match files.readEntry content.data.toList (name ++ classEnding) with
    | .error cause => .error cause.lookupError
    | .ok none => .error .notFound
    | .ok (some _) => .ok ⟨name, .archive file (name ++ classEnding)⟩

def find (files : FileTree) (name : Text) : Place → Except LookupError FoundClass
  | memory classes => if name ∈ classes then .ok ⟨name, .memory⟩ else .error .notFound
  | directory path => findInDirectory files path name
  | archive file => findInArchive files file name
  | failing error none => .error error
  | failing error (some names) => if name ∈ names then .error error else .error .notFound

end Place

end MethodLinkage
