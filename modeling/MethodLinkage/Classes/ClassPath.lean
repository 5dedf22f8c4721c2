import MethodLinkage.Classes.Lookup

/-!
# Class paths

A class path is a tree: its leaves are places, its inner nodes are loaders that
ask their paths in order and take the first answer that is not "not found". A
caching loader remembers the classes it found, by name, and answers for them
without asking again; misses and failures are not remembered. A tag on a path
has every lookup there noted, outer paths before inner ones.

A lookup leaves a class path behind, since caches fill up on the way.
-/

namespace MethodLinkage

abbrev ClassCache := List (Text × FoundClass)

inductive ClassPath where
  | place (place : Place)
  | tagged (tag : Text) (path : ClassPath)
  | loader (cache : Option ClassCache) (paths : List ClassPath)

structure Probe where
  tag : Text
  name : Text
  deriving DecidableEq

/-- The answer of a lookup, what it was asked of as it is afterwards, and the notes taken. -/
structure Search (α : Type) where
  answer : Except LookupError FoundClass
  after : α
  probes : List Probe

namespace ClassPath

def remember (name : Text) (cache : ClassCache) : Except LookupError FoundClass → ClassCache
  | .ok info => (name, info) :: cache
  | .error _ => cache

mutual

def find (files : FileTree) (name : Text) : ClassPath → Search ClassPath
  | place p => ⟨p.find files name, place p, []⟩
  | tagged tag path =>
    let inner := find files name path
    ⟨inner.answer, tagged tag inner.after, ⟨tag, name⟩ :: inner.probes⟩
  | loader none paths =>
    let inner := findFirst files name paths
    ⟨inner.answer, loader none inner.after, inner.probes⟩
  | loader (some cache) paths =>
    match cache.lookup name with
    | some info => ⟨.ok info, loader (some cache) paths, []⟩
    | none =>
      let inner := findFirst files name paths
      ⟨inner.answer, loader (some (remember name cache inner.answer)) inner.after, inner.probes⟩

/-- The first answer other than "not found" ends the search. -/
def findFirst (files : FileTree) (name : Text) : List ClassPath → Search (List ClassPath)
  | [] => ⟨.error .notFound, [], []⟩
  | path :: rest =>
    let first := find files name path
    match first.answer with
    | .error .notFound =>
      let later := findFirst files name rest
      ⟨later.answer, first.after :: later.after, first.probes ++ later.probes⟩
    | answer => ⟨answer, first.after :: rest, first.probes⟩

end

mutual

def insert (tag name : Text) : ClassPath → ClassPath
  | place p => place p
  | tagged other (place (.memory classes)) =>
    tagged other (place (.memory (if other = tag then name :: classes else classes)))
  | tagged other path => tagged other (insert tag name path)
  | loader cache paths => loader cache (insertAll tag name paths)

def insertAll (tag name : Text) : List ClassPath → List ClassPath
  | [] => []
  | path :: rest => insert tag name path :: insertAll tag name rest

end

end ClassPath

end MethodLinkage
