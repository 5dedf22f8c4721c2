import MethodLinkage.Classes.ClassPath
import MethodLinkage.Resolution

/-!
# Loader systems

Loaders are registered one after another, each below a parent that is registered
already; the first has no parent. A class is searched parent first: the loaders
of the delegation chain are asked from the bootstrap loader down to the initiating
one, and the first answer other than "not found" ends the search. So a class that
a common ancestor has is the same type for all loaders below.
-/

namespace MethodLinkage

/-- A registered loader with its ancestors, nearest first. -/
structure Loader where
  path : ClassPath
  ancestors : List LoaderIndex

structure LoaderSystem where
  files : FileTree
  loaders : List Loader
  probes : List Probe

namespace LoaderSystem

def start (files : FileTree) (bootstrap : ClassPath) : LoaderSystem :=
  ⟨files, [⟨bootstrap, []⟩], []⟩

def loader? (system : LoaderSystem) (id : LoaderIndex) : Option Loader :=
  system.loaders[id.toNat]?

def chain? (system : LoaderSystem) (id : LoaderIndex) : Option (List LoaderIndex) :=
  (system.loader? id).map (id :: ·.ancestors)

def addLoader (system : LoaderSystem) (path : ClassPath) (parent : LoaderIndex) :
    Except Fault (LoaderIndex × LoaderSystem) :=
  match system.chain? parent with
  | none => .error (.unregisteredParent parent)
  | some ancestors =>
    if system.loaders.length < numberLimit then
      .ok (⟨system.loaders.length⟩,
        { system with loaders := system.loaders ++ [⟨path, ancestors⟩] })
    else .error .tooManyLoaders

theorem exists_of_addLoader {system extended : LoaderSystem} {path : ClassPath}
    {parent id : LoaderIndex} (h : system.addLoader path parent = .ok (id, extended)) :
    ∃ ancestors, system.chain? parent = some ancestors ∧
      system.loaders.length < numberLimit ∧ id = ⟨system.loaders.length⟩ ∧
      extended = { system with loaders := system.loaders ++ [⟨path, ancestors⟩] } := by
  rw [addLoader] at h
  split at h
  · cases h
  · next ancestors hchain =>
    split at h
    · next hroom =>
      cases h
      exact ⟨ancestors, hchain, hroom, rfl, rfl⟩
    · cases h

def insertClass (system : LoaderSystem) (tag name : Text) : LoaderSystem :=
  { system with
    loaders := system.loaders.map fun loader =>
      { loader with path := loader.path.insert tag name } }

def ask (system : LoaderSystem) (id : LoaderIndex) (loader : Loader) (name : Text) :
    Except LookupError FoundClass × LoaderSystem :=
  let search := loader.path.find system.files name
  (search.answer,
    { system with
      loaders := system.loaders.set id.toNat { loader with path := search.after }
      probes := system.probes ++ search.probes })

def search (system : LoaderSystem) (name : Text) :
    List LoaderIndex → Except ResolverError (Option (FoundClass × LoaderIndex)) × LoaderSystem
  | [] => (.ok none, system)
  | id :: rest =>
    match system.loader? id with
    | none => (.error (.unknownLoader id), system)
    | some loader =>
      match system.ask id loader name with
      | (.ok info, after) => (.ok (some (info, id)), after)
      | (.error .notFound, after) => after.search name rest
      | (.error cause, after) => (.error (.classPath name id cause), after)

def load (system : LoaderSystem) (arena : Arena) (initiating : LoaderIndex) (name : Text) :
    Outcome LoaderSystem (Option TypeIndex) :=
  match system.chain? initiating with
  | none => .error (.unknownLoader initiating) arena system
  | some chain =>
    match system.search name chain.reverse with
    | (.error error, after) => .error error arena after
    | (.ok none, after) => .ok none arena after
    | (.ok (some (info, loader)), after) =>
      (Outcome.ofArena (arena.intern (.loadedClass info.name loader)) after).map some

inductive Target where
  | classNamed (name : Text)
  | single (letter : Char)
  | malformed
  deriving DecidableEq

/-- The target of an array name without its brackets: a class between a capital L
and a final semicolon, or a single letter. -/
def Target.ofArrayElement : Text → Target
  | [] => .malformed
  | 'L' :: c :: rest =>
    if (c :: rest).getLast? = some ';' then .classNamed (c :: rest).dropLast else .malformed
  | [letter] => .single letter
  | _ => .malformed

def Target.ofName (name : Text) : Nat × Target :=
  match (name.takeWhile (· = '[')).length with
  | 0 => (0, .classNamed name)
  | dimensions + 1 => (dimensions + 1, ofArrayElement (name.dropWhile (· = '[')))

def element (system : LoaderSystem) (arena : Arena) (initiating : LoaderIndex) (name : Text) :
    Target → Outcome LoaderSystem (Option TypeIndex)
  | .classNamed className => system.load arena initiating className
  | .single letter => .ok ((Primitive.ofLetter? letter).map .ofPrimitive) arena system
  | .malformed => .fault (.malformedArrayName name) arena system

/-- The table answers for whole names and before anything else is looked at. -/
def resolve (system : LoaderSystem) (arena : Arena) (view : Viewpoint) (name : Text) :
    Outcome LoaderSystem Resolution :=
  match view.references.lookup name with
  | some id => .ok (.found id) arena system
  | none =>
    match arena.accessingLoader view.accessing with
    | .error fault => .fault fault arena system
    | .ok initiating =>
      let (dimensions, target) := Target.ofName name
      (system.element arena initiating name target).andThen fun element arena system =>
        match element with
        | none => .ok (.missing name) arena system
        | some id => (Outcome.ofArena (arena.arrayOver id dimensions) system).map .found

instance : Resolver LoaderSystem := ⟨resolve⟩

end LoaderSystem

end MethodLinkage
