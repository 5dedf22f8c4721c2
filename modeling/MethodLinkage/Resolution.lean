import MethodLinkage.Arena
import MethodLinkage.Classes.Lookup

/-!
# Resolving names

A name is resolved on behalf of an accessing type, with a table of references
that are resolved already. The answer is a loaded type, or that the class is not
loaded from there. A resolver may change as it answers, and so may the arena, also
when the call fails; an `Outcome` therefore holds all three.
-/

namespace MethodLinkage

inductive ResolverError where
  | classPath (name : Text) (loader : LoaderIndex) (cause : LookupError)
  | unknownLoader (loader : LoaderIndex)
  deriving DecidableEq

def ResolverError.message : ResolverError → Option Text
  | classPath name loader cause =>
    cause.message.map fun text =>
      "Failed to look up ".toList ++ name ++ " through ".toList ++ loader.text ++
        ": ".toList ++ text
  | unknownLoader loader => some ("Unknown class loader ".toList ++ loader.text)

inductive Failure where
  | error (error : ResolverError)
  | fault (fault : Fault)
  deriving DecidableEq

inductive Resolution where
  | found (id : TypeIndex)
  | missing (name : Text)
  deriving DecidableEq

/-- References resolved so far; of several entries for one name the first counts. -/
abbrev References := List (Text × TypeIndex)

namespace References

def insert (references : References) (name : Text) (id : TypeIndex) : References :=
  (name, id) :: references

end References

/-- On whose behalf names are resolved, and with which table. -/
structure Viewpoint where
  accessing : TypeIndex
  references : References

structure Outcome (ρ α : Type) where
  answer : Except Failure α
  arena : Arena
  resolver : ρ

namespace Outcome

variable {ρ α β : Type}

def ok (value : α) (arena : Arena) (resolver : ρ) : Outcome ρ α :=
  ⟨.ok value, arena, resolver⟩

def fault (fault : Fault) (arena : Arena) (resolver : ρ) : Outcome ρ α :=
  ⟨.error (.fault fault), arena, resolver⟩

def error (error : ResolverError) (arena : Arena) (resolver : ρ) : Outcome ρ α :=
  ⟨.error (.error error), arena, resolver⟩

def ofArena (result : Except Fault α × Arena) (resolver : ρ) : Outcome ρ α :=
  ⟨result.1.mapError .fault, result.2, resolver⟩

def map (f : α → β) (outcome : Outcome ρ α) : Outcome ρ β :=
  ⟨outcome.answer.map f, outcome.arena, outcome.resolver⟩

def andThen (outcome : Outcome ρ α) (next : α → Arena → ρ → Outcome ρ β) :
    Outcome ρ β :=
  match outcome.answer with
  | .ok value => next value outcome.arena outcome.resolver
  | .error failure => ⟨.error failure, outcome.arena, outcome.resolver⟩

theorem andThen_ok (value : α) (arena : Arena) (resolver : ρ)
    (next : α → Arena → ρ → Outcome ρ β) :
    (ok value arena resolver).andThen next = next value arena resolver := rfl

theorem exists_of_andThen {outcome : Outcome ρ α} {next : α → Arena → ρ → Outcome ρ β} {value : β}
    (h : (outcome.andThen next).answer = .ok value) :
    ∃ first, outcome.answer = .ok first ∧
      outcome.andThen next = next first outcome.arena outcome.resolver := by
  obtain ⟨_ | first, arena, resolver⟩ := outcome
  · cases h
  · exact ⟨first, rfl, rfl⟩

theorem andThen_assoc {γ : Type} (outcome : Outcome ρ α) (next : α → Arena → ρ → Outcome ρ β)
    (last : β → Arena → ρ → Outcome ρ γ) :
    (outcome.andThen next).andThen last =
      outcome.andThen fun value arena resolver => (next value arena resolver).andThen last := by
  obtain ⟨answer, arena, resolver⟩ := outcome
  cases answer <;> rfl

end Outcome

class Resolver (ρ : Type) where
  resolve : ρ → Arena → Viewpoint → Text → Outcome ρ Resolution

end MethodLinkage
