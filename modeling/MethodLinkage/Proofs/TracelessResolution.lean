import MethodLinkage.Proofs.ArenaBijection
import MethodLinkage.Proofs.ArenaGrowth
import MethodLinkage.Proofs.ReachedStates

/-!
# Resolutions that leave no trace

Whatever a name is, resolving it adds types only where it is found, and not in the table. Then what
is added are the missing ones among the class and its arrays of one dimension after another up to
the one that is found. A search comes before anything is interned, and what it finds can always be
an element of arrays. So nothing fails after the first type was added, but for want of numbers: then
the first of the missing ones are added until the arena is full.
-/

namespace MethodLinkage
namespace Arena

variable {arena : Arena} {element : Ty} {id component : TypeIndex} {dimensions depth : Nat}

end Arena

namespace LoaderSystem

variable {system : LoaderSystem} {arena : Arena} {loader : LoaderIndex} {target : Target}

/-- What a target is for a loader: the class that the search for it ends at, or a primitive. -/
def Shows (system : LoaderSystem) (loader : LoaderIndex) : Target → Ty → Prop
  | .classNamed className, element => ∃ info definer,
      system.sight loader className = .ok (some (info, definer)) ∧
        element = .loadedClass info.name definer
  | .single letter, element => ∃ base, Primitive.ofLetter? letter = some base ∧
      element = .primitive base
  | .malformed, _ => False

theorem Shows.ne_array {element : Ty} (h : system.Shows loader target element) :
    ∀ component, element ≠ .array component := by
  cases target with
  | classNamed className =>
    obtain ⟨_, _, -, rfl⟩ := h
    exact nofun
  | single letter =>
    obtain ⟨_, -, rfl⟩ := h
    exact nofun
  | malformed => exact h.elim

end LoaderSystem
end MethodLinkage
