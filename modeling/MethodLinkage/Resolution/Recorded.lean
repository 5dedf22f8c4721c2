import MethodLinkage.Resolution

/-!
# Recorded resolvers

A recorded resolver answers as the one inside it does and keeps the names it was
asked for, in order.
-/

namespace MethodLinkage

structure Recorded (ρ : Type) where
  inner : ρ
  asked : List Text

namespace Recorded

variable {ρ : Type} [Resolver ρ]

def resolve (recorded : Recorded ρ) (arena : Arena) (view : Viewpoint) (name : Text) :
    Outcome (Recorded ρ) Resolution :=
  let outcome := Resolver.resolve recorded.inner arena view name
  ⟨outcome.answer, outcome.arena, ⟨outcome.resolver, recorded.asked ++ [name]⟩⟩

instance : Resolver (Recorded ρ) := ⟨resolve⟩

end Recorded

end MethodLinkage
