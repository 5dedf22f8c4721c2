import MethodLinkage.Descriptor
import MethodLinkage.Arena

/-!
# Sessions

A session owns the types and the descriptors of one compilation. Descriptors are
pooled by text; a pooled descriptor is the one its text reads as, so the pool
never changes an answer (`descriptor?_eq`).
-/

namespace MethodLinkage

structure Session where
  arena : Arena
  descriptors : List Descriptor

namespace Session

def fresh : Session := ⟨.fresh, []⟩

def descriptor? (session : Session) (text : Text) : Option (Descriptor × Session) :=
  match session.descriptors.find? (·.text = text) with
  | some descriptor => some (descriptor, session)
  | none => (Descriptor.ofText? text).map fun descriptor =>
      (descriptor, { session with descriptors := descriptor :: session.descriptors })

theorem descriptor?_eq (session : Session) (text : Text) :
    (session.descriptor? text).map Prod.fst = Descriptor.ofText? text := by
  unfold descriptor?
  split
  · next descriptor h =>
    have htext : descriptor.text = text := by simpa using List.find?_some h
    simp [← htext, Descriptor.ofText?_text]
  · simp [Option.map_map, Function.comp_def]

end Session

end MethodLinkage
