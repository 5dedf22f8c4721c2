import MethodLinkage.Signature.Cursor
import MethodLinkage.Signature.DescriptorCursor

/-!
# Matching

A signature matches a cursor over a descriptor when the descriptors are equal and
every element the cursor has left resolves to the signature's own type there, with
none left over on either side. Elements are resolved in order and only up to the
first that differs; descriptors that differ are told apart without resolving.
-/

namespace MethodLinkage

variable {ρ : Type} [Resolver ρ]

namespace Signature

@[semireducible]
def matchFrom (own : SignatureCursor) (other : DescriptorCursor) (arena : Arena) (resolver : ρ) :
    Outcome ρ Bool :=
  if other.isExhausted then .ok own.isExhausted arena resolver
  else if own.isExhausted ∨ own.onReturn ≠ other.onReturn then .ok false arena resolver
  else
    match own.current with
    | .error fault => .fault fault arena resolver
    | .ok type =>
      let here := other.current arena resolver
      here.1.andThen fun id arena resolver =>
        if type ≠ id then .ok false arena resolver
        else
          match own.advance, _advanced : here.2.advance with
          | .error fault, _ | _, .error fault => .fault fault arena resolver
          | .ok own, .ok other => matchFrom own other arena resolver
  termination_by other.pending.length
  decreasing_by exact DescriptorCursor.length_pending_of_current _advanced

def matchCursor (signature : Signature) (cursor : DescriptorCursor) (arena : Arena)
    (resolver : ρ) : Outcome ρ Bool :=
  if signature.descriptor = cursor.descriptor then
    matchFrom (.start signature) cursor arena resolver
  else .ok false arena resolver

/-- Matches a descriptor seen from a viewpoint, some of whose elements are skipped. -/
def matchDescriptor (signature : Signature) (view : Viewpoint) (descriptor : Descriptor)
    (skipped : Nat) (arena : Arena) (resolver : ρ) : Outcome ρ Bool :=
  match DescriptorCursor.start view descriptor arena with
  | .error fault => .fault fault arena resolver
  | .ok cursor =>
    match DescriptorCursor.skip skipped cursor with
    | .error fault => .fault fault arena resolver
    | .ok cursor => signature.matchCursor cursor arena resolver

end Signature

end MethodLinkage
