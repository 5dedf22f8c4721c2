import MethodLinkage.Signature.DescriptorCursor

/-!
# Building signatures

A signature is built by walking a cursor over its descriptor. The type of each
element is asked for and goes to the builder; the first failure ends the walk. The
builder is frozen when the cursor is exhausted, and has been given one return type
by then.
-/

namespace MethodLinkage

structure SignatureBuilder where
  parameters : List TypeIndex
  result : Option TypeIndex
  slots : UInt32

namespace SignatureBuilder

def empty : SignatureBuilder := ⟨[], none, 0⟩

def pushParameter (builder : SignatureBuilder) (type : TypeIndex) (slots : UInt32) :
    SignatureBuilder :=
  { builder with parameters := builder.parameters ++ [type], slots := builder.slots + slots }

def setResult (builder : SignatureBuilder) (type : TypeIndex) : Except Fault SignatureBuilder :=
  match builder.result with
  | none => .ok { builder with result := some type }
  | some _ => .error .secondReturnType

def push (builder : SignatureBuilder) (type : TypeIndex) (isReturn : Bool) (arena : Arena) :
    Except Fault SignatureBuilder :=
  if isReturn then builder.setResult type
  else
    match arena.get? type with
    | none => .error (.unissuedType type)
    | some resolved => .ok (builder.pushParameter type resolved.slots)

def freeze (builder : SignatureBuilder) (descriptor : Descriptor) (accessing : TypeIndex) :
    Except Fault Signature :=
  match builder.result with
  | none => .error (.noReturnType descriptor.text)
  | some result => .ok ⟨descriptor, accessing, builder.parameters, result, builder.slots⟩

end SignatureBuilder

namespace Signature

variable {ρ : Type} [Resolver ρ]

/-- Gives the builder all elements that a cursor has left. -/
@[semireducible]
def buildFrom (cursor : DescriptorCursor) (builder : SignatureBuilder) (arena : Arena)
    (resolver : ρ) : Outcome ρ SignatureBuilder :=
  if cursor.isExhausted then .ok builder arena resolver
  else
    let here := cursor.current arena resolver
    here.1.andThen fun type arena resolver =>
      match builder.push type here.2.onReturn arena, _advanced : here.2.advance with
      | .error fault, _ | _, .error fault => .fault fault arena resolver
      | .ok builder, .ok after => buildFrom after builder arena resolver
  termination_by cursor.pending.length
  decreasing_by exact DescriptorCursor.length_pending_of_current _advanced

def build (view : Viewpoint) (descriptor : Descriptor) (arena : Arena) (resolver : ρ) :
    Outcome ρ Signature :=
  match DescriptorCursor.start view descriptor arena with
  | .error fault => .fault fault arena resolver
  | .ok cursor =>
    (buildFrom cursor .empty arena resolver).andThen fun builder arena resolver =>
      .ofArena (builder.freeze descriptor view.accessing, arena) resolver

end Signature

end MethodLinkage
