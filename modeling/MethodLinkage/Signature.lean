import MethodLinkage.Descriptor
import MethodLinkage.Resolution
import Std.Data.HashSet

/-!
# Signatures

A signature is a method descriptor whose elements are resolved on behalf of an
accessing type. Primitives and `void` have fixed numbers and never reach the
resolver; a reference that is not loaded becomes the placeholder of the accessing
type's loader.

Two signatures are equal when their descriptors are and their elements have the
same types, whatever the accessing types were.
-/

namespace MethodLinkage

variable {ρ : Type} [Resolver ρ]

/-- Resolves a name, with a placeholder of the loader for what is not loaded. -/
def resolveReference (view : Viewpoint) (loader : LoaderIndex) (name : Text) (arena : Arena)
    (resolver : ρ) : Outcome ρ TypeIndex :=
  (Resolver.resolve resolver arena view name).andThen fun resolution arena resolver =>
    match resolution with
    | .found id => .ok id arena resolver
    | .missing name => Outcome.ofArena (arena.intern (.placeholder name loader)) resolver

def resolveElement (view : Viewpoint) (loader : LoaderIndex) (element : Element) (arena : Arena)
    (resolver : ρ) : Outcome ρ TypeIndex :=
  match element.kind with
  | .primitive type => .ok (.ofPrimitive type) arena resolver
  | .void => .ok .void arena resolver
  | .reference name => resolveReference view loader name arena resolver

structure Signature where
  descriptor : Descriptor
  accessing : TypeIndex
  parameters : List TypeIndex
  result : TypeIndex
  slots : UInt32

structure PlacedType where
  type : TypeIndex
  isReturn : Bool
  deriving DecidableEq

namespace Signature

/-- What equality compares; the accessing type is no part of it. -/
def key (signature : Signature) : Descriptor × List TypeIndex × TypeIndex :=
  (signature.descriptor, signature.parameters, signature.result)

instance : BEq Signature := ⟨fun a b => a.key = b.key⟩

theorem beq_iff {a b : Signature} : (a == b) = true ↔ a.key = b.key := decide_eq_true_iff

def hashed (signature : Signature) : Text × List TypeIndex × TypeIndex :=
  (signature.descriptor.text, signature.parameters, signature.result)

instance : Hashable Signature :=
  letI : Hashable Char := instHashableChar
  ⟨fun signature => hash signature.hashed⟩

theorem hashed_eq_of_beq {a b : Signature} (h : (a == b) = true) : a.hashed = b.hashed := by
  obtain ⟨hd, hp, hr⟩ : _ ∧ _ ∧ _ := by simpa [key] using beq_iff.mp h
  simp [hashed, hd, hp, hr]

def insertEach (known : Std.HashSet Signature) : List Signature → List Bool
  | [] => []
  | signature :: rest =>
    let (present, known) := known.containsThenInsert signature
    (!present) :: insertEach known rest

def types (signature : Signature) : List TypeIndex := signature.parameters ++ [signature.result]

theorem beq_iff_types {a b : Signature} (h : a.descriptor = b.descriptor) :
    (a == b) = true ↔ a.types = b.types := by
  rw [beq_iff, key, key, types, types, h]
  constructor
  · intro hkey
    simp only [Prod.mk.injEq, true_and] at hkey
    rw [hkey.1, hkey.2]
  · intro htypes
    obtain ⟨hparameters, hresult⟩ := List.append_inj' htypes rfl
    rw [hparameters, List.singleton_inj.mp hresult]

def elements (signature : Signature) : List PlacedType :=
  signature.parameters.map (⟨·, false⟩) ++ [⟨signature.result, true⟩]

def parameter (signature : Signature) (index : Nat) : Except Fault TypeIndex :=
  match signature.parameters[index]? with
  | some id => .ok id
  | none => .error (.missingParameter index)

end Signature

end MethodLinkage
