import MethodLinkage.Descriptor.Primitive

/-!
# Types

A type is told apart from all others by its kind and its parts. Loaded classes
belong to the loader that defines them; a placeholder stands for a class that
its loader has not loaded; an array refers to its component by number.
-/

namespace MethodLinkage

/-- Types and loaders have numbers of 32 bits. -/
def numberLimit : Nat := UInt32.size

structure TypeIndex where
  toNat : Nat
  deriving DecidableEq, Hashable

structure LoaderIndex where
  toNat : Nat
  deriving DecidableEq

namespace LoaderIndex

def bootstrap : LoaderIndex := ⟨0⟩

end LoaderIndex

namespace TypeIndex

def ofPrimitive (type : Primitive) : TypeIndex := ⟨Primitive.all.idxOf type⟩

def void : TypeIndex := ⟨Primitive.all.length⟩

end TypeIndex

inductive Ty where
  | primitive (type : Primitive)
  | void
  | loadedClass (name : Text) (loader : LoaderIndex)
  | placeholder (name : Text) (loader : LoaderIndex)
  | array (component : TypeIndex)
  deriving DecidableEq

namespace Ty

def isLoaded : Ty → Bool
  | placeholder .. => false
  | _ => true

def isPrimitive : Ty → Bool
  | primitive _ => true
  | _ => false

/-- Slots of a value of the type; placeholders count as the references they stand for. -/
def slots : Ty → UInt32
  | primitive type => type.slots
  | void => 0
  | _ => 1

/-- Arrays are built over loaded types that have values. -/
def isArrayElement (type : Ty) : Bool := type.isLoaded && type != void

end Ty

end MethodLinkage
