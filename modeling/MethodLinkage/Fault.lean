import MethodLinkage.Arena.Ty

/-!
# Faults

A fault ends one call whose caller broke its contract, or that would need one number
more than there are. The first four cases are references to things that were never
issued; the others have a message.
-/

namespace MethodLinkage

inductive Fault where
  | unissuedType (id : TypeIndex)
  | endlessArray
  | missingParameter (index : Nat)
  | missingLoader (loader : LoaderIndex)
  | notALoadedClass (accessing : TypeIndex)
  | badArrayElement
  | unregisteredParent (parent : LoaderIndex)
  | malformedArrayName (name : Text)
  | signatureExhausted
  | descriptorExhausted
  | noReturnType (descriptor : Text)
  | secondReturnType
  | arenaFull
  | tooManyLoaders
  deriving DecidableEq

def TypeIndex.text (id : TypeIndex) : Text := '#' :: (toString id.toNat).toList

def LoaderIndex.text (loader : LoaderIndex) : Text :=
  "loader#".toList ++ (toString loader.toNat).toList

namespace Fault

def message : Fault → Option Text
  | unissuedType _ | endlessArray | missingParameter _ | missingLoader _ => none
  | notALoadedClass accessing =>
    some ("Accessing type ".toList ++ accessing.text ++ " is not a loaded class".toList)
  | badArrayElement => some "Array elements must be loaded non-void types".toList
  | unregisteredParent parent =>
    some ("Parent loader ".toList ++ parent.text ++ " is not registered".toList)
  | malformedArrayName name => some ("Malformed array class name: ".toList ++ name)
  | signatureExhausted => some "Signature stream is exhausted".toList
  | descriptorExhausted => some "Descriptor stream is exhausted".toList
  | noReturnType descriptor =>
    some ("Descriptor ".toList ++ descriptor ++ " has no return type".toList)
  | secondReturnType => some "A descriptor has exactly one return type".toList
  | arenaFull => some "Type arena is full".toList
  | tooManyLoaders => some "Too many loaders".toList

end Fault

end MethodLinkage
