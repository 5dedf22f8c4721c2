import MethodLinkage.Classes.ClassPath
import MethodLinkage.Signature.Cursor
import MethodLinkage.Signature.DescriptorCursor

/-!
# Commands and answers

What a workspace can be told to do, what it answers, and why it may refuse.
Tables and signatures go by name.
-/

namespace MethodLinkage

inductive TypeForm where
  | primitive (letter : Char)
  | void
  | loadedClass (name : Text) (loader : LoaderIndex)
  | placeholder (name : Text) (loader : LoaderIndex)
  | array (component : TypeIndex)

def TypeForm.type? : TypeForm → Option Ty
  | primitive letter => (Primitive.ofLetter? letter).map .primitive
  | void => some .void
  | loadedClass name loader => some (.loadedClass name loader)
  | placeholder name loader => some (.placeholder name loader)
  | array component => some (.array component)

/-- A descriptor by its text, from the session's pool or read apart from it. -/
structure DescriptorForm where
  text : Text
  isPooled : Bool

structure ViewpointForm where
  accessing : TypeIndex
  table : Option Text

inductive Command where
  | primitive (letter : Char)
  | void
  | intern (form : TypeForm)
  | arrayOver (element : TypeIndex) (dimensions : Nat)
  | describe (id : TypeIndex)
  | descriptor (id : TypeIndex)
  | definingLoader (id : TypeIndex)
  | symbol (text : Text)
  | addLoader (path : ClassPath) (parent : LoaderIndex)
  | insertClass (tag name : Text)
  | writeFile (path : Text) (content : ByteArray)
  | removeFile (path : Text)
  | findClass (loader : LoaderIndex) (name : Text)
  | newTable (table : Text)
  | addReference (table name : Text) (id : TypeIndex)
  | lookUp (table : Option Text) (name : Text)
  | resolve (view : ViewpointForm) (name : Text)
  | build (signature : Text) (view : ViewpointForm) (descriptor : DescriptorForm)
  | summarize (signature : Text)
  | parameterAt (signature : Text) (index : Nat)
  | compare (first second : Text)
  | distinct (signatures : List Text)
  | matchDescriptor (signature : Text) (view : ViewpointForm) (descriptor : DescriptorForm)
      (skipped : Nat)
  | walkSignature (signature : Text) (calls : List SignatureCursor.Call)
  | walkDescriptor (view : ViewpointForm) (descriptor : DescriptorForm)
      (calls : List DescriptorCursor.Call)

structure Description where
  type : Ty
  descriptor : Text
  loader : Option LoaderIndex

structure Summary where
  signature : Signature
  hasPlaceholder : Bool

inductive Answer where
  | done
  | type (id : TypeIndex)
  | typeOrNone (id : Option TypeIndex)
  | loader (loader : LoaderIndex)
  | loaderOrNone (loader : Option LoaderIndex)
  | text (text : Text)
  | flag (value : Bool)
  | flags (values : List Bool)
  | description (description : Description)
  | classInfo (info : FoundClass)
  | resolution (resolution : Resolution)
  | summary (summary : Summary)
  | signatureReplies (replies : List (Except Fault SignatureCursor.Reply))
  | descriptorReplies (replies : List (Except Failure DescriptorCursor.Reply))

inductive Refusal where
  | invalidDescriptor
  | unknownName (name : Text)
  | lookup (error : LookupError)
  | failure (failure : Failure)

def Failure.message : Failure → Option Text
  | error cause => cause.message
  | fault cause => cause.message

def Refusal.message : Refusal → Option Text
  | invalidDescriptor => some "Invalid descriptor".toList
  | unknownName _ => none
  | lookup cause => cause.message
  | failure cause => cause.message

end MethodLinkage
