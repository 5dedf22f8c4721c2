import MethodLinkage.Descriptor.ClassName
import MethodLinkage.Fault

/-!
# The type arena

An arena is the list of the types issued so far; a type's number is its place in
the list. Interning a type that is present gives its number, interning any other
type appends it, so numbers keep their meaning for ever (`types_prefix_intern`)
and two numbers are equal exactly when their types are. Once there are as many
types as numbers, a type that is not present cannot be interned any more; what was
interned before stays.

The descriptor and the defining loader of an array are those of its innermost
element, reached by following components. The walk is bounded by the size of the
arena, which only an array among its own components can exceed.
-/

namespace MethodLinkage

structure Arena where
  types : List Ty
  deriving DecidableEq

/-- The number of a type, or why it has none, and the arena that is left. -/
abbrev Interned := Except Fault TypeIndex × Arena

namespace Arena

/-- The eight primitives and `void`, which every arena holds. -/
def fresh : Arena := ⟨Primitive.all.map .primitive ++ [.void]⟩

def size (arena : Arena) : Nat := arena.types.length

def get? (arena : Arena) (id : TypeIndex) : Option Ty := arena.types[id.toNat]?

def idOf? (arena : Arena) (type : Ty) : Option TypeIndex :=
  (arena.types.idxOf? type).map TypeIndex.mk

def intern (arena : Arena) (type : Ty) : Interned :=
  match arena.idOf? type with
  | some id => (.ok id, arena)
  | none =>
    if arena.size < numberLimit then (.ok ⟨arena.size⟩, ⟨arena.types ++ [type]⟩)
    else (.error .arenaFull, arena)

theorem get?_of_idOf? {arena : Arena} {type : Ty} {id : TypeIndex}
    (h : arena.idOf? type = some id) : arena.get? id = some type := by
  obtain ⟨i, hi, rfl⟩ := Option.map_eq_some_iff.mp h
  obtain ⟨hlt, heq, -⟩ := List.idxOf?_eq_some_iff.mp hi
  simp [get?, hlt, heq]

theorem idOf?_eq_none_iff {arena : Arena} {type : Ty} :
    arena.idOf? type = none ↔ type ∉ arena.types := by
  rw [idOf?, Option.map_eq_none_iff, List.idxOf?_eq_none_iff]

theorem intern_cases (arena : Arena) (type : Ty) :
    (∃ id, arena.get? id = some type ∧ arena.intern type = (.ok id, arena)) ∨
    (type ∉ arena.types ∧ arena.size < numberLimit ∧
      arena.intern type = (.ok ⟨arena.size⟩, ⟨arena.types ++ [type]⟩)) ∨
    (type ∉ arena.types ∧ numberLimit ≤ arena.size ∧
      arena.intern type = (.error .arenaFull, arena)) := by
  unfold intern
  cases hfound : arena.idOf? type with
  | some id => exact .inl ⟨id, get?_of_idOf? hfound, rfl⟩
  | none =>
    have hnew := idOf?_eq_none_iff.mp hfound
    by_cases hroom : arena.size < numberLimit
    · exact .inr (.inl ⟨hnew, hroom, if_pos hroom⟩)
    · exact .inr (.inr ⟨hnew, Nat.le_of_not_lt hroom, if_neg hroom⟩)

theorem get?_intern {arena : Arena} {type : Ty} {id : TypeIndex}
    (h : (arena.intern type).1 = .ok id) : (arena.intern type).2.get? id = some type := by
  rcases arena.intern_cases type with ⟨found, hfound, heq⟩ | ⟨-, -, heq⟩ | ⟨-, -, heq⟩
  · rw [heq] at h ⊢
    cases h
    exact hfound
  · rw [heq] at h ⊢
    cases h
    simp [get?, size]
  · rw [heq] at h
    cases h

theorem types_prefix_intern (arena : Arena) (type : Ty) :
    arena.types <+: (arena.intern type).2.types := by
  rcases arena.intern_cases type with ⟨_, -, heq⟩ | ⟨-, -, heq⟩ | ⟨-, -, heq⟩
  · exact heq ▸ List.prefix_refl _
  · exact heq ▸ List.prefix_append ..
  · exact heq ▸ List.prefix_refl _

end Arena

namespace Interned

def andThen (result : Interned) (next : TypeIndex → Arena → Interned) : Interned :=
  match result with
  | (.error fault, arena) => (.error fault, arena)
  | (.ok id, arena) => next id arena

def arrays (result : Interned) : Nat → Interned
  | 0 => result
  | dimensions + 1 =>
    (result.arrays dimensions).andThen fun id arena => arena.intern (.array id)

theorem arrays_add (result : Interned) (dimensions more : Nat) :
    (result.arrays dimensions).arrays more = result.arrays (dimensions + more) := by
  induction more with
  | zero => rfl
  | succ n ih => rw [arrays, ih, ← Nat.add_assoc, arrays]

end Interned

namespace Arena

/-- The array of the given dimensions; none at all give the element itself. The
element is checked in either case. -/
def arrayOver (arena : Arena) (element : TypeIndex) (dimensions : Nat) : Interned :=
  match arena.get? element with
  | none => (.error (.unissuedType element), arena)
  | some type =>
    if type.isArrayElement then Interned.arrays (.ok element, arena) dimensions
    else (.error .badArrayElement, arena)

def peel (arena : Arena) (bound : Nat) (id : TypeIndex) : Except Fault (Nat × Ty) :=
  match arena.get? id, bound with
  | none, _ => .error (.unissuedType id)
  | some (.array _), 0 => .error .endlessArray
  | some (.array component), bound + 1 =>
    (arena.peel bound component).map fun (dimensions, element) => (dimensions + 1, element)
  | some type, _ => .ok (0, type)

def innermost (arena : Arena) (id : TypeIndex) : Except Fault (Nat × Ty) :=
  arena.peel arena.size id

def elementDescriptor : Ty → Text
  | .primitive type => [type.letter]
  | .void => ['V']
  | .loadedClass name _ | .placeholder name _ => classDescriptor name
  | .array _ => []

def descriptor (arena : Arena) (id : TypeIndex) : Except Fault Text :=
  (arena.innermost id).map fun (dimensions, element) =>
    List.replicate dimensions '[' ++ elementDescriptor element

/-- Arrays of primitives are defined by the bootstrap loader. -/
def elementLoader : Nat → Ty → Option LoaderIndex
  | _, .loadedClass _ loader => some loader
  | _ + 1, .primitive _ => some .bootstrap
  | _, _ => none

def definingLoader (arena : Arena) (id : TypeIndex) : Except Fault (Option LoaderIndex) :=
  (arena.innermost id).map fun (dimensions, element) => elementLoader dimensions element

/-- What names are resolved on behalf of has a defining loader. -/
def accessingLoader (arena : Arena) (accessing : TypeIndex) : Except Fault LoaderIndex :=
  match arena.definingLoader accessing with
  | .error fault => .error fault
  | .ok none => .error (.notALoadedClass accessing)
  | .ok (some loader) => .ok loader

end Arena

end MethodLinkage
