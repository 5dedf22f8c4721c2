import Mathlib.Logic.Relation
import MethodLinkage.Proofs.ArenaUnfolding

/-!
# What stays as an arena grows

A number that is issued keeps its type. What it stands for is found by following
components, and from a number below which all are issued (`IsGrounded`) the walk
goes through the same types in every larger arena: with the same end, or with none.
Only an array over a number not issued yet can get a meaning later.
-/

namespace MethodLinkage
namespace Arena

variable {arena base larger : Arena} {id component : TypeIndex}
  {type found element : Ty}
  {dimensions : Nat}

def Issues (arena : Arena) (id : TypeIndex) : Prop := ∃ type, arena.get? id = some type

theorem Issues.mono (hgrown : arena.types <+: larger.types) (h : arena.Issues id) :
    larger.Issues id :=
  h.imp fun _ => get?_mono hgrown

theorem issues_iff : arena.Issues id ↔ id.toNat < arena.size :=
  ⟨fun ⟨_, h⟩ => lt_size_of_get? h, fun h => ⟨_, List.getElem?_eq_getElem h⟩⟩

theorem get?_of_issues (hgrown : base.types <+: larger.types) (h : base.Issues id) :
    larger.get? id = base.get? id := by
  obtain ⟨type, hget⟩ := h
  rw [hget, get?_mono hgrown hget]

theorem get?_intern_cases (h : (arena.intern type).2.get? id = some found) :
    arena.get? id = some found ∨
      (found = type ∧ (arena.intern type).1 = .ok id ∧ id.toNat = arena.size) := by
  rcases arena.intern_cases type with ⟨_, -, heq⟩ | ⟨-, -, heq⟩ | ⟨-, -, heq⟩
  · rw [heq] at h
    exact .inl h
  · rw [heq] at h ⊢
    dsimp only [get?] at h ⊢
    rw [List.getElem?_append] at h
    split at h
    · exact .inl h
    · obtain ⟨hlt, rfl⟩ := List.getElem?_eq_some_iff.mp h
      rw [List.length_singleton] at hlt
      have hnew : id.toNat = arena.size := by rw [size]; omega
      exact .inr ⟨List.getElem_singleton _, congrArg (Except.ok ∘ TypeIndex.mk) hnew.symm, hnew⟩
  · rw [heq] at h
    exact .inl h

theorem get?_arrays_succ_cases {result : Interned}
    (h : (result.arrays (dimensions + 1)).2.get? id = some found) :
    (result.arrays dimensions).2.get? id = some found ∨
      ((∃ inner, (result.arrays dimensions).1 = .ok inner ∧ found = .array inner) ∧
        (result.arrays (dimensions + 1)).1 = .ok id ∧
        id.toNat = (result.arrays dimensions).2.size) := by
  rw [Interned.arrays] at h ⊢
  generalize result.arrays dimensions = below at h ⊢
  obtain ⟨_ | inner, larger⟩ := below
  · exact .inl h
  · rcases get?_intern_cases h with hold | ⟨rfl, hid, hlast⟩
    · exact .inl hold
    · exact .inr ⟨⟨inner, rfl, rfl⟩, hid, hlast⟩

/-- The components of all arrays are issued. -/
def IsClosed (arena : Arena) : Prop :=
  ∀ id component, arena.get? id = some (.array component) → arena.Issues component

def IsComponentOf (arena : Arena) (array component : TypeIndex) : Prop :=
  arena.get? array = some (.array component)

/-- All numbers that are met from a number on the way down are issued. -/
def IsGrounded (arena : Arena) (id : TypeIndex) : Prop :=
  ∀ inner, Relation.ReflTransGen arena.IsComponentOf id inner → arena.Issues inner

theorem peel_of_ne_array (bound : Nat) (hget : arena.get? id = some type)
    (hnot : ∀ component, type ≠ .array component) : arena.peel bound id = .ok (0, type) :=
  peel_of_unfolds (.element hget hnot) (Nat.zero_le bound)

theorem peel_zero_of_array (hget : arena.get? id = some (.array component)) :
    arena.peel 0 id = .error .endlessArray := by
  rw [peel.eq_def, hget]

theorem peel_succ_of_array (bound : Nat) (hget : arena.get? id = some (.array component)) :
    arena.peel (bound + 1) id =
      (arena.peel bound component).map fun (dimensions, element) => (dimensions + 1, element) := by
  rw [peel.eq_def, hget]

theorem array_or_ne_array (type : Ty) :
    (∃ component, type = .array component) ∨ ∀ component, type ≠ .array component := by
  cases type with
  | array component => exact .inl ⟨component, rfl⟩
  | primitive | void | loadedClass | placeholder => exact .inr nofun

theorem IsClosed.isGrounded (hclosed : arena.IsClosed) (h : arena.Issues id) :
    arena.IsGrounded id := by
  intro inner hdown
  cases hdown.cases_tail with
  | inl heq => exact heq ▸ h
  | inr hlast =>
    obtain ⟨array, -, hcomponent⟩ := hlast
    exact hclosed array inner hcomponent

namespace IsGrounded

theorem issues (h : arena.IsGrounded id) : arena.Issues id := h id .refl

theorem below (h : arena.IsGrounded id) (hget : arena.get? id = some (.array component)) :
    arena.IsGrounded component :=
  fun inner hdown => h inner (.head hget hdown)

theorem peel_grown (hgrown : base.types <+: larger.types) (bound : Nat) (h : base.IsGrounded id) :
    larger.peel bound id = base.peel bound id := by
  induction bound generalizing id with
  | zero =>
    obtain ⟨type, hget⟩ := h.issues
    have hlarger := get?_mono hgrown hget
    rcases array_or_ne_array type with ⟨component, rfl⟩ | hnot
    · rw [peel_zero_of_array hget, peel_zero_of_array hlarger]
    · rw [peel_of_ne_array 0 hget hnot, peel_of_ne_array 0 hlarger hnot]
  | succ bound ih =>
    obtain ⟨type, hget⟩ := h.issues
    have hlarger := get?_mono hgrown hget
    rcases array_or_ne_array type with ⟨component, rfl⟩ | hnot
    · rw [peel_succ_of_array bound hget, peel_succ_of_array bound hlarger, ih (h.below hget)]
    · rw [peel_of_ne_array _ hget hnot, peel_of_ne_array _ hlarger hnot]

/-- A walk that stays among issued numbers fails only for going on too long. -/
theorem eq_endlessArray_of_peel {bound : Nat} {fault : Fault} (h : arena.IsGrounded id)
    (hpeel : arena.peel bound id = .error fault) : fault = .endlessArray := by
  induction bound generalizing id with
  | zero =>
    obtain ⟨type, hget⟩ := h.issues
    rcases array_or_ne_array type with ⟨component, rfl⟩ | hnot
    · rw [peel_zero_of_array hget] at hpeel
      exact (Except.error.inj hpeel).symm
    · rw [peel_of_ne_array 0 hget hnot] at hpeel
      cases hpeel
  | succ bound ih =>
    obtain ⟨type, hget⟩ := h.issues
    rcases array_or_ne_array type with ⟨component, rfl⟩ | hnot
    · rw [peel_succ_of_array bound hget] at hpeel
      cases hbelow : arena.peel bound component with
      | ok below =>
        rw [hbelow] at hpeel
        cases hpeel
      | error cause =>
        rw [hbelow] at hpeel
        cases hpeel
        exact ih (h.below hget) hbelow
    · rw [peel_of_ne_array _ hget hnot] at hpeel
      cases hpeel

theorem innermost_grown (hgrown : base.types <+: larger.types) (h : base.IsGrounded id) :
    larger.innermost id = base.innermost id := by
  cases hinner : base.innermost id with
  | ok inner =>
    exact innermost_eq_ok_iff.mpr ((innermost_eq_ok_iff.mp hinner).mono hgrown)
  | error fault =>
    rw [h.eq_endlessArray_of_peel hinner]
    cases hlarger : larger.innermost id with
    | error cause =>
      rw [innermost, h.peel_grown hgrown larger.size] at hlarger
      rw [h.eq_endlessArray_of_peel hlarger]
    | ok inner =>
      -- what a longer walk reaches in the base, the shorter one reaches as well
      rw [innermost, h.peel_grown hgrown larger.size] at hlarger
      rw [innermost_eq_ok_iff.mpr (unfolds_of_peel hlarger)] at hinner
      cases hinner

theorem descriptor_grown (hgrown : base.types <+: larger.types) (h : base.IsGrounded id) :
    larger.descriptor id = base.descriptor id := by
  rw [descriptor, descriptor, h.innermost_grown hgrown]

theorem definingLoader_grown (hgrown : base.types <+: larger.types) (h : base.IsGrounded id) :
    larger.definingLoader id = base.definingLoader id := by
  rw [definingLoader, definingLoader, h.innermost_grown hgrown]

end IsGrounded

namespace IsClosed

theorem innermost_grown (hclosed : base.IsClosed) (hgrown : base.types <+: larger.types)
    (h : base.Issues id) : larger.innermost id = base.innermost id :=
  (hclosed.isGrounded h).innermost_grown hgrown

theorem accessingLoader_grown (hclosed : base.IsClosed) (hgrown : base.types <+: larger.types)
    (h : base.Issues id) : larger.accessingLoader id = base.accessingLoader id := by
  rw [accessingLoader, accessingLoader, (hclosed.isGrounded h).definingLoader_grown hgrown]

theorem unfolds_of_grown (hclosed : base.IsClosed) (hgrown : base.types <+: larger.types)
    (h : base.Issues id) (hunfolds : larger.Unfolds id dimensions element) :
    base.Unfolds id dimensions element := by
  rw [← innermost_eq_ok_iff] at hunfolds ⊢
  rwa [← innermost_grown hclosed hgrown h]

end IsClosed

end Arena
end MethodLinkage
