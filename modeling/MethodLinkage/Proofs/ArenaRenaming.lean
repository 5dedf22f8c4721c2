import Mathlib.Data.Finset.Card
import Mathlib.Data.Set.Function
import MethodLinkage.Proofs.ArenaGrowth

/-!
# Arenas that differ in their numbers

Two arenas that grew from one base may hold the same types under different numbers.
A number that the base has issued stands for itself, and any other for the number that
unfolds to the same dimensions and the same element. Where each arena has all that the
other unfolds, this is a bijection that keeps types, descriptors and defining loaders.

An array whose component is issued only later would get a meaning with the first type
that comes after it. So the base has to have issued the components of its arrays.
-/

namespace MethodLinkage

def Ty.rename (rename : TypeIndex → TypeIndex) : Ty → Ty
  | .array component => .array (rename component)
  | type => type

@[simp]
theorem Ty.isLoaded_rename (rename : TypeIndex → TypeIndex) (type : Ty) :
    (type.rename rename).isLoaded = type.isLoaded := by
  cases type <;> rfl

@[simp]
theorem Ty.slots_rename (rename : TypeIndex → TypeIndex) (type : Ty) :
    (type.rename rename).slots = type.slots := by
  cases type <;> rfl

theorem Ty.rename_of_ne_array {rename : TypeIndex → TypeIndex} {type : Ty}
    (h : ∀ component, type ≠ .array component) : type.rename rename = type := by
  cases type with
  | array component => exact absurd rfl (h component)
  | primitive | void | loadedClass | placeholder => rfl

namespace Arena

variable {base first second : Arena} {id other : TypeIndex} {element : Ty} {dimensions : Nat}

/-- Numbers of two arenas that stand for the same: the same number of the base, or numbers that
unfold alike. -/
def Matches (base first second : Arena) (id other : TypeIndex) : Prop :=
  (base.Issues id ∧ other = id) ∨
    ∃ dimensions element,
      first.Unfolds id dimensions element ∧ second.Unfolds other dimensions element

theorem Matches.symm (h : Matches base first second id other) :
    Matches base second first other id := by
  rcases h with ⟨hid, rfl⟩ | ⟨dimensions, element, hfirst, hsecond⟩
  · exact .inl ⟨hid, rfl⟩
  · exact .inr ⟨dimensions, element, hsecond, hfirst⟩

/-- Arenas that grew from one closed base and have a match for each number of the other. -/
structure Alike (base first second : Arena) : Prop where
  closed : base.IsClosed
  first_valid : first.Valid
  second_valid : second.Valid
  first_grown : base.types <+: first.types
  second_grown : base.types <+: second.types
  matched : ∀ id, first.Issues id → ∃ other, Matches base first second id other
  covered : ∀ other, second.Issues other → ∃ id, Matches base second first other id

namespace Alike

theorem symm (h : Alike base first second) : Alike base second first :=
  ⟨h.closed, h.second_valid, h.first_valid, h.second_grown, h.first_grown, h.covered, h.matched⟩

theorem eq_of_unfolds (h : Alike base first second) (hid : base.Issues id)
    (hfirst : first.Unfolds id dimensions element)
    (hsecond : second.Unfolds other dimensions element) : other = id := by
  have hbase := h.closed.unfolds_of_grown h.first_grown hid hfirst
  exact hsecond.injective h.second_valid (hbase.mono h.second_grown)

theorem unique {another : TypeIndex} (h : Alike base first second)
    (hother : Matches base first second id other)
    (hanother : Matches base first second id another) : other = another := by
  rcases hother with ⟨hid, rfl⟩ | ⟨dimensions, element, hfirst, hsecond⟩
  · rcases hanother with ⟨-, rfl⟩ | ⟨dimensions, element, hfirst, hsecond⟩
    · rfl
    · exact (h.eq_of_unfolds hid hfirst hsecond).symm
  · rcases hanother with ⟨hid, rfl⟩ | ⟨dimensions', element', hfirst', hsecond'⟩
    · exact h.eq_of_unfolds hid hfirst hsecond
    · obtain ⟨rfl, rfl⟩ := hfirst.unique hfirst'
      exact hsecond.injective h.second_valid hsecond'

theorem issues_of_matches (h : Alike base first second)
    (hmatches : Matches base first second id other) : second.Issues other := by
  rcases hmatches with ⟨hid, rfl⟩ | ⟨_, _, -, hsecond⟩
  · exact hid.mono h.second_grown
  · exact hsecond.exists_get?

end Alike

/-- A bijection of the numbers of two arenas that fixes those of a base and keeps what the numbers
stand for. -/
structure IsRenaming (base first second : Arena) (rename : TypeIndex → TypeIndex) : Prop where
  bijective : Set.BijOn rename {id | first.Issues id} {id | second.Issues id}
  fixes : ∀ id, base.Issues id → rename id = id
  get? : ∀ id, first.Issues id → second.get? (rename id) = (first.get? id).map (Ty.rename rename)
  descriptor : ∀ id, first.Issues id → second.descriptor (rename id) = first.descriptor id
  definingLoader : ∀ id, first.Issues id →
    second.definingLoader (rename id) = first.definingLoader id
  isLoaded : ∀ id, first.Issues id →
    (second.get? (rename id)).map Ty.isLoaded = (first.get? id).map Ty.isLoaded

namespace Alike

variable {rename : TypeIndex → TypeIndex}

theorem get?_of_matches (h : Alike base first second)
    (hrename : ∀ id, first.Issues id → Matches base first second id (rename id))
    (hid : first.Issues id) :
    second.get? (rename id) = (first.get? id).map (Ty.rename rename) := by
  rcases hrename id hid with ⟨hbase, hsame⟩ | ⟨dimensions, element, hfirst, hsecond⟩
  · rw [hsame, get?_of_issues h.first_grown hbase, get?_of_issues h.second_grown hbase]
    obtain ⟨type, hget⟩ := hbase
    rw [hget, Option.map_some]
    cases type with
    | array component =>
      have hcomponent := h.closed id component hget
      have hkept := h.unique (hrename component (hcomponent.mono h.first_grown))
        (.inl ⟨hcomponent, rfl⟩)
      rw [Ty.rename, hkept]
    | primitive | void | loadedClass | placeholder => rfl
  · cases hfirst with
    | element hget hnot =>
      cases hsecond with
      | element hget' _ => rw [hget, hget', Option.map_some, Ty.rename_of_ne_array hnot]
    | array hget hcomponent =>
      cases hsecond with
      | array hget' hcomponent' =>
        have hkept := h.unique (hrename _ hcomponent.exists_get?)
          (.inr ⟨_, _, hcomponent, hcomponent'⟩)
        rw [hget, hget', Option.map_some, Ty.rename, hkept]

theorem innermost_of_matches (h : Alike base first second)
    (hmatches : Matches base first second id other) :
    second.innermost other = first.innermost id := by
  rcases hmatches with ⟨hid, rfl⟩ | ⟨dimensions, element, hfirst, hsecond⟩
  · rw [h.closed.innermost_grown h.first_grown hid, h.closed.innermost_grown h.second_grown hid]
  · rw [innermost_eq_ok_iff.mpr hfirst, innermost_eq_ok_iff.mpr hsecond]

theorem exists_isRenaming (h : Alike base first second) :
    ∃ rename, IsRenaming base first second rename := by
  have hmatched : ∀ id, ∃ other, first.Issues id → Matches base first second id other := by
    intro id
    by_cases hid : first.Issues id
    · obtain ⟨other, hother⟩ := h.matched id hid
      exact ⟨other, fun _ => hother⟩
    · exact ⟨id, fun hissued => absurd hissued hid⟩
  choose rename hrename using hmatched
  refine ⟨rename, ⟨?_, ?_, ?_⟩, ?_, ?_, ?_, ?_, ?_⟩
  · intro id hid
    exact h.issues_of_matches (hrename id hid)
  · intro id hid other hother heq
    have hback := (hrename other hother).symm
    rw [← heq] at hback
    exact h.symm.unique (hrename id hid).symm hback
  · intro other hother
    obtain ⟨id, hback⟩ := h.covered other hother
    have hid := h.symm.issues_of_matches hback
    exact ⟨id, hid, h.unique (hrename id hid) hback.symm⟩
  · intro id hid
    exact h.unique (hrename id (hid.mono h.first_grown)) (.inl ⟨hid, rfl⟩)
  · intro id hid
    exact h.get?_of_matches hrename hid
  · intro id hid
    rw [Arena.descriptor, Arena.descriptor, h.innermost_of_matches (hrename id hid)]
  · intro id hid
    rw [Arena.definingLoader, Arena.definingLoader, h.innermost_of_matches (hrename id hid)]
  · intro id hid
    rw [h.get?_of_matches hrename hid, Option.map_map]
    congr 1
    funext type
    simp

end Alike

namespace IsRenaming

variable {rename : TypeIndex → TypeIndex}

theorem toNat_injective : Function.Injective TypeIndex.toNat := by
  rintro ⟨place⟩ ⟨other⟩ rfl
  rfl

theorem size_eq (h : IsRenaming base first second rename) : second.size = first.size := by
  have hcard : (Finset.range first.size).card = (Finset.range second.size).card := by
    apply Finset.card_bij fun place _ => (rename ⟨place⟩).toNat
    · intro place hplace
      have hid : first.Issues ⟨place⟩ := issues_iff.mpr (Finset.mem_range.mp hplace)
      exact Finset.mem_range.mpr (issues_iff.mp (h.bijective.mapsTo hid))
    · intro place hplace other hother heq
      have hid : first.Issues ⟨place⟩ := issues_iff.mpr (Finset.mem_range.mp hplace)
      have hid' : first.Issues ⟨other⟩ := issues_iff.mpr (Finset.mem_range.mp hother)
      exact congrArg TypeIndex.toNat (h.bijective.injOn hid hid' (toNat_injective heq))
    · intro other hother
      have hid : second.Issues ⟨other⟩ := issues_iff.mpr (Finset.mem_range.mp hother)
      obtain ⟨id, hissued, heq⟩ := h.bijective.surjOn hid
      exact ⟨id.toNat, Finset.mem_range.mpr (issues_iff.mp hissued), congrArg TypeIndex.toNat heq⟩
  simpa using hcard.symm

theorem unfolds (h : IsRenaming base first second rename)
    (hunfolds : first.Unfolds id dimensions element) :
    second.Unfolds (rename id) dimensions element := by
  induction hunfolds with
  | element hget hnot =>
    refine .element ?_ hnot
    rw [h.get? _ ⟨_, hget⟩, hget, Option.map_some, Ty.rename_of_ne_array hnot]
  | array hget _ ih =>
    refine .array ?_ ih
    rw [h.get? _ ⟨_, hget⟩, hget]
    rfl

end IsRenaming
end Arena
end MethodLinkage
