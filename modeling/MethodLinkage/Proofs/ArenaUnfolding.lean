import Mathlib.Data.List.Nodup
import MethodLinkage.Arena

/-!
# What a type number stands for

A number unfolds to the dimensions and the innermost element reached by following
components. What a number unfolds to is unique and never changes as the arena
grows; where no type is issued twice, it also tells the number. The bound with
which an arena follows components is never met by a number that unfolds, since
the numbers on the way are distinct.
-/

namespace MethodLinkage
namespace Arena

variable {arena larger : Arena} {id other component : TypeIndex} {type element : Ty}

/-- Every arena starts with the primitives and `void`, and no type is issued twice. -/
structure Valid (arena : Arena) : Prop where
  starts : fresh.types <+: arena.types
  nodup : arena.types.Nodup

inductive Unfolds (arena : Arena) : TypeIndex → Nat → Ty → Prop where
  | element {id : TypeIndex} {type : Ty} : arena.get? id = some type →
      (∀ component, type ≠ .array component) → Unfolds arena id 0 type
  | array {id component : TypeIndex} {dimensions : Nat} {element : Ty} :
      arena.get? id = some (.array component) → Unfolds arena component dimensions element →
      Unfolds arena id (dimensions + 1) element

theorem get?_mono (hgrown : arena.types <+: larger.types) (h : arena.get? id = some type) :
    larger.get? id = some type := by
  obtain ⟨hlt, heq⟩ := List.getElem?_eq_some_iff.mp h
  have hsame := hgrown.getElem hlt
  exact List.getElem?_eq_some_iff.mpr
    ⟨Nat.lt_of_lt_of_le hlt hgrown.length_le, by rw [← hsame, heq]⟩

theorem lt_size_of_get? (h : arena.get? id = some type) : id.toNat < arena.size :=
  (List.getElem?_eq_some_iff.mp h).1

theorem Valid.eq_of_get? (hvalid : arena.Valid) (hid : arena.get? id = some type)
    (hother : arena.get? other = some type) : id = other := by
  have h : arena.types[id.toNat]? = arena.types[other.toNat]? := hid.trans hother.symm
  have hnat : id.toNat = other.toNat :=
    (List.getElem?_inj (lt_size_of_get? hid) hvalid.nodup).mp h
  cases id
  cases other
  exact congrArg TypeIndex.mk hnat

theorem mem_types_of_get? (h : arena.get? id = some type) : type ∈ arena.types :=
  List.mem_of_getElem? h

theorem intern_of_get? (hvalid : arena.Valid) (h : arena.get? id = some type) :
    arena.intern type = (.ok id, arena) := by
  rcases arena.intern_cases type with ⟨found, hfound, heq⟩ | ⟨hnew, -⟩ | ⟨hnew, -⟩
  · rw [heq, hvalid.eq_of_get? hfound h]
  · exact absurd (mem_types_of_get? h) hnew
  · exact absurd (mem_types_of_get? h) hnew

theorem valid_fresh : fresh.Valid := ⟨List.prefix_refl _, by decide⟩

theorem Valid.intern (hvalid : arena.Valid) (type : Ty) : (arena.intern type).2.Valid := by
  refine ⟨hvalid.starts.trans (types_prefix_intern arena type), ?_⟩
  rcases arena.intern_cases type with ⟨_, -, heq⟩ | ⟨hnew, -, heq⟩ | ⟨-, -, heq⟩
  · exact heq ▸ hvalid.nodup
  · rw [heq]
    exact List.nodup_append.mpr ⟨hvalid.nodup, List.nodup_singleton _, fun a ha b hb hab =>
      hnew (List.mem_singleton.mp hb ▸ hab ▸ ha)⟩
  · exact heq ▸ hvalid.nodup

theorem Valid.get?_ofPrimitive (hvalid : arena.Valid) (type : Primitive) :
    arena.get? (.ofPrimitive type) = some (.primitive type) :=
  get?_mono hvalid.starts (by cases type <;> rfl)

theorem Valid.get?_void (hvalid : arena.Valid) : arena.get? .void = some .void :=
  get?_mono hvalid.starts rfl

theorem Valid.unfolds_ofPrimitive (hvalid : arena.Valid) (type : Primitive) :
    arena.Unfolds (.ofPrimitive type) 0 (.primitive type) :=
  .element (hvalid.get?_ofPrimitive type) nofun

theorem Valid.unfolds_void (hvalid : arena.Valid) : arena.Unfolds .void 0 .void :=
  .element hvalid.get?_void nofun

theorem Unfolds.unique {dimensions dimensions' : Nat} {element element' : Ty}
    (h : arena.Unfolds id dimensions element) (h' : arena.Unfolds id dimensions' element') :
    dimensions = dimensions' ∧ element = element' := by
  induction h generalizing dimensions' with
  | element hget hnot =>
    cases h' with
    | element hget' _ => exact ⟨rfl, Option.some.inj (hget.symm.trans hget')⟩
    | array hget' _ => exact absurd (Option.some.inj (hget.symm.trans hget')) (hnot _)
  | array hget _ ih =>
    cases h' with
    | element hget' hnot' => exact absurd (Option.some.inj (hget'.symm.trans hget)) (hnot' _)
    | array hget' hcomponent' =>
      obtain rfl := Ty.array.inj (Option.some.inj (hget.symm.trans hget'))
      obtain ⟨rfl, rfl⟩ := ih hcomponent'
      exact ⟨rfl, rfl⟩

theorem Unfolds.mono {dimensions : Nat} (hgrown : arena.types <+: larger.types)
    (h : arena.Unfolds id dimensions element) : larger.Unfolds id dimensions element := by
  induction h with
  | element hget hnot => exact .element (get?_mono hgrown hget) hnot
  | array hget _ ih => exact .array (get?_mono hgrown hget) ih

theorem Unfolds.injective {dimensions : Nat} (hvalid : arena.Valid)
    (h : arena.Unfolds id dimensions element) (h' : arena.Unfolds other dimensions element) :
    id = other := by
  induction h generalizing other with
  | element hget _ =>
    cases h' with
    | element hget' _ => exact hvalid.eq_of_get? hget hget'
  | array hget _ ih =>
    cases h' with
    | array hget' hcomponent' =>
      obtain rfl := ih hcomponent'
      exact hvalid.eq_of_get? hget hget'

theorem Unfolds.exists_get? {dimensions : Nat} (h : arena.Unfolds id dimensions element) :
    ∃ type, arena.get? id = some type := by
  cases h with
  | element hget _ => exact ⟨_, hget⟩
  | array hget _ => exact ⟨_, hget⟩

theorem Unfolds.exists_bare {dimensions : Nat} (h : arena.Unfolds id dimensions element) :
    ∃ bare, arena.Unfolds bare 0 element := by
  induction h with
  | @element id type hget hnot => exact ⟨id, .element hget hnot⟩
  | array _ _ ih => exact ih

theorem Unfolds.ne_array {dimensions : Nat} (h : arena.Unfolds id dimensions element) :
    ∀ component, element ≠ .array component := by
  induction h with
  | element _ hnot => exact hnot
  | array _ _ ih => exact ih

/-- The numbers met on the way down are distinct, because each has its own dimensions. -/
theorem Unfolds.exists_visited {dimensions : Nat} (h : arena.Unfolds id dimensions element) :
    ∃ visited : List Nat, visited.Nodup ∧ visited.length = dimensions + 1 ∧
      ∀ place ∈ visited, place < arena.size ∧
        ∃ depth ≤ dimensions, arena.Unfolds ⟨place⟩ depth element := by
  induction h with
  | @element id type hget hnot =>
    refine ⟨[id.toNat], List.nodup_singleton _, rfl, fun place hplace => ?_⟩
    obtain rfl := List.mem_singleton.mp hplace
    exact ⟨lt_size_of_get? hget, 0, Nat.le_refl _, .element hget hnot⟩
  | @array id component dimensions element hget hcomponent ih =>
    obtain ⟨visited, hnodup, hlength, hvisited⟩ := ih
    have hhere : arena.Unfolds id (dimensions + 1) element := .array hget hcomponent
    refine ⟨id.toNat :: visited, List.nodup_cons.mpr ⟨fun hmem => ?_, hnodup⟩,
      by rw [List.length_cons, hlength], fun place hplace => ?_⟩
    -- met again below, it would have fewer dimensions than itself
    · obtain ⟨-, depth, hdepth, hagain⟩ := hvisited _ hmem
      have := (hhere.unique hagain).1
      omega
    · rcases List.mem_cons.mp hplace with rfl | hplace
      · exact ⟨lt_size_of_get? hget, dimensions + 1, Nat.le_refl _, hhere⟩
      · obtain ⟨hlt, depth, hdepth, hunfolds⟩ := hvisited place hplace
        exact ⟨hlt, depth, by omega, hunfolds⟩

theorem Unfolds.lt_size {dimensions : Nat} (h : arena.Unfolds id dimensions element) :
    dimensions < arena.size := by
  obtain ⟨visited, hnodup, hlength, hvisited⟩ := h.exists_visited
  have hsub : visited ⊆ List.range arena.size := fun place hplace =>
    List.mem_range.mpr (hvisited place hplace).1
  have hle := hnodup.length_le_of_subset hsub
  rw [hlength, List.length_range] at hle
  omega

theorem peel_of_unfolds {dimensions bound : Nat} (h : arena.Unfolds id dimensions element)
    (hbound : dimensions ≤ bound) : arena.peel bound id = .ok (dimensions, element) := by
  induction h generalizing bound with
  | element hget hnot =>
    unfold peel
    rw [hget]
    split
    · next heq => cases heq
    · next heq => exact absurd (Option.some.inj heq) (hnot _)
    · next heq => exact absurd (Option.some.inj heq) (hnot _)
    · next heq _ _ => rw [Option.some.inj heq]
  | array hget _ ih =>
    obtain ⟨bound, rfl⟩ : ∃ n, bound = n + 1 := ⟨bound - 1, by omega⟩
    simp [peel, hget, ih (show _ ≤ bound by omega), Except.map]

theorem unfolds_of_peel {bound dimensions : Nat}
    (h : arena.peel bound id = .ok (dimensions, element)) :
    arena.Unfolds id dimensions element := by
  fun_induction arena.peel bound id generalizing dimensions with
  | case1 => cases h
  | case2 => cases h
  | case3 id component bound hget ih =>
    cases hpeel : arena.peel bound component with
    | error fault => simp [hpeel, Except.map] at h
    | ok below =>
      simp only [hpeel, Except.map, Except.ok.injEq, Prod.mk.injEq] at h
      obtain ⟨rfl, rfl⟩ := h
      exact .array hget (ih hpeel)
  | case4 bound id type hget hzero hsucc =>
    cases h
    refine .element hget fun component hcomponent => ?_
    cases bound with
    | zero => exact hzero component rfl hcomponent
    | succ bound => exact hsucc component bound rfl hcomponent

theorem innermost_eq_ok_iff {dimensions : Nat} :
    arena.innermost id = .ok (dimensions, element) ↔ arena.Unfolds id dimensions element :=
  ⟨unfolds_of_peel, fun h => peel_of_unfolds h (Nat.le_of_lt h.lt_size)⟩

theorem descriptor_of_unfolds {dimensions : Nat} (h : arena.Unfolds id dimensions element) :
    arena.descriptor id = .ok (List.replicate dimensions '[' ++ elementDescriptor element) := by
  rw [descriptor, innermost_eq_ok_iff.mpr h]
  rfl

theorem exists_unfolds_of_descriptor {text : Text} (h : arena.descriptor id = .ok text) :
    ∃ dimensions element, arena.Unfolds id dimensions element ∧
      text = List.replicate dimensions '[' ++ elementDescriptor element := by
  cases hinner : arena.innermost id with
  | error fault => simp [descriptor, hinner, Except.map] at h
  | ok inner =>
    obtain ⟨dimensions, element⟩ := inner
    have hunfolds := innermost_eq_ok_iff.mp hinner
    rw [descriptor_of_unfolds hunfolds] at h
    exact ⟨dimensions, element, hunfolds, (Except.ok.inj h).symm⟩

theorem descriptor_mono {text : Text} (hgrown : arena.types <+: larger.types)
    (h : arena.descriptor id = .ok text) : larger.descriptor id = .ok text := by
  obtain ⟨dimensions, element, hunfolds, rfl⟩ := exists_unfolds_of_descriptor h
  exact descriptor_of_unfolds (hunfolds.mono hgrown)

theorem definingLoader_of_unfolds {dimensions : Nat} (h : arena.Unfolds id dimensions element) :
    arena.definingLoader id = .ok (elementLoader dimensions element) := by
  rw [definingLoader, innermost_eq_ok_iff.mpr h]
  rfl

theorem arrayOver_of_element (hget : arena.get? component = some type)
    (helement : type.isArrayElement = true) (dimensions : Nat) :
    arena.arrayOver component dimensions = Interned.arrays (.ok component, arena) dimensions := by
  rw [arrayOver, hget]
  exact if_pos helement

/-- There are numbers for so many types more. -/
def HasRoom (arena : Arena) (count : Nat) : Prop := arena.size + count ≤ numberLimit

theorem HasRoom.mono {count fewer : Nat} (h : arena.HasRoom count) (hle : fewer ≤ count) :
    arena.HasRoom fewer :=
  Nat.le_trans (Nat.add_le_add_left hle arena.size) h

theorem HasRoom.of_size_le {before count : Nat} (h : arena.HasRoom (before + count))
    (hsize : larger.size ≤ arena.size + before) : larger.HasRoom count := by
  rw [HasRoom] at h ⊢
  omega

/-- Interning up to so many types has ended for want of numbers, in a full arena. -/
structure RunsOut {ε α : Type} (arena : Arena) (count : Nat) (full : ε)
    (result : Except ε α × Arena) : Prop where
  answer : result.1 = .error full
  isFull : numberLimit ≤ result.2.size
  noRoom : ¬ arena.HasRoom count

theorem RunsOut.mono {ε α : Type} {count more : Nat} {full : ε} {result : Except ε α × Arena}
    (h : arena.RunsOut count full result) (hle : count ≤ more) : arena.RunsOut more full result :=
  ⟨h.answer, h.isFull, fun hroom => h.noRoom (hroom.mono hle)⟩

theorem RunsOut.of_larger {ε α : Type} {before count : Nat} {full : ε}
    {result : Except ε α × Arena} (h : larger.RunsOut count full result)
    (hsize : larger.size ≤ arena.size + before) : arena.RunsOut (before + count) full result :=
  ⟨h.answer, h.isFull, fun hroom => h.noRoom (hroom.of_size_le hsize)⟩

theorem RunsOut.of_failure {ε α β : Type} {count : Nat} {full failure : ε}
    (h : arena.RunsOut count full ((.error failure, larger) : Except ε α × Arena)) :
    arena.RunsOut count full ((.error failure, larger) : Except ε β × Arena) :=
  ⟨congrArg Except.error (Except.error.inj h.answer), h.isFull, h.noRoom⟩

theorem size_intern_le (arena : Arena) (type : Ty) :
    (arena.intern type).2.size ≤ arena.size + 1 := by
  rcases arena.intern_cases type with ⟨_, -, heq⟩ | ⟨-, -, heq⟩ | ⟨-, -, heq⟩
  · rw [heq]
    exact Nat.le_succ _
  · rw [heq]
    exact Nat.le_of_eq List.length_append
  · rw [heq]
    exact Nat.le_succ _

end Arena

namespace Interned

variable {arena : Arena} {id component : TypeIndex} {element : Ty} {result : Interned}
  {dimensions count : Nat}

theorem andThen_of_ok {next : TypeIndex → Arena → Interned} (h : result.1 = .ok id) :
    result.andThen next = next id result.2 := by
  obtain ⟨_, arena⟩ := result
  cases h
  rfl

theorem andThen_of_error {next : TypeIndex → Arena → Interned} {fault : Fault}
    (h : result.1 = .error fault) : result.andThen next = result := by
  obtain ⟨_, arena⟩ := result
  cases h
  rfl

theorem arrays_succ_of_ok (h : (result.arrays dimensions).1 = .ok id) :
    result.arrays (dimensions + 1) = (result.arrays dimensions).2.intern (.array id) :=
  andThen_of_ok h

theorem arrays_succ_of_error {fault : Fault} (h : (result.arrays dimensions).1 = .error fault) :
    result.arrays (dimensions + 1) = result.arrays dimensions :=
  andThen_of_error h

theorem arrays_of_error {fault : Fault} (h : result.1 = .error fault) (dimensions : Nat) :
    result.arrays dimensions = result := by
  induction dimensions with
  | zero => rfl
  | succ n ih => rw [arrays_succ_of_error (ih.symm ▸ h), ih]

theorem types_prefix_arrays_succ (result : Interned) (dimensions : Nat) :
    (result.arrays dimensions).2.types <+: (result.arrays (dimensions + 1)).2.types := by
  cases h : (result.arrays dimensions).1 with
  | error fault => exact arrays_succ_of_error h ▸ List.prefix_refl _
  | ok id => exact arrays_succ_of_ok h ▸ Arena.types_prefix_intern ..

theorem arrays_keep {holds : Arena → Prop}
    (hintern : ∀ arena component, holds arena → holds (arena.intern (.array component)).2)
    (hstart : holds result.2) (dimensions : Nat) : holds (result.arrays dimensions).2 := by
  induction dimensions with
  | zero => exact hstart
  | succ n ih =>
    cases h : (result.arrays n).1 with
    | error fault => rwa [arrays_succ_of_error h]
    | ok id =>
      rw [arrays_succ_of_ok h]
      exact hintern _ id ih

theorem types_prefix_arrays (result : Interned) (dimensions : Nat) :
    result.2.types <+: (result.arrays dimensions).2.types := by
  induction dimensions with
  | zero => exact List.prefix_refl _
  | succ n ih => exact ih.trans (types_prefix_arrays_succ ..)

theorem valid_arrays (hvalid : result.2.Valid) (dimensions : Nat) :
    (result.arrays dimensions).2.Valid :=
  arrays_keep (fun _ _ hbelow => hbelow.intern _) hvalid dimensions

theorem exists_of_arrays_succ (h : (result.arrays (dimensions + 1)).1 = .ok id) :
    ∃ component, (result.arrays dimensions).1 = .ok component ∧
      result.arrays (dimensions + 1) =
        (result.arrays dimensions).2.intern (.array component) := by
  cases hbelow : (result.arrays dimensions).1 with
  | error fault =>
    rw [arrays_succ_of_error hbelow, hbelow] at h
    cases h
  | ok component => exact ⟨component, rfl, arrays_succ_of_ok hbelow⟩

theorem exists_of_arrays (h : (result.arrays dimensions).1 = .ok id) :
    ∃ component, result.1 = .ok component := by
  induction dimensions generalizing id with
  | zero => exact ⟨id, h⟩
  | succ n ih =>
    obtain ⟨component, hcomponent, -⟩ := exists_of_arrays_succ h
    exact ih hcomponent

theorem unfolds_arrays {depth : Nat} (hcomponent : result.1 = .ok component)
    (h : result.2.Unfolds component depth element) (hid : (result.arrays dimensions).1 = .ok id) :
    (result.arrays dimensions).2.Unfolds id (dimensions + depth) element := by
  induction dimensions generalizing id with
  | zero =>
    cases hcomponent.symm.trans hid
    rwa [Nat.zero_add]
  | succ n ih =>
    obtain ⟨below, hbelow, heq⟩ := exists_of_arrays_succ hid
    rw [heq] at hid ⊢
    rw [Nat.succ_add]
    exact .array (Arena.get?_intern hid) ((ih hbelow).mono (Arena.types_prefix_intern ..))

theorem arrays_of_unfolds {depth : Nat} (hvalid : arena.Valid)
    (h : arena.Unfolds id depth element) {bare : TypeIndex} (hbare : arena.Unfolds bare 0 element) :
    Interned.arrays (.ok bare, arena) depth = (.ok id, arena) := by
  induction h with
  | element hget hnot => rw [(Arena.Unfolds.element hget hnot).injective hvalid hbare, arrays]
  | array hget _ ih =>
    rw [arrays, ih hbare]
    exact Arena.intern_of_get? hvalid hget

theorem size_arrays_le (result : Interned) (dimensions : Nat) :
    (result.arrays dimensions).2.size ≤ result.2.size + dimensions := by
  induction dimensions with
  | zero => exact Nat.le_refl _
  | succ n ih =>
    cases h : (result.arrays n).1 with
    | error fault =>
      rw [arrays_succ_of_error h]
      exact Nat.le_succ_of_le ih
    | ok id =>
      rw [arrays_succ_of_ok h]
      exact Nat.le_trans (Arena.size_intern_le ..) (Nat.succ_le_succ ih)

theorem ok_or_runsOut_intern (arena : Arena) (type : Ty) :
    (∃ id, (arena.intern type).1 = .ok id) ∨ arena.RunsOut 1 .arenaFull (arena.intern type) := by
  rcases arena.intern_cases type with ⟨id, -, heq⟩ | ⟨-, -, heq⟩ | ⟨-, hfull, heq⟩
  · exact .inl ⟨id, by rw [heq]⟩
  · exact .inl ⟨_, by rw [heq]⟩
  · exact .inr ⟨by rw [heq], by rwa [heq], Nat.not_le_of_lt (Nat.lt_succ_of_le hfull)⟩

theorem ok_or_runsOut_arrays (hcount : result.2.size ≤ arena.size + count)
    (h : (∃ id, result.1 = .ok id) ∨ arena.RunsOut count .arenaFull result) (dimensions : Nat) :
    (∃ id, (result.arrays dimensions).1 = .ok id) ∨
      arena.RunsOut (count + dimensions) .arenaFull (result.arrays dimensions) := by
  induction dimensions with
  | zero => exact h
  | succ n ih =>
    have hsize := size_arrays_le result n
    rcases ih with ⟨first, hfirst⟩ | hout
    · have hbelow : (result.arrays n).2.size ≤ arena.size + (count + n) := by omega
      rw [arrays_succ_of_ok hfirst]
      exact (ok_or_runsOut_intern _ (.array first)).imp_right (·.of_larger hbelow)
    · rw [arrays_succ_of_error hout.answer]
      exact .inr (hout.mono (Nat.le_succ _))

end Interned

namespace Arena

variable {arena larger : Arena} {id component : TypeIndex} {element : Ty} {dimensions : Nat}

theorem ok_or_runsOut_arrayOver (hget : arena.get? component = some element)
    (helement : element.isArrayElement = true) (dimensions : Nat) :
    (∃ array, (arena.arrayOver component dimensions).1 = .ok array) ∨
      arena.RunsOut dimensions .arenaFull (arena.arrayOver component dimensions) := by
  let start : Interned := (.ok component, arena)
  have hstart : (∃ id, start.1 = .ok id) ∨ arena.RunsOut 0 .arenaFull start :=
    .inl ⟨component, rfl⟩
  have harrays := Interned.ok_or_runsOut_arrays (Nat.le_refl arena.size) hstart dimensions
  rwa [Nat.zero_add, ← arrayOver_of_element hget helement] at harrays

def internOver (arena : Arena) (dimensions : Nat) (element : Ty) : Interned :=
  (arena.intern element).arrays dimensions

theorem types_prefix_internOver (arena : Arena) (dimensions : Nat) (element : Ty) :
    arena.types <+: (arena.internOver dimensions element).2.types :=
  (types_prefix_intern arena element).trans (Interned.types_prefix_arrays ..)

theorem Valid.internOver (hvalid : arena.Valid) (dimensions : Nat) (element : Ty) :
    (arena.internOver dimensions element).2.Valid :=
  Interned.valid_arrays (hvalid.intern element) dimensions

theorem unfolds_internOver (hnot : ∀ component, element ≠ .array component)
    (hid : (arena.internOver dimensions element).1 = .ok id) :
    (arena.internOver dimensions element).2.Unfolds id dimensions element := by
  obtain ⟨component, hcomponent⟩ := Interned.exists_of_arrays hid
  exact Interned.unfolds_arrays hcomponent (.element (get?_intern hcomponent) hnot) hid

theorem internOver_of_unfolds (hvalid : arena.Valid) (h : arena.Unfolds id dimensions element) :
    arena.internOver dimensions element = (.ok id, arena) := by
  obtain ⟨bare, hbare⟩ := h.exists_bare
  cases hbare with
  | element hget hnot =>
    rw [internOver, intern_of_get? hvalid hget]
    exact Interned.arrays_of_unfolds hvalid h (.element hget hnot)

theorem ok_or_runsOut_internOver (arena : Arena) (dimensions : Nat) (element : Ty) :
    (∃ id, (arena.internOver dimensions element).1 = .ok id) ∨
      arena.RunsOut (dimensions + 1) .arenaFull (arena.internOver dimensions element) := by
  rw [Nat.add_comm]
  exact Interned.ok_or_runsOut_arrays (arena.size_intern_le element)
    (Interned.ok_or_runsOut_intern arena element) dimensions

theorem size_internOver_le (arena : Arena) (dimensions : Nat) (element : Ty) :
    (arena.internOver dimensions element).2.size ≤ arena.size + (dimensions + 1) := by
  have hfirst := arena.size_intern_le element
  have harrays := Interned.size_arrays_le (arena.intern element) dimensions
  rw [internOver]
  omega

end Arena
end MethodLinkage
