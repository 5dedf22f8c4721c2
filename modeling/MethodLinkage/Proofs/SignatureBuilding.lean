import Mathlib.Algebra.GroupWithZero.Nat
import Mathlib.Algebra.Order.BigOperators.Group.List
import Mathlib.Algebra.Order.Group.Nat
import Mathlib.Data.List.Forall2
import MethodLinkage.Proofs.ElementResolution
import MethodLinkage.Proofs.ResolverCorrespondence

/-!
# What building resolves

Building a signature places the elements of its descriptor one after another and
stops at the first whose search fails. So its answer, the arena it leaves and the
names it asks for are functions of the arena and of what the loaders would answer
(`build_spec`); each number it gives unfolds to what its element stands for.
-/

namespace MethodLinkage

/-- How many types elements may add: each itself, and its arrays. -/
def Element.typeCount (elements : List Element) : Nat := (elements.map (·.dimensions + 1)).sum

theorem Element.typeCount_append (elements later : List Element) :
    typeCount (elements ++ later) = typeCount elements + typeCount later := by
  rw [typeCount, List.map_append, List.sum_append]
  rfl

theorem Element.length_le_typeCount (elements : List Element) :
    elements.length ≤ typeCount elements := by
  induction elements with
  | nil => exact Nat.le_refl _
  | cons element rest ih =>
    rw [typeCount, List.map_cons, List.sum_cons, List.length_cons, Nat.add_comm]
    exact Nat.add_le_add (Nat.le_add_left ..) ih

namespace Descriptor

def bare (descriptor : Descriptor) : List Element :=
  descriptor.parameters.map .field ++ [descriptor.result]

theorem typeCount_bare_lt (descriptor : Descriptor) :
    Element.typeCount descriptor.bare < descriptor.text.length := by
  have hresult := descriptor.result.dimensions_lt_length_text
  have hparameters : ((descriptor.parameters.map Element.field).map (·.dimensions + 1)).sum ≤
      (parameterText descriptor.parameters).length := by
    rw [parameterText, List.length_flatMap, List.map_map]
    exact List.sum_le_sum fun type _ => (Element.field type).dimensions_lt_length_text
  simp only [bare, Element.typeCount, List.map_append, List.sum_append, List.map_singleton,
    List.sum_singleton, text, List.length_append, List.length_cons]
  omega

end Descriptor

namespace Arena

variable {arena larger : Arena} {id : TypeIndex}

theorem definingLoader_mono {loader : Option LoaderIndex} (hgrown : arena.types <+: larger.types)
    (h : arena.definingLoader id = .ok loader) : larger.definingLoader id = .ok loader := by
  cases hinner : arena.innermost id with
  | error fault => simp [definingLoader, hinner, Except.map] at h
  | ok inner =>
    obtain ⟨dimensions, element⟩ := inner
    have hlarger := innermost_eq_ok_iff.mpr ((innermost_eq_ok_iff.mp hinner).mono hgrown)
    rw [definingLoader, hinner] at h
    rw [definingLoader, hlarger]
    exact h

/-- A number that has been given to a placement. -/
def Holds (arena : Arena) : Placement → TypeIndex → Prop
  | .known known, id => id = known
  | .built dimensions element, id => arena.Unfolds id dimensions element

theorem Holds.mono {placement : Placement} (hgrown : arena.types <+: larger.types)
    (h : arena.Holds placement id) : larger.Holds placement id := by
  cases placement with
  | known known => exact h
  | built dimensions element => exact Unfolds.mono hgrown h

def slotsOf (arena : Arena) (id : TypeIndex) : UInt32 := ((arena.get? id).map Ty.slots).getD 0

theorem slotsOf_eq {type : Ty} (h : arena.get? id = some type) : arena.slotsOf id = type.slots := by
  rw [slotsOf, h]
  rfl

theorem slotsOf_le (arena : Arena) (id : TypeIndex) : (arena.slotsOf id).toNat ≤ 2 := by
  rw [slotsOf]
  cases arena.get? id with
  | none => decide
  | some type =>
    cases type with
    | primitive type => cases type <;> decide
    | void => decide
    | loadedClass | placeholder | array => exact Nat.le_succ 1

def slotsTogether (arena : Arena) : List TypeIndex → UInt32
  | [] => 0
  | id :: rest => arena.slotsOf id + arena.slotsTogether rest

theorem slotsTogether_mono {ids : List TypeIndex} (hgrown : arena.types <+: larger.types)
    (h : ∀ id ∈ ids, ∃ type, arena.get? id = some type) :
    larger.slotsTogether ids = arena.slotsTogether ids := by
  induction ids with
  | nil => rfl
  | cons id rest ih =>
    obtain ⟨⟨type, htype⟩, hrest⟩ := List.forall_mem_cons.mp h
    rw [slotsTogether, slotsTogether, ih hrest, slotsOf_eq htype,
      slotsOf_eq (get?_mono hgrown htype)]

def slotCount (arena : Arena) : List TypeIndex → Nat
  | [] => 0
  | id :: rest => (arena.slotsOf id).toNat + arena.slotCount rest

theorem slotCount_le (arena : Arena) (ids : List TypeIndex) :
    arena.slotCount ids ≤ 2 * ids.length := by
  induction ids with
  | nil => exact Nat.le_refl _
  | cons id rest ih =>
    have hid := arena.slotsOf_le id
    rw [slotCount, List.length_cons]
    omega

theorem toNat_slotsTogether (arena : Arena) (ids : List TypeIndex)
    (h : 2 * ids.length < UInt32.size) :
    (arena.slotsTogether ids).toNat = arena.slotCount ids := by
  induction ids with
  | nil => rfl
  | cons id rest ih =>
    have hle := arena.slotCount_le (id :: rest)
    rw [slotCount, List.length_cons] at hle
    rw [List.length_cons] at h
    have hsum := ih (by omega)
    rw [slotsTogether, slotCount, UInt32.toNat_add, hsum]
    exact Nat.mod_eq_of_lt (Nat.lt_of_le_of_lt hle h)

end Arena

def Signature.ofTypes (descriptor : Descriptor) (accessing : TypeIndex) (arena : Arena)
    (parameters : List TypeIndex) (result : TypeIndex) : Signature :=
  ⟨descriptor, accessing, parameters, result, arena.slotsTogether parameters⟩

theorem Signature.forall₂_types {descriptor : Descriptor} {signature : Signature}
    {holds : Element → TypeIndex → Prop}
    (h : List.Forall₂ holds descriptor.bare signature.types) :
    List.Forall₂ (fun type id => holds (.field type) id) descriptor.parameters
        signature.parameters ∧
      holds descriptor.result signature.result := by
  -- the result comes last on both sides
  rw [← List.forall₂_reverse_iff, Descriptor.bare, Signature.types, List.reverse_append,
    List.reverse_append] at h
  obtain ⟨hresult, hparameters⟩ := List.forall₂_cons.mp h
  exact ⟨List.forall₂_map_left_iff.mp (List.forall₂_reverse_iff.mp hparameters), hresult⟩

namespace LoaderSystem

open Arena (Placement)

variable {system after : LoaderSystem} {arena : Arena} {view : Viewpoint} {loader : LoaderIndex}
  {element : Element}

/-- Places elements in order, up to the first that fails. -/
def settle (system : LoaderSystem) (view : Viewpoint) (loader : LoaderIndex) :
    List Element → Arena → Except Failure (List TypeIndex) × Arena
  | [], arena => (.ok [], arena)
  | element :: rest, arena =>
    match system.placeElement view loader element arena with
    | (.error failure, last) => (.error failure, last)
    | (.ok id, middle) =>
      let later := system.settle view loader rest middle
      (later.1.map (id :: ·), later.2)

def askedFor (system : LoaderSystem) (view : Viewpoint) (loader : LoaderIndex) :
    List Element → Arena → List Text
  | [], _ => []
  | element :: rest, arena =>
    match system.placeElement view loader element arena with
    | (.error _, _) => element.kind.name?.toList
    | (.ok _, middle) => element.kind.name?.toList ++ system.askedFor view loader rest middle

theorem settle_congr (h : SameAnswers system after) (elements : List Element) (arena : Arena) :
    after.settle view loader elements arena = system.settle view loader elements arena := by
  induction elements generalizing arena with
  | nil => rfl
  | cons element rest ih => simp only [settle, placeElement_congr h, ih]

theorem askedFor_congr (h : SameAnswers system after) (elements : List Element) (arena : Arena) :
    after.askedFor view loader elements arena = system.askedFor view loader elements arena := by
  induction elements generalizing arena with
  | nil => rfl
  | cons element rest ih => simp only [askedFor, placeElement_congr h, ih]

theorem settle_cons {rest : List Element} {id : TypeIndex} {middle : Arena}
    (h : system.placeElement view loader element arena = (.ok id, middle)) :
    system.settle view loader (element :: rest) arena =
      ((system.settle view loader rest middle).1.map (id :: ·),
        (system.settle view loader rest middle).2) := by
  rw [settle, h]

theorem exists_of_settle_cons {rest : List Element} {ids : List TypeIndex} {last : Arena}
    (h : system.settle view loader (element :: rest) arena = (.ok ids, last)) :
    ∃ id middle others, system.placeElement view loader element arena = (.ok id, middle) ∧
      system.settle view loader rest middle = (.ok others, last) ∧ ids = id :: others := by
  rw [settle] at h
  generalize system.placeElement view loader element arena = placed at h
  obtain ⟨_ | id, middle⟩ := placed
  · cases h
  · refine ⟨id, middle, ?_⟩
    dsimp only at h
    generalize system.settle view loader rest middle = later at h
    obtain ⟨_ | others, final⟩ := later
    · cases h
    · cases h
      exact ⟨others, rfl, rfl, rfl⟩

theorem settle_error_cases {rest : List Element} {failure : Failure} {last : Arena}
    (h : system.settle view loader (element :: rest) arena = (.error failure, last)) :
    system.placeElement view loader element arena = (.error failure, last) ∨
    ∃ id middle, system.placeElement view loader element arena = (.ok id, middle) ∧
      system.settle view loader rest middle = (.error failure, last) := by
  rw [settle] at h
  generalize system.placeElement view loader element arena = placed at h ⊢
  obtain ⟨_ | id, middle⟩ := placed
  · cases h
    exact .inl rfl
  · refine .inr ⟨id, middle, rfl, ?_⟩
    dsimp only at h
    generalize system.settle view loader rest middle = later at h ⊢
    obtain ⟨_ | others, final⟩ := later
    · cases h
      rfl
    · cases h

theorem placeElement_keeps {holds : Arena → Prop}
    (hplace : ∀ before placement, holds before → holds (before.place placement).2)
    (hstart : holds arena) : holds (system.placeElement view loader element arena).2 := by
  rw [placeElement]
  split
  · exact hstart
  · exact hplace arena _ hstart

theorem types_prefix_placeElement (system : LoaderSystem) (view : Viewpoint)
    (loader : LoaderIndex) (element : Element) (arena : Arena) :
    arena.types <+: (system.placeElement view loader element arena).2.types := by
  have hplace : ∀ (before : Arena) (placement : Placement), arena.types <+: before.types →
      arena.types <+: (before.place placement).2.types := fun before placement hgrown =>
    hgrown.trans (before.types_prefix_place placement)
  exact placeElement_keeps hplace (List.prefix_refl _)

theorem valid_placeElement (hvalid : arena.Valid) (system : LoaderSystem) (view : Viewpoint)
    (loader : LoaderIndex) (element : Element) :
    (system.placeElement view loader element arena).2.Valid :=
  placeElement_keeps (fun _ placement hbefore => hbefore.place placement) hvalid

theorem settle_keeps {holds : Arena → Prop}
    (hplace : ∀ before placement, holds before → holds (before.place placement).2)
    {elements : List Element} {last : Arena} {settled : Except Failure (List TypeIndex)}
    (hstart : holds arena) (h : system.settle view loader elements arena = (settled, last)) :
    holds last := by
  induction elements generalizing arena settled with
  | nil =>
    cases h
    exact hstart
  | cons element rest ih =>
    have helement : holds (system.placeElement view loader element arena).2 :=
      placeElement_keeps hplace hstart
    rw [settle] at h
    generalize system.placeElement view loader element arena = placed at h helement
    obtain ⟨_ | id, middle⟩ := placed
    · cases h
      exact helement
    · cases h
      exact ih helement rfl

theorem types_prefix_of_settle {elements : List Element} {last : Arena}
    {settled : Except Failure (List TypeIndex)}
    (h : system.settle view loader elements arena = (settled, last)) :
    arena.types <+: last.types := by
  have hplace : ∀ (before : Arena) (placement : Placement), arena.types <+: before.types →
      arena.types <+: (before.place placement).2.types := fun before placement hgrown =>
    hgrown.trans (before.types_prefix_place placement)
  exact settle_keeps hplace (List.prefix_refl _) h

theorem valid_of_settle {elements : List Element} {last : Arena}
    {settled : Except Failure (List TypeIndex)} (hvalid : arena.Valid)
    (h : system.settle view loader elements arena = (settled, last)) : last.Valid :=
  settle_keeps (fun _ placement hbefore => hbefore.place placement) hvalid h

theorem sightType_ne_array {dimensions : Nat} {type : Ty} {fieldType : FieldType}
    (h : system.sightType loader fieldType = .ok (.built dimensions type)) :
    ∀ component, type ≠ .array component := by
  rintro component rfl
  rw [sightType] at h
  split at h
  · cases h
  · split at h <;> cases h

theorem placement_ne_array {dimensions : Nat} {type : Ty}
    (h : system.placement view loader element = .ok (.built dimensions type)) :
    ∀ component, type ≠ .array component := by
  cases element with
  | void =>
    rintro component rfl
    cases h
  | field fieldType => exact sightType_ne_array (sightType_of_built h)

theorem holds_place {placement : Placement} {id : TypeIndex} {last : Arena}
    (h : system.placement view loader element = .ok placement)
    (hid : arena.place placement = (.ok id, last)) : last.Holds placement id := by
  cases placement with
  | known known =>
    cases hid
    rfl
  | built dimensions type =>
    rw [Arena.place] at hid
    have hunfolds := Arena.unfolds_internOver (placement_ne_array h) (congrArg Prod.fst hid)
    rwa [hid] at hunfolds

theorem lookup_of_placement {id : TypeIndex}
    (h : system.placement view loader element = .ok (.known id)) :
    ∃ name, element.kind.name? = some name ∧ view.references.lookup name = some id := by
  cases element with
  | void => cases h
  | field type =>
    rw [placement] at h
    split at h
    · next hentry =>
      cases h
      exact Option.bind_eq_some_iff.mp hentry
    · rw [sightType] at h
      split at h
      · cases h
      · split at h <;> cases h

theorem mem_of_lookup {α : Type} {entries : List (Text × α)} {name : Text} {value : α}
    (h : entries.lookup name = some value) : (name, value) ∈ entries := by
  obtain ⟨earlier, later, heq, -⟩ := List.lookup_eq_some_iff.mp h
  rw [heq]
  exact List.mem_append_right earlier List.mem_cons_self

def Issued (arena : Arena) (references : References) : Prop :=
  ∀ name id, references.lookup name = some id → ∃ type, arena.get? id = some type

theorem Issued.mono {references : References} {larger : Arena}
    (hgrown : arena.types <+: larger.types) (h : Issued arena references) :
    Issued larger references := fun name id hentry =>
  (h name id hentry).imp fun _ hget => Arena.get?_mono hgrown hget

/-- All that a table gives has been issued and is of one sort. -/
def GivesOnly (admits : Ty → Prop) (arena : Arena) (references : References) : Prop :=
  ∀ name id, references.lookup name = some id → ∃ type, arena.get? id = some type ∧ admits type

theorem GivesOnly.issued {admits : Ty → Prop} {references : References}
    (h : GivesOnly admits arena references) : Issued arena references := by
  intro name id hentry
  obtain ⟨type, hget, -⟩ := h name id hentry
  exact ⟨type, hget⟩

theorem GivesOnly.mono {admits : Ty → Prop} {references : References} {larger : Arena}
    (hgrown : arena.types <+: larger.types) (h : GivesOnly admits arena references) :
    GivesOnly admits larger references := by
  intro name id hentry
  obtain ⟨type, hget, hadmits⟩ := h name id hentry
  exact ⟨type, Arena.get?_mono hgrown hget, hadmits⟩

theorem givesOnly_nil (admits : Ty → Prop) (arena : Arena) : GivesOnly admits arena [] := by
  intro name id hentry
  cases hentry

theorem givesOnly_singleton {admits : Ty → Prop} {type : Ty} (name : Text) {id : TypeIndex}
    (hget : arena.get? id = some type) (hadmits : admits type) :
    GivesOnly admits arena [(name, id)] := by
  intro other given hentry
  cases List.mem_singleton.mp (mem_of_lookup hentry)
  exact ⟨type, hget, hadmits⟩

theorem exists_get?_of_holds {placement : Placement} {id : TypeIndex}
    (hissued : Issued arena view.references)
    (hplacement : system.placement view loader element = .ok placement)
    (h : arena.Holds placement id) : ∃ type, arena.get? id = some type := by
  cases placement with
  | known known =>
    obtain ⟨name, -, hentry⟩ := lookup_of_placement hplacement
    cases h
    exact hissued name _ hentry
  | built dimensions type => exact Arena.Unfolds.exists_get? h

theorem resolveParameters_spec (system : LoaderSystem) (asked : List Text) (hvalid : arena.Valid)
    (hloader : arena.definingLoader view.accessing = .ok (some loader))
    (hissued : Issued arena view.references) (types : List FieldType) :
    ∃ after, SameAnswers system after ∧
      Signature.resolveParameters view loader types arena
          (⟨system, asked⟩ : Recorded LoaderSystem) =
        match system.settle view loader (types.map .field) arena with
        | (.error failure, last) =>
          ⟨.error failure, last,
            ⟨after, asked ++ system.askedFor view loader (types.map .field) arena⟩⟩
        | (.ok ids, last) =>
          .ok (ids, last.slotsTogether ids) last
            ⟨after, asked ++ system.askedFor view loader (types.map .field) arena⟩ := by
  induction types generalizing system asked arena with
  | nil =>
    refine ⟨system, .refl _, ?_⟩
    simp [Signature.resolveParameters, settle, askedFor, Arena.slotsTogether]
  | cons type types ih =>
    obtain ⟨middle, hmiddle, helement⟩ :=
      resolveElement_spec system asked hvalid hloader (.field type)
    rw [Signature.resolveParameters, helement, List.map_cons, settle, askedFor]
    cases hplaced : system.placeElement view loader (.field type) arena with
    | mk placed larger =>
      cases placed with
      | error failure => exact ⟨middle, hmiddle, rfl⟩
      | ok id =>
        obtain ⟨placement, hplacement, hplace⟩ := exists_of_placeElement hplaced
        -- the later elements meet a larger arena and a system whose caches are fuller
        have hgrown : arena.types <+: larger.types := by
          have hprefix := arena.types_prefix_place placement
          rwa [hplace] at hprefix
        have hlarger : larger.Valid := by
          have hplaced := hvalid.place placement
          rwa [hplace] at hplaced
        obtain ⟨resolved, hresolved⟩ := exists_get?_of_holds (hissued.mono hgrown) hplacement
          (holds_place hplacement hplace)
        obtain ⟨after, hafter, hrest⟩ := ih middle
          (asked ++ (Element.field type).kind.name?.toList) hlarger
          (Arena.definingLoader_mono hgrown hloader) (hissued.mono hgrown)
        rw [settle_congr hmiddle, askedFor_congr hmiddle] at hrest
        refine ⟨after, hmiddle.trans hafter, ?_⟩
        dsimp only [Outcome.andThen]
        rw [hresolved]
        dsimp only
        rw [hrest]
        cases hsettled : system.settle view loader (types.map .field) larger with
        | mk settled last =>
          have hlater := Arena.get?_mono (types_prefix_of_settle hsettled) hresolved
          cases settled with
          | error failure => simp [Except.map]
          | ok ids =>
            simp [Outcome.ok, Except.map, Arena.slotsTogether, Arena.slotsOf_eq hlater]

theorem settle_append (elements later : List Element) (arena : Arena) :
    system.settle view loader (elements ++ later) arena =
      match system.settle view loader elements arena with
      | (.error failure, last) => (.error failure, last)
      | (.ok ids, middle) =>
        ((system.settle view loader later middle).1.map (ids ++ ·),
          (system.settle view loader later middle).2) := by
  induction elements generalizing arena with
  | nil =>
    dsimp only [settle, List.nil_append]
    generalize system.settle view loader later arena = settled
    obtain ⟨_ | ids, last⟩ := settled <;> rfl
  | cons element rest ih =>
    rw [List.cons_append, settle, settle]
    obtain ⟨_ | id, larger⟩ := system.placeElement view loader element arena
    · rfl
    · dsimp only
      rw [ih]
      obtain ⟨_ | ids, middle⟩ := system.settle view loader rest larger
      · rfl
      · dsimp only [Except.map]
        cases (system.settle view loader later middle).1 <;> rfl

theorem askedFor_append (system : LoaderSystem) (view : Viewpoint) (loader : LoaderIndex)
    (elements later : List Element) (arena : Arena) :
    system.askedFor view loader (elements ++ later) arena =
      match system.settle view loader elements arena with
      | (.error _, _) => system.askedFor view loader elements arena
      | (.ok _, middle) =>
        system.askedFor view loader elements arena ++
          system.askedFor view loader later middle := by
  induction elements generalizing arena with
  | nil => rfl
  | cons element rest ih =>
    rw [List.cons_append, askedFor, askedFor, settle]
    obtain ⟨_ | id, larger⟩ := system.placeElement view loader element arena
    · rfl
    · dsimp only
      rw [ih]
      obtain ⟨_ | ids, middle⟩ := system.settle view loader rest larger
      · rfl
      · simp [Except.map]

theorem typeCount_placement_le {placement : Placement}
    (h : system.placement view loader element = .ok placement) :
    placement.typeCount ≤ element.dimensions + 1 := by
  cases element with
  | void =>
    cases h
    exact Nat.le_refl _
  | field type =>
    cases placement with
    | known id => exact Nat.zero_le _
    | built dimensions bare =>
      have hsight := sightType_of_built h
      rw [sightType] at hsight
      split at hsight
      · cases hsight
        exact Nat.le_refl _
      · split at hsight
        · cases hsight
        · cases hsight
          exact Nat.le_add_left ..
        · cases hsight
          exact Nat.le_refl _

theorem size_placeElement_le (system : LoaderSystem) (view : Viewpoint) (loader : LoaderIndex)
    (element : Element) (arena : Arena) :
    (system.placeElement view loader element arena).2.size ≤
      arena.size + (element.dimensions + 1) := by
  rw [placeElement]
  cases hplacement : system.placement view loader element with
  | error error => exact Nat.le_add_right ..
  | ok placement =>
    exact Nat.le_trans (arena.size_place_le placement)
      (Nat.add_le_add_left (typeCount_placement_le hplacement) _)

theorem runsOut_of_placeElement {fault : Fault}
    (h : (system.placeElement view loader element arena).1 = .error (.fault fault)) :
    arena.RunsOut (element.dimensions + 1) (.fault .arenaFull)
      (system.placeElement view loader element arena) := by
  rw [placeElement] at h ⊢
  cases hplacement : system.placement view loader element with
  | error error =>
    rw [hplacement] at h
    cases h
  | ok placement =>
    rw [hplacement] at h
    rcases arena.ok_or_runsOut_place placement with ⟨id, hid⟩ | hout
    · dsimp only at h
      rw [hid] at h
      cases h
    · refine ⟨?_, hout.isFull, (hout.mono (typeCount_placement_le hplacement)).noRoom⟩
      dsimp only
      rw [hout.answer]
      rfl

theorem exists_placement_error_of_settle {elements : List Element} {error : ResolverError}
    {last : Arena}
    (h : system.settle view loader elements arena = (.error (.error error), last)) :
    ∃ element ∈ elements, system.placement view loader element = .error error := by
  induction elements generalizing arena with
  | nil => cases h
  | cons element rest ih =>
    rcases settle_error_cases h with hplaced | ⟨id, middle, -, hlater⟩
    · exact ⟨element, List.mem_cons_self, placement_of_placeElement_error hplaced⟩
    · obtain ⟨other, hmem, hfails⟩ := ih hlater
      exact ⟨other, List.mem_cons_of_mem _ hmem, hfails⟩

theorem runsOut_of_settle {elements : List Element} {fault : Fault} {last : Arena}
    (h : system.settle view loader elements arena = (.error (.fault fault), last)) :
    arena.RunsOut (Element.typeCount elements) (.fault .arenaFull)
      (system.settle view loader elements arena) := by
  induction elements generalizing arena with
  | nil => cases h
  | cons element rest ih =>
    rw [h, Element.typeCount, List.map_cons, List.sum_cons, ← Element.typeCount]
    rcases settle_error_cases h with hplaced | ⟨id, middle, hplaced, hlater⟩
    · have hout := runsOut_of_placeElement (congrArg Prod.fst hplaced)
      rw [hplaced] at hout
      exact (hout.mono (Nat.le_add_right ..)).of_failure
    · have hout := ih hlater
      have hsize := system.size_placeElement_le view loader element arena
      rw [hlater] at hout
      rw [hplaced] at hsize
      exact hout.of_larger hsize

theorem ok_or_runsOut_settle {elements : List Element}
    (h : ∀ element ∈ elements, ∃ placement, system.placement view loader element = .ok placement)
    (arena : Arena) :
    (∃ ids, (system.settle view loader elements arena).1 = .ok ids) ∨
      arena.RunsOut (Element.typeCount elements) (.fault .arenaFull)
        (system.settle view loader elements arena) := by
  rcases hsettled : system.settle view loader elements arena with ⟨(error | fault) | ids, last⟩
  · obtain ⟨element, helement, hfails⟩ := exists_placement_error_of_settle hsettled
    obtain ⟨placement, hplacement⟩ := h element helement
    rw [hplacement] at hfails
    cases hfails
  · rw [← hsettled]
    exact .inr (runsOut_of_settle hsettled)
  · exact .inl ⟨ids, rfl⟩

theorem settle_holds {elements : List Element} {ids : List TypeIndex} {last : Arena}
    (h : system.settle view loader elements arena = (.ok ids, last)) :
    List.Forall₂ (fun element id => ∃ placement,
      system.placement view loader element = .ok placement ∧ last.Holds placement id)
      elements ids := by
  induction elements generalizing arena ids with
  | nil =>
    cases h
    exact .nil
  | cons element rest ih =>
    obtain ⟨id, middle, others, hplaced, hsettled, rfl⟩ := exists_of_settle_cons h
    obtain ⟨placement, hplacement, hplace⟩ := exists_of_placeElement hplaced
    have hlater := types_prefix_of_settle hsettled
    exact .cons ⟨placement, hplacement, (holds_place hplacement hplace).mono hlater⟩
      (ih hsettled)

theorem exists_placement_of_settle {elements : List Element} {ids : List TypeIndex} {last : Arena}
    (h : system.settle view loader elements arena = (.ok ids, last)) :
    ∀ element ∈ elements, ∃ placement, system.placement view loader element = .ok placement := by
  have hholds := settle_holds h
  clear h
  induction hholds with
  | nil => exact List.forall_mem_nil _
  | cons hfirst _ ih =>
    obtain ⟨placement, hplacement, -⟩ := hfirst
    exact List.forall_mem_cons.mpr ⟨⟨placement, hplacement⟩, ih⟩

theorem exists_get?_of_settle {elements : List Element} {ids : List TypeIndex} {last : Arena}
    (hissued : Issued arena view.references)
    (h : system.settle view loader elements arena = (.ok ids, last)) :
    ∀ id ∈ ids, ∃ type, last.get? id = some type := by
  have hgrown := types_prefix_of_settle h
  have hholds := settle_holds h
  clear h
  induction hholds with
  | nil => exact List.forall_mem_nil _
  | cons hfirst _ ih =>
    obtain ⟨placement, hplacement, hheld⟩ := hfirst
    exact List.forall_mem_cons.mpr
      ⟨exists_get?_of_holds (hissued.mono hgrown) hplacement hheld, ih⟩

theorem build_spec (system : LoaderSystem) (asked : List Text) (descriptor : Descriptor)
    (hvalid : arena.Valid) (hloader : arena.definingLoader view.accessing = .ok (some loader))
    (hissued : Issued arena view.references) :
    ∃ after, SameAnswers system after ∧
      ((∃ failure last, system.settle view loader descriptor.bare arena = (.error failure, last) ∧
        Signature.build view descriptor arena (⟨system, asked⟩ : Recorded LoaderSystem) =
          ⟨.error failure, last,
            ⟨after, asked ++ system.askedFor view loader descriptor.bare arena⟩⟩) ∨
      ∃ parameters result last,
        system.settle view loader descriptor.bare arena = (.ok (parameters ++ [result]), last) ∧
        Signature.build view descriptor arena (⟨system, asked⟩ : Recorded LoaderSystem) =
          .ok (.ofTypes descriptor view.accessing last parameters result) last
            ⟨after, asked ++ system.askedFor view loader descriptor.bare arena⟩) := by
  obtain ⟨middle, hmiddle, hparameters⟩ :=
    resolveParameters_spec system asked hvalid hloader hissued descriptor.parameters
  have hnames := askedFor_append system view loader (descriptor.parameters.map .field)
    [descriptor.result] arena
  rw [Signature.build_eq, accessingLoader_of_definingLoader hloader, Descriptor.bare, settle_append,
    hnames]
  dsimp only
  rw [hparameters]
  cases hsettled : system.settle view loader (descriptor.parameters.map .field) arena with
  | mk settled last =>
    have hgrown := types_prefix_of_settle hsettled
    have hheld := valid_of_settle hvalid hsettled
    cases settled with
    | error failure => exact ⟨middle, hmiddle, .inl ⟨failure, last, rfl, rfl⟩⟩
    | ok parameters =>
      dsimp only
      obtain ⟨after, hafter, hresult⟩ := resolveElement_spec middle
        (asked ++ system.askedFor view loader (descriptor.parameters.map .field) arena) hheld
        (Arena.definingLoader_mono hgrown hloader) descriptor.result
      rw [placeElement_congr hmiddle] at hresult
      refine ⟨after, hmiddle.trans hafter, ?_⟩
      rw [Outcome.andThen_ok, settle, askedFor]
      dsimp only
      rw [hresult]
      cases hplaced : system.placeElement view loader descriptor.result last with
      | mk placed larger =>
        cases placed with
        | error failure =>
          refine .inl ⟨failure, larger, rfl, ?_⟩
          simp [Outcome.andThen]
        | ok result =>
          obtain ⟨placement, -, hplace⟩ := exists_of_placeElement hplaced
          have hlarger := last.types_prefix_place placement
          rw [hplace] at hlarger
          -- the slots were read off before the result was placed
          have hslots := Arena.slotsTogether_mono hlarger
            (exists_get?_of_settle hissued hsettled)
          refine .inr ⟨parameters, result, larger, rfl, ?_⟩
          simp [Outcome.andThen, Outcome.ok, Signature.ofTypes, hslots, askedFor]

theorem build_plain_spec (system : LoaderSystem) (descriptor : Descriptor) (hvalid : arena.Valid)
    (hloader : arena.definingLoader view.accessing = .ok (some loader))
    (hissued : Issued arena view.references) :
    ∃ after, SameAnswers system after ∧
      ((∃ failure last, system.settle view loader descriptor.bare arena = (.error failure, last) ∧
        Signature.build view descriptor arena system = ⟨.error failure, last, after⟩) ∨
      ∃ parameters result last,
        system.settle view loader descriptor.bare arena = (.ok (parameters ++ [result]), last) ∧
        Signature.build view descriptor arena system =
          .ok (.ofTypes descriptor view.accessing last parameters result) last after) := by
  have hplain := Recorded.unrecorded_build view descriptor arena
    (⟨system, []⟩ : Recorded LoaderSystem)
  dsimp only at hplain
  obtain ⟨after, hafter, hbuild⟩ := build_spec system [] descriptor hvalid hloader hissued
  refine ⟨after, hafter, ?_⟩
  rw [← hplain]
  rcases hbuild with ⟨failure, last, hsettled, hbuild⟩ | ⟨parameters, result, last, hsettled, hbuild⟩
  · rw [hbuild]
    exact .inl ⟨failure, last, hsettled, rfl⟩
  · rw [hbuild]
    exact .inr ⟨parameters, result, last, hsettled, rfl⟩

theorem ok_or_runsOut_build {descriptor : Descriptor} (hvalid : arena.Valid)
    (hloader : arena.definingLoader view.accessing = .ok (some loader))
    (hissued : Issued arena view.references)
    (h : ∀ element ∈ descriptor.bare, ∃ placement,
      system.placement view loader element = .ok placement) :
    let outcome := Signature.build view descriptor arena system
    (∃ signature, outcome.answer = .ok signature) ∨
      arena.RunsOut (Element.typeCount descriptor.bare) (.fault .arenaFull)
        (outcome.answer, outcome.arena) := by
  obtain ⟨after, -, hbuild⟩ := build_plain_spec system descriptor hvalid hloader hissued
  rcases hbuild with ⟨failure, last, hsettled, hbuild⟩ | ⟨parameters, result, last, -, hbuild⟩
  · rcases ok_or_runsOut_settle h arena with ⟨ids, hids⟩ | hout
    · rw [hsettled] at hids
      cases hids
    · rw [hsettled] at hout
      rw [hbuild]
      exact .inr hout.of_failure
  · rw [hbuild]
    exact .inl ⟨_, rfl⟩

theorem definingLoader_of_build {descriptor : Descriptor} {signature : Signature}
    (h : (Signature.build view descriptor arena system).answer = .ok signature) :
    ∃ loader, arena.definingLoader view.accessing = .ok (some loader) := by
  cases hloader : arena.definingLoader view.accessing with
  | error fault =>
    simp [Signature.build_eq, Arena.accessingLoader, hloader, Outcome.fault] at h
  | ok found =>
    cases found with
    | none => simp [Signature.build_eq, Arena.accessingLoader, hloader, Outcome.fault] at h
    | some loader => exact ⟨loader, rfl⟩

theorem settle_of_build {descriptor : Descriptor} {signature : Signature} (hvalid : arena.Valid)
    (hloader : arena.definingLoader view.accessing = .ok (some loader))
    (hissued : Issued arena view.references)
    (h : (Signature.build view descriptor arena system).answer = .ok signature) :
    signature.descriptor = descriptor ∧
      system.settle view loader descriptor.bare arena =
        (.ok signature.types, (Signature.build view descriptor arena system).arena) ∧
      SameAnswers system (Signature.build view descriptor arena system).resolver := by
  obtain ⟨after, hafter, hbuild⟩ := build_plain_spec system descriptor hvalid hloader hissued
  rcases hbuild with ⟨failure, last, -, hbuild⟩ | ⟨parameters, result, last, hsettled, hbuild⟩
  · rw [hbuild] at h
    cases h
  · rw [hbuild] at h ⊢
    cases h
    exact ⟨rfl, hsettled, hafter⟩

theorem eq_ofTypes_of_build {descriptor : Descriptor} {signature : Signature}
    (hvalid : arena.Valid) (hloader : arena.definingLoader view.accessing = .ok (some loader))
    (hissued : Issued arena view.references)
    (h : (Signature.build view descriptor arena system).answer = .ok signature) :
    signature = .ofTypes descriptor view.accessing
      (Signature.build view descriptor arena system).arena signature.parameters
      signature.result := by
  obtain ⟨after, -, hbuild⟩ := build_plain_spec system descriptor hvalid hloader hissued
  rcases hbuild with ⟨failure, last, -, hbuild⟩ | ⟨parameters, result, last, -, hbuild⟩
  · rw [hbuild] at h
    cases h
  · rw [hbuild] at h ⊢
    cases h
    rfl

theorem build_of_settle {descriptor : Descriptor} {parameters : List TypeIndex}
    {result : TypeIndex} {last : Arena} (hvalid : arena.Valid)
    (hloader : arena.definingLoader view.accessing = .ok (some loader))
    (hissued : Issued arena view.references)
    (h : system.settle view loader descriptor.bare arena = (.ok (parameters ++ [result]), last)) :
    (Signature.build view descriptor arena system).answer =
        .ok (.ofTypes descriptor view.accessing last parameters result) ∧
      (Signature.build view descriptor arena system).arena = last := by
  obtain ⟨after, -, hbuild⟩ := build_plain_spec system descriptor hvalid hloader hissued
  rcases hbuild with ⟨failure, failed, hfailed, -⟩ | ⟨parameters', result', final, hsettled, hbuild⟩
  · rw [h] at hfailed
    cases hfailed
  · rw [h] at hsettled
    simp only [Prod.mk.injEq, Except.ok.injEq] at hsettled
    obtain ⟨htypes, rfl⟩ := hsettled
    obtain ⟨rfl, hresult⟩ := List.append_inj' htypes rfl
    rw [hbuild, List.singleton_inj.mp hresult]
    exact ⟨rfl, rfl⟩

end LoaderSystem
end MethodLinkage
