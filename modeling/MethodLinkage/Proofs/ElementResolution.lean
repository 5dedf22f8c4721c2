import MethodLinkage.Proofs.ArenaUnfolding
import MethodLinkage.Proofs.ParentFirstSearch
import MethodLinkage.Resolution.Recorded
import MethodLinkage.Signature

/-!
# What elements resolve to

An element is placed in an arena at the number that the table has for its name, or
over the element type that the search from the accessing loader ends at: a class
and its arrays, primitives and their arrays without any search, and a placeholder
where no loader has the class. Names of array types are taken apart again by the
resolver, and come out as they went into the descriptor.
-/

namespace MethodLinkage

def ElementKind.name? : ElementKind → Option Text
  | .reference name => some name
  | _ => none

def FieldType.referenceName (type : FieldType) : Text :=
  match type.base with
  | .object name => if type.dimensions = 0 then name.text else type.text
  | .primitive _ => type.text

variable {name : Text} {type : FieldType} {base : Primitive} {className : ClassName}

theorem Element.name?_of_object (h : type.base = .object className) :
    (Element.field type).kind.name? = some type.referenceName := by
  obtain ⟨_ | n, _, hle⟩ := type
  · subst h
    simp [kind, ElementKind.name?, FieldType.referenceName]
  · subst h
    simp [kind, ElementKind.name?, FieldType.referenceName]

theorem Element.name?_of_primitive (h : type.base = .primitive base) :
    (Element.field type).kind.name? = if type.dimensions = 0 then none else some type.text := by
  obtain ⟨_ | n, _, hle⟩ := type
  · subst h
    simp [kind, ElementKind.name?]
  · subst h
    simp [kind, ElementKind.name?]

def Element.dimensions : Element → Nat
  | .field type => type.dimensions
  | .void => 0

theorem Element.dimensions_lt_length_text (element : Element) :
    element.dimensions < element.text.length := by
  cases element with
  | void => exact Nat.zero_lt_one
  | field type =>
    obtain ⟨c, more, hbase, -⟩ := type.base.exists_text_eq_cons
    rw [dimensions, text, FieldType.text, List.length_append, List.length_replicate, hbase,
      List.length_cons]
    omega

theorem FieldType.zero_le_dimensions : 0 ≤ 255 := by decide

def FieldType.ofClass (className : ClassName) : FieldType :=
  ⟨0, .object className, zero_le_dimensions⟩

theorem Element.name?_ofClass (className : ClassName) :
    (Element.field (.ofClass className)).kind.name? = some className.text := rfl

theorem Element.name?_of_dimensions (h : type.dimensions ≠ 0) :
    (Element.field type).kind.name? = some type.text := by
  cases hbase : type.base with
  | primitive base => rw [name?_of_primitive hbase, if_neg h]
  | object className =>
    rw [name?_of_object hbase, FieldType.referenceName, hbase]
    exact congrArg some (if_neg h)

theorem Element.kind_of_name? {element : Element} (h : element.kind.name? = some name) :
    element.kind = .reference name := by
  cases hkind : element.kind with
  | reference other =>
    rw [hkind] at h
    rw [Option.some.inj h]
  | primitive | void =>
    rw [hkind] at h
    cases h

theorem Element.kind_of_name?_none (h : (Element.field type).kind.name? = none) :
    ∃ base, type.dimensions = 0 ∧ type.base = .primitive base ∧
      (Element.field type).kind = .primitive base := by
  cases hbase : type.base with
  | object className =>
    rw [name?_of_object hbase] at h
    cases h
  | primitive base =>
    rw [name?_of_primitive hbase] at h
    split at h
    · next hzero =>
      obtain ⟨_, _, _⟩ := type
      cases hzero
      cases hbase
      exact ⟨base, rfl, rfl, rfl⟩
    · cases h

namespace LoaderSystem

variable {system : LoaderSystem} {arena : Arena} {view : Viewpoint} {loader : LoaderIndex}

theorem ofName_text (type : FieldType) (h : type.dimensions ≠ 0) :
    Target.ofName type.text = (type.dimensions, Target.ofArrayElement type.base.text) := by
  obtain ⟨n, base, hle⟩ := type
  obtain ⟨m, rfl⟩ := Nat.exists_eq_succ_of_ne_zero h
  obtain ⟨hbrackets, hbase⟩ := FieldType.span_brackets m.succ base []
  simp only [List.append_nil] at hbrackets hbase
  simp only [Target.ofName, FieldType.text, hbrackets, hbase, List.length_replicate]

theorem ofArrayElement_object (className : ClassName) :
    Target.ofArrayElement (BaseType.object className).text = .classNamed className.text := by
  rw [BaseType.text, List.cons_append]
  cases hname : className.text with
  | nil => rfl
  | cons c rest =>
    have hlast : (c :: (rest ++ [';'])).getLast? = some ';' :=
      List.getLast?_append_of_ne_nil (c :: rest) (List.cons_ne_nil ';' [])
    have hinit : (c :: (rest ++ [';'])).dropLast = c :: rest :=
      @List.dropLast_concat _ (c :: rest) ';'
    exact (if_pos hlast).trans (congrArg Target.classNamed hinit)

theorem ofName_of_object (h : type.base = .object className) :
    Target.ofName type.referenceName = (type.dimensions, .classNamed className.text) := by
  rw [FieldType.referenceName, h]
  dsimp only
  split
  · next hzero =>
    have hclean : className.text.takeWhile (· = '[') = [] := by
      cases hname : className.text with
      | nil => rfl
      | cons c rest =>
        have hc := (className.clean (hname ▸ List.mem_cons_self : c ∈ className.text)).2.2
        simp [hc]
    simp [Target.ofName, hclean, hzero]
  · next hne => rw [ofName_text type hne, h, ofArrayElement_object]

theorem ofName_of_primitive (h : type.base = .primitive base) (hne : type.dimensions ≠ 0) :
    Target.ofName type.text = (type.dimensions, .single base.letter) := by
  rw [ofName_text type hne, h]
  cases base <;> rfl

theorem ofName_of_name? (h : (Element.field type).kind.name? = some name) :
    (Target.ofName name).1 = type.dimensions := by
  cases hbase : type.base with
  | primitive base =>
    rw [Element.name?_of_primitive hbase] at h
    split at h
    · cases h
    · next hne =>
      rw [← Option.some.inj h, ofName_of_primitive hbase hne]
  | object className =>
    rw [Element.name?_of_object hbase] at h
    rw [← Option.some.inj h, ofName_of_object hbase]

theorem accessingLoader_of_definingLoader {accessing : TypeIndex}
    (h : arena.definingLoader accessing = .ok (some loader)) :
    arena.accessingLoader accessing = .ok loader := by
  rw [Arena.accessingLoader, h]

theorem definingLoader_of_accessingLoader {accessing : TypeIndex} {loader : LoaderIndex}
    (h : arena.accessingLoader accessing = .ok loader) :
    arena.definingLoader accessing = .ok (some loader) := by
  rw [Arena.accessingLoader] at h
  split at h
  · cases h
  · cases h
  · next heq => rw [heq, Except.ok.inj h]

theorem definingLoader_of_resolve {resolution : Resolution}
    (hentry : view.references.lookup name = none)
    (h : (system.resolve arena view name).answer = .ok resolution) :
    ∃ initiating, arena.definingLoader view.accessing = .ok (some initiating) := by
  rw [resolve, hentry, Arena.accessingLoader] at h
  rcases hloader : arena.definingLoader view.accessing with fault | _ | initiating
  · simp [hloader, Outcome.fault] at h
  · simp [hloader, Outcome.fault] at h
  · exact ⟨initiating, rfl⟩

end LoaderSystem

namespace Arena

variable {arena : Arena}

theorem arrayOver_intern {element : Ty} {id : TypeIndex} (dimensions : Nat)
    (h : element.isArrayElement = true) (hid : (arena.intern element).1 = .ok id) :
    (arena.intern element).2.arrayOver id dimensions = arena.internOver dimensions element := by
  rw [arrayOver_of_element (get?_intern hid) h, internOver, ← hid]

theorem intern_andThen_arrayOver (arena : Arena) {element : Ty} (dimensions : Nat)
    (h : element.isArrayElement = true) :
    ((arena.intern element).andThen fun id larger => larger.arrayOver id dimensions) =
      arena.internOver dimensions element := by
  cases hinterned : (arena.intern element).1 with
  | error fault =>
    rw [internOver, Interned.arrays_of_error hinterned, Interned.andThen_of_error hinterned]
  | ok id => rw [Interned.andThen_of_ok hinterned, arrayOver_intern dimensions h hinterned]

theorem arrayOver_ofPrimitive (hvalid : arena.Valid) (dimensions : Nat) (base : Primitive) :
    arena.arrayOver (.ofPrimitive base) dimensions =
      arena.internOver dimensions (.primitive base) := by
  have hbase := intern_of_get? hvalid (hvalid.get?_ofPrimitive base)
  rw [arrayOver_of_element (hvalid.get?_ofPrimitive base) rfl, internOver, hbase]

/-- Where an element goes: a number that is known, or over an element type. -/
inductive Placement where
  | known (id : TypeIndex)
  | built (dimensions : Nat) (element : Ty)

def Placement.typeCount : Placement → Nat
  | .known _ => 0
  | .built dimensions _ => dimensions + 1

def place (arena : Arena) : Placement → Interned
  | .known id => (.ok id, arena)
  | .built dimensions element => arena.internOver dimensions element

theorem types_prefix_place (arena : Arena) (placement : Placement) :
    arena.types <+: (arena.place placement).2.types := by
  cases placement with
  | known id => exact List.prefix_refl _
  | built dimensions element => exact arena.types_prefix_internOver dimensions element

theorem Valid.place (hvalid : arena.Valid) (placement : Placement) :
    (arena.place placement).2.Valid := by
  cases placement with
  | known id => exact hvalid
  | built dimensions element => exact hvalid.internOver dimensions element

theorem size_place_le (arena : Arena) (placement : Placement) :
    (arena.place placement).2.size ≤ arena.size + placement.typeCount := by
  cases placement with
  | known id => exact Nat.le_refl _
  | built dimensions element => exact arena.size_internOver_le dimensions element

theorem ok_or_runsOut_place (arena : Arena) (placement : Placement) :
    (∃ id, (arena.place placement).1 = .ok id) ∨
      arena.RunsOut placement.typeCount .arenaFull (arena.place placement) := by
  cases placement with
  | known id => exact .inl ⟨id, rfl⟩
  | built dimensions element => exact arena.ok_or_runsOut_internOver dimensions element

end Arena

theorem Outcome.found_andThen {ρ : Type} {next : Resolution → Arena → ρ → Outcome ρ TypeIndex}
    (h : ∀ id arena resolver, next (.found id) arena resolver = .ok id arena resolver)
    (result : Interned) (resolver : ρ) :
    ((ofArena result resolver).map .found).andThen next = ofArena result resolver := by
  obtain ⟨_ | id, arena⟩ := result
  · rfl
  · exact h id arena resolver

namespace LoaderSystem

open Arena (Placement)

variable {system after : LoaderSystem} {arena : Arena} {view : Viewpoint} {loader : LoaderIndex}

/-- What a field type that the table does not have stands for from a loader. -/
def sightType (system : LoaderSystem) (loader : LoaderIndex) (type : FieldType) :
    Except ResolverError Placement :=
  match type.base with
  | .primitive base => .ok (.built type.dimensions (.primitive base))
  | .object className =>
    match system.sight loader className.text with
    | .error error => .error error
    | .ok none => .ok (.built 0 (.placeholder type.referenceName loader))
    | .ok (some (info, definer)) => .ok (.built type.dimensions (.loadedClass info.name definer))

def placement (system : LoaderSystem) (view : Viewpoint) (loader : LoaderIndex) :
    Element → Except ResolverError Placement
  | .void => .ok (.built 0 .void)
  | .field type =>
    match (Element.field type).kind.name?.bind (view.references.lookup ·) with
    | some id => .ok (.known id)
    | none => system.sightType loader type

theorem sightType_of_built {type : FieldType} {dimensions : Nat} {element : Ty}
    (h : system.placement view loader (.field type) = .ok (.built dimensions element)) :
    system.sightType loader type = .ok (.built dimensions element) := by
  rw [placement] at h
  split at h
  · cases h
  · exact h

theorem sightType_eq_error_iff {type : FieldType} {error : ResolverError} :
    system.sightType loader type = .error error ↔
      ∃ className, type.base = .object className ∧
        system.sight loader className.text = .error error := by
  rw [sightType]
  cases hbase : type.base with
  | primitive base => simp
  | object className =>
    dsimp only
    cases hsight : system.sight loader className.text with
    | error cause => simp [hsight]
    | ok found => cases found <;> simp [hsight]

theorem sightType_congr_of_sight {other : LoaderSystem} {type : FieldType}
    (h : ∀ name, other.sight loader name = system.sight loader name) :
    other.sightType loader type = system.sightType loader type := by
  simp only [sightType, h]

theorem sightType_congr (h : SameAnswers system after) (loader : LoaderIndex) (type : FieldType) :
    after.sightType loader type = system.sightType loader type :=
  sightType_congr_of_sight fun name => sight_congr h loader name

theorem placement_congr (h : SameAnswers system after) (view : Viewpoint) (loader : LoaderIndex)
    (element : Element) :
    after.placement view loader element = system.placement view loader element := by
  cases element with
  | void => rfl
  | field type => simp only [placement, sightType_congr h]

theorem resolve_of_primitive (system : LoaderSystem) {base : Primitive} (hvalid : arena.Valid)
    (hloader : arena.definingLoader view.accessing = .ok (some loader))
    (hname : (Element.field type).kind.name? = some name)
    (hentry : view.references.lookup name = none) (hbase : type.base = .primitive base) :
    system.resolve arena view name =
      (Outcome.ofArena (arena.internOver type.dimensions (.primitive base)) system).map
        .found := by
  rw [Element.name?_of_primitive hbase] at hname
  split at hname
  · cases hname
  · next hne =>
    cases hname
    rw [resolve, hentry, accessingLoader_of_definingLoader hloader, ofName_of_primitive hbase hne]
    simp only [element, Primitive.ofLetter?_letter, Option.map_some, Outcome.andThen_ok,
      Arena.arrayOver_ofPrimitive hvalid]

theorem resolve_of_object (system : LoaderSystem) {className : ClassName}
    (hloader : arena.definingLoader view.accessing = .ok (some loader))
    (hname : (Element.field type).kind.name? = some name)
    (hentry : view.references.lookup name = none) (hbase : type.base = .object className) :
    system.resolve arena view name =
      (system.load arena loader className.text).andThen fun element arena system =>
        match element with
        | none => .ok (.missing name) arena system
        | some id => (Outcome.ofArena (arena.arrayOver id type.dimensions) system).map .found := by
  rw [Element.name?_of_object hbase] at hname
  cases hname
  rw [resolve, hentry, accessingLoader_of_definingLoader hloader, ofName_of_object hbase]
  rfl

theorem arrays_of_loaded {element : Ty} {dimensions : Nat} (h : element.isArrayElement = true)
    {next : Option TypeIndex → Arena → LoaderSystem → Outcome LoaderSystem Resolution}
    (hnext : ∀ id arena system, next (some id) arena system =
      (Outcome.ofArena (arena.arrayOver id dimensions) system).map .found)
    (arena : Arena) (system : LoaderSystem) :
    ((Outcome.ofArena (arena.intern element) system).map some).andThen next =
      (Outcome.ofArena (arena.internOver dimensions element) system).map .found := by
  cases hinterned : (arena.intern element).1 with
  | error fault =>
    rw [Arena.internOver, Interned.arrays_of_error hinterned, Outcome.ofArena, hinterned]
    rfl
  | ok id =>
    rw [← Arena.arrayOver_intern dimensions h hinterned, ← hnext, Outcome.ofArena, hinterned]
    rfl

theorem id_of_found {interned : Interned} {id : TypeIndex}
    (h : ((Outcome.ofArena interned after).map Resolution.found).answer = .ok (.found id)) :
    interned.1 = .ok id := by
  obtain ⟨_ | found, arena⟩ := interned
  · cases h
  · cases h
    rfl

/-- Resolving a scanned name: the table answers first, primitives need no search, and a
class is searched parent first. -/
theorem resolve_spec (system : LoaderSystem) (hvalid : arena.Valid)
    (hloader : arena.definingLoader view.accessing = .ok (some loader))
    (hname : (Element.field type).kind.name? = some name) :
    ∃ after, SameAnswers system after ∧
      system.resolve arena view name =
        match view.references.lookup name with
        | some id => .ok (.found id) arena after
        | none =>
          match type.base with
          | .primitive base =>
            (Outcome.ofArena (arena.internOver type.dimensions (.primitive base)) after).map
              .found
          | .object className =>
            match system.sight loader className.text with
            | .error error => .error error arena after
            | .ok none => .ok (.missing name) arena after
            | .ok (some (info, definer)) =>
              (Outcome.ofArena
                (arena.internOver type.dimensions (.loadedClass info.name definer)) after).map
                  .found := by
  cases hentry : view.references.lookup name with
  | some id => exact ⟨system, .refl _, by rw [resolve, hentry]⟩
  | none =>
    cases hbase : type.base with
    | primitive base =>
      exact ⟨system, .refl _, resolve_of_primitive system hvalid hloader hname hentry hbase⟩
    | object className =>
      obtain ⟨after, hsame, hload⟩ := load_spec system arena loader className.text
      refine ⟨after, hsame, ?_⟩
      rw [resolve_of_object system hloader hname hentry hbase, hload]
      dsimp only
      cases hsight : system.sight loader className.text with
      | error error => rfl
      | ok found =>
        cases found with
        | none => rfl
        | some found =>
          exact arrays_of_loaded rfl (fun _ _ _ => rfl) arena after

theorem resolve_of_sightType (system : LoaderSystem) (hvalid : arena.Valid)
    (hloader : arena.definingLoader view.accessing = .ok (some loader))
    (hname : (Element.field type).kind.name? = some name)
    (hentry : view.references.lookup name = none) :
    ∃ after, SameAnswers system after ∧
      system.resolve arena view name =
        match system.sightType loader type with
        | .error error => .error error arena after
        | .ok (.known id) => .ok (.found id) arena after
        | .ok (.built dimensions element) =>
          if element.isLoaded then
            (Outcome.ofArena (arena.internOver dimensions element) after).map .found
          else .ok (.missing name) arena after := by
  obtain ⟨after, hsame, hresolve⟩ := resolve_spec system hvalid hloader hname
  refine ⟨after, hsame, ?_⟩
  rw [hresolve, hentry, sightType]
  cases type.base with
  | primitive base => rfl
  | object className =>
    dsimp only
    rcases system.sight loader className.text with error | _ | ⟨info, definer⟩ <;> rfl

def placeElement (system : LoaderSystem) (view : Viewpoint) (loader : LoaderIndex)
    (element : Element) (arena : Arena) : Except Failure TypeIndex × Arena :=
  match system.placement view loader element with
  | .error error => (.error (.error error), arena)
  | .ok placement => ((arena.place placement).1.mapError .fault, (arena.place placement).2)

theorem placeElement_congr (h : SameAnswers system after) (view : Viewpoint)
    (loader : LoaderIndex) (element : Element) (arena : Arena) :
    after.placeElement view loader element arena =
      system.placeElement view loader element arena := by
  rw [placeElement, placeElement, placement_congr h]

theorem placeElement_of_ok {element : Element} {placement : Placement} {id : TypeIndex}
    {last : Arena} (h : system.placement view loader element = .ok placement)
    (hplace : arena.place placement = (.ok id, last)) :
    system.placeElement view loader element arena = (.ok id, last) := by
  rw [placeElement, h]
  dsimp only
  rw [hplace]
  rfl

theorem placeElement_of_error {element : Element} {error : ResolverError}
    (h : system.placement view loader element = .error error) (arena : Arena) :
    system.placeElement view loader element arena = (.error (.error error), arena) := by
  rw [placeElement, h]

theorem placement_of_placeElement_error {element : Element} {error : ResolverError} {last : Arena}
    (h : system.placeElement view loader element arena = (.error (.error error), last)) :
    system.placement view loader element = .error error := by
  rw [placeElement] at h
  cases hplacement : system.placement view loader element with
  | error cause =>
    rw [hplacement] at h
    cases h
    rfl
  | ok placement =>
    rw [hplacement] at h
    dsimp only at h
    generalize arena.place placement = placed at h
    obtain ⟨_ | id, larger⟩ := placed <;> cases h

theorem exists_of_placeElement {element : Element} {id : TypeIndex} {last : Arena}
    (h : system.placeElement view loader element arena = (.ok id, last)) :
    ∃ placement, system.placement view loader element = .ok placement ∧
      arena.place placement = (.ok id, last) := by
  rw [placeElement] at h
  cases hplacement : system.placement view loader element with
  | error error =>
    rw [hplacement] at h
    cases h
  | ok placement =>
    rw [hplacement] at h
    refine ⟨placement, rfl, ?_⟩
    dsimp only at h
    generalize arena.place placement = placed at h
    obtain ⟨_ | placed, larger⟩ := placed
    · cases h
    · cases h
      rfl

/-- Resolving an element places it, and nothing else comes of it. -/
theorem resolveElement_spec (system : LoaderSystem) (asked : List Text) (hvalid : arena.Valid)
    (hloader : arena.definingLoader view.accessing = .ok (some loader)) (element : Element) :
    ∃ after, SameAnswers system after ∧
      resolveElement view loader element arena (⟨system, asked⟩ : Recorded LoaderSystem) =
        ⟨(system.placeElement view loader element arena).1,
          (system.placeElement view loader element arena).2,
          ⟨after, asked ++ element.kind.name?.toList⟩⟩ := by
  cases element with
  | void =>
    refine ⟨system, .refl _, ?_⟩
    have hvoid := Arena.internOver_of_unfolds hvalid hvalid.unfolds_void
    simp [resolveElement, Element.kind, ElementKind.name?, placeElement, placement, Arena.place,
      hvoid, Outcome.ok, Except.mapError]
  | field type =>
    cases hname : (Element.field type).kind.name? with
    | none =>
      obtain ⟨base, hzero, hbase, hkind⟩ := Element.kind_of_name?_none hname
      refine ⟨system, .refl _, ?_⟩
      have hbound := Arena.internOver_of_unfolds hvalid (hvalid.unfolds_ofPrimitive base)
      simp [resolveElement, hkind, ElementKind.name?, placeElement, placement, sightType, hbase,
        hzero, Arena.place, hbound, Outcome.ok, Except.mapError]
    | some name =>
      obtain ⟨after, hsame, hresolve⟩ := resolve_spec system hvalid hloader hname
      refine ⟨after, hsame, ?_⟩
      have hrecorded : Resolver.resolve (⟨system, asked⟩ : Recorded LoaderSystem) arena view name =
          ⟨(system.resolve arena view name).answer, (system.resolve arena view name).arena,
            ⟨(system.resolve arena view name).resolver, asked ++ [name]⟩⟩ := rfl
      rw [resolveElement, Element.kind_of_name? hname]
      dsimp only
      rw [resolveReference, hrecorded, hresolve, placeElement, placement, hname]
      dsimp only [Option.bind_some, ElementKind.name?, Option.toList_some]
      cases view.references.lookup name with
      | some id => rfl
      | none =>
        rw [sightType]
        cases hbase : type.base with
        | primitive base => exact Outcome.found_andThen (fun _ _ _ => rfl) _ _
        | object className =>
          rw [Element.name?_of_object hbase] at hname
          obtain rfl := Option.some.inj hname
          dsimp only
          rcases system.sight loader className.text with error | _ | ⟨info, definer⟩
          · rfl
          · rfl
          · exact Outcome.found_andThen (fun _ _ _ => rfl) _ _

end LoaderSystem
end MethodLinkage
