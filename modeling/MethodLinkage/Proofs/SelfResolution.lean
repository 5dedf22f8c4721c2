import MethodLinkage.Proofs.DelegationChains
import MethodLinkage.Proofs.ScannedElements

/-!
# Types that resolve to themselves

A type that a name resolves to has a descriptor, and the type itself, asked for what
stands in that descriptor, gives itself again. Its defining loader is the one that
had the class, which stands on the chain that was searched. The loaders above that
one did not have the class before and do not have it now, so the search from there
ends where the first one did; arrays have the loader of their innermost element.
-/

namespace MethodLinkage

theorem Scanner.exists_type_of_scans {text name : Text} {kinds : List (ElementKind × Bool)}
    {isReturn : Bool} (h : Scans text kinds) (hname : (.reference name, isReturn) ∈ kinds) :
    ∃ type, (Element.field type).kind.name? = some name := by
  obtain ⟨scanner, elements, -, -, -, hkinds⟩ := h
  rw [← hkinds] at hname
  obtain ⟨⟨element, _⟩, -, heq⟩ := List.mem_map.mp hname
  have hkind : element.kind = .reference name := congrArg Prod.fst heq
  cases element with
  | void => cases hkind
  | field type => exact ⟨type, by rw [hkind]; rfl⟩

namespace LoaderSystem

variable {system : LoaderSystem} {arena : Arena} {view : Viewpoint}
  {initiating definer : LoaderIndex} {name : Text} {type : FieldType} {id : TypeIndex}

/-- The loader at which a search ends would end it in the same way if the search began there. -/
theorem IsRooted.sight_of_definer {info : FoundClass} (h : system.IsRooted)
    (hsight : system.sight initiating name = .ok (some (info, definer))) :
    system.sight definer name = .ok (some (info, definer)) ∧
      ∃ chain, system.Delegates initiating chain ∧ definer ∈ chain := by
  rw [sight] at hsight
  split at hsight
  · cases hsight
  · next chain hchain =>
    obtain ⟨above, below, hsplit, habove, hanswer⟩ := verdict_eq_found_iff.mp hsight
    obtain ⟨hparts, hown⟩ := h.chain?_of_reverse hchain hsplit
    refine ⟨?_, chain, (h.delegates hchain).1, by simp [hparts]⟩
    rw [sight, hown]
    apply verdict_eq_found_iff.mpr
    exact ⟨above, [], by simp, habove, hanswer⟩

theorem IsRooted.sightType_of_definer {element : Ty} {chain : List LoaderIndex}
    (h : system.IsRooted) (hchain : system.chain? initiating = some chain)
    (hname : (Element.field type).kind.name? = some name)
    (hsight : system.sightType initiating type = .ok (.built type.dimensions element))
    (hloaded : element.isLoaded = true) :
    ∃ definer, Arena.elementLoader type.dimensions element = some definer ∧
      definer ∈ chain ∧
      system.sightType definer type = .ok (.built type.dimensions element) := by
  have hdelegates := (h.delegates hchain).1
  cases hbase : type.base with
  | primitive base =>
    rw [Element.name?_of_primitive hbase] at hname
    simp only [sightType, hbase] at hsight ⊢
    cases hsight
    refine ⟨.bootstrap, ?_, hdelegates.bootstrap_mem, rfl⟩
    cases hdimensions : type.dimensions with
    | zero => simp [hdimensions] at hname
    | succ n => rfl
  | object className =>
    simp only [sightType, hbase] at hsight ⊢
    cases hfound : system.sight initiating className.text with
    | error error => simp [hfound] at hsight
    | ok found =>
      cases found with
      | none =>
        -- a class that is not found is not loaded
        simp only [hfound, Except.ok.injEq, Arena.Placement.built.injEq] at hsight
        rw [← hsight.2] at hloaded
        cases hloaded
      | some found =>
        obtain ⟨info, definer⟩ := found
        simp only [hfound, Except.ok.injEq, Arena.Placement.built.injEq, true_and] at hsight
        obtain ⟨hagain, _, hother, hmem⟩ := h.sight_of_definer hfound
        rw [hother.unique hdelegates] at hmem
        subst hsight
        refine ⟨definer, ?_, hmem, by rw [hagain]⟩
        cases type.dimensions <;> rfl

theorem exists_element_of_resolve (hvalid : arena.Valid)
    (hloader : arena.definingLoader view.accessing = .ok (some initiating))
    (hname : (Element.field type).kind.name? = some name)
    (hentry : view.references.lookup name = none)
    (hfound : (system.resolve arena view name).answer = .ok (.found id)) :
    ∃ element, system.sightType initiating type = .ok (.built type.dimensions element) ∧
      element.isLoaded = true ∧
      arena.internOver type.dimensions element =
        (.ok id, (system.resolve arena view name).arena) := by
  obtain ⟨after, -, hresolve⟩ := resolve_of_sightType system hvalid hloader hname hentry
  rw [hresolve] at hfound ⊢
  cases hbase : type.base with
  | primitive base =>
    simp only [sightType, hbase] at hfound ⊢
    exact ⟨_, rfl, rfl, Prod.ext (id_of_found hfound) rfl⟩
  | object className =>
    simp only [sightType, hbase] at hfound ⊢
    rcases hsight : system.sight initiating className.text with error | _ | ⟨info, definer⟩
    · simp [hsight, Outcome.error] at hfound
    · simp [hsight, Ty.isLoaded, Outcome.ok] at hfound
    · simp only [hsight] at hfound ⊢
      exact ⟨_, rfl, rfl, Prod.ext (id_of_found hfound) rfl⟩

theorem resolve_of_unfolds {element : Ty} (hvalid : arena.Valid)
    (hloader : arena.definingLoader view.accessing = .ok (some definer))
    (hname : (Element.field type).kind.name? = some name)
    (hentry : view.references.lookup name = none)
    (hsight : system.sightType definer type = .ok (.built type.dimensions element))
    (hloaded : element.isLoaded = true)
    (hunfolds : arena.Unfolds id type.dimensions element) :
    (system.resolve arena view name).answer = .ok (.found id) ∧
      (system.resolve arena view name).arena = arena := by
  obtain ⟨after, -, hresolve⟩ := resolve_of_sightType system hvalid hloader hname hentry
  rw [hresolve, hsight]
  dsimp only
  rw [if_pos hloaded, Arena.internOver_of_unfolds hvalid hunfolds]
  exact ⟨rfl, rfl⟩

/-- A type that a scanned name resolves to has its defining loader on the chain that was searched.
Its descriptor is scanned as the one parameter of a method, and resolving that on behalf of the
type itself, then or later, gives the type again and interns nothing. -/
theorem found_type_resolves_to_itself (harena : arena.Reached) (hsystem : system.Reached)
    {accessing : TypeIndex}
    (hloader : arena.definingLoader accessing = .ok (some initiating))
    {loader : Loader} (hregistered : system.loader? initiating = some loader)
    {text : Text} {kinds : List (ElementKind × Bool)} (hscans : Scanner.Scans text kinds)
    {isReturn : Bool} (hname : (.reference name, isReturn) ∈ kinds)
    (hfound : (system.resolve arena ⟨accessing, []⟩ name).answer = .ok (.found id)) :
    let outcome := system.resolve arena ⟨accessing, []⟩ name
    ∃ definer chain own parameter, outcome.arena.definingLoader id = .ok (some definer) ∧
      system.Delegates initiating chain ∧ definer ∈ chain ∧
      outcome.arena.descriptor id = .ok own ∧
      (Descriptor.ofText? ('(' :: own ++ [')', 'V'])).isSome ∧
      Scanner.Scans ('(' :: own ++ [')', 'V']) [(.reference parameter, false), (.void, true)] ∧
      ∀ later after, Lookups outcome.left (later, after) →
        (after.resolve later ⟨id, []⟩ parameter).answer = .ok (.found id) ∧
          (after.resolve later ⟨id, []⟩ parameter).arena = later := by
  intro outcome
  obtain ⟨type, htype⟩ := Scanner.exists_type_of_scans hscans hname
  have hchain : system.chain? initiating = some (initiating :: loader.ancestors) := by
    rw [chain?, hregistered]
    rfl
  obtain ⟨element, hsight, hloaded, hintern⟩ :=
    exists_element_of_resolve harena.valid hloader htype rfl hfound
  obtain ⟨definer, hdefiner, hmem, hagain⟩ :=
    hsystem.isRooted.sightType_of_definer hchain htype hsight hloaded
  have hunfolds : outcome.arena.Unfolds id type.dimensions element := by
    have h := Arena.unfolds_internOver (sightType_ne_array hsight) (congrArg Prod.fst hintern)
    rwa [hintern] at h
  have hown : outcome.arena.descriptor id = .ok type.text :=
    descriptor_of_sightType hsystem.isFaithful hsight hunfolds
  have htext : '(' :: type.text ++ [')', 'V'] = Descriptor.text ⟨[type], .void⟩ := by
    simp [Descriptor.text, Descriptor.parameterText, Element.text]
  have hscans' := Scanner.scans_text ⟨[type], .void⟩
  refine ⟨definer, _, type.text, name, ?_, (hsystem.isRooted.delegates hchain).1, hmem, hown, ?_,
    ?_, ?_⟩
  · rw [Arena.definingLoader_of_unfolds hunfolds, hdefiner]
  · rw [htext, Descriptor.ofText?_text]
    rfl
  · rw [htext]
    simp only [Descriptor.placedKinds, Descriptor.parameterKinds, List.map_cons, List.map_nil,
      Element.kind_of_name? htype] at hscans'
    exact hscans'
  · intro later after hlookups
    have hall : Lookups (arena, system) (later, after) :=
      (resolve_lookups system arena _ name).trans hlookups
    have hlater : later.Unfolds id type.dimensions element := hunfolds.mono hlookups.types_prefix
    have hlast : after.sightType definer type = .ok (.built type.dimensions element) := by
      rw [sightType_congr hall.sameAnswers, hagain]
    apply resolve_of_unfolds (hall.valid harena.valid) _ htype rfl hlast hloaded hlater
    rw [Arena.definingLoader_of_unfolds hlater, hdefiner]

theorem array_from_above_resolves_to_itself :
    let outcome := Workspace.siblings.system.resolve Workspace.siblings.session.arena ⟨⟨10⟩, []⟩
      ['[', 'L', 'p', '/', 'A', ';']
    outcome.answer = .ok (.found ⟨13⟩) ∧
      ∃ definer chain own parameter, outcome.arena.definingLoader ⟨13⟩ = .ok (some definer) ∧
        Workspace.siblings.system.Delegates ⟨2⟩ chain ∧ definer ∈ chain ∧
        Scanner.Scans ('(' :: own ++ [')', 'V']) [(.reference parameter, false), (.void, true)] ∧
        (outcome.resolver.resolve outcome.arena ⟨⟨13⟩, []⟩ parameter).answer =
          .ok (.found ⟨13⟩) := by
  intro outcome
  have hfound : outcome.answer = .ok (.found ⟨13⟩) := rfl
  have hscans := Scanner.scans_text Workspace.mixed
  have hname : (.reference ['[', 'L', 'p', '/', 'A', ';'], false) ∈
      Descriptor.placedKinds Workspace.mixed.parameterKinds Workspace.mixed.result.kind := by
    decide
  obtain ⟨definer, chain, own, parameter, hdefiner, hdelegates, hmem, -, -, hparameter, hagain⟩ :=
    found_type_resolves_to_itself ⟨_, Workspace.siblings_reached, rfl⟩
      ⟨_, Workspace.siblings_reached, rfl⟩ rfl rfl hscans hname hfound
  exact ⟨hfound, definer, chain, own, parameter, hdefiner, hdelegates, hmem, hparameter,
    (hagain _ _ .refl).1⟩

end LoaderSystem
end MethodLinkage
