import MethodLinkage.Proofs.BuildOutcome
import MethodLinkage.Proofs.ParentFirstResolution
import MethodLinkage.Proofs.TypeIdentity

/-!
# Isolation of loaders

What is built on behalf of a type depends on its defining loader, on that loader's
chain and on what the class paths of the chain answer. The accessing type itself,
other loaders and entries of the table under other names have no say, and loaders
off the chain are never asked. Without a table, all that is loaded on the way comes
from the chain.
-/

namespace MethodLinkage

theorem Arena.isReference_of_unfolds {arena : Arena} {id : TypeIndex} {element type : Ty}
    (h : arena.Unfolds id 0 element) (hid : arena.get? id = some type)
    (hreference : type.isReference = true) : element.isReference = true := by
  cases h with
  | element hget _ => exact Option.some.inj (hid.symm.trans hget) ▸ hreference

namespace LoaderSystem

variable {system other after : LoaderSystem} {arena : Arena} {view view' : Viewpoint}
  {loader : LoaderIndex} {chain : List LoaderIndex} {name : Text}

theorem AsksOnly.loader?_of_not_mem {id : LoaderIndex} (h : AsksOnly chain system after)
    (hid : id ∉ chain) : after.loader? id = system.loader? id := by
  induction h with
  | refl => rfl
  | tail _ hstep ih =>
    obtain ⟨asked, hasked, loader, name, hloader, rfl⟩ := hstep
    have hne : id ≠ asked := fun heq => hid (heq ▸ hasked)
    rw [loader?_ask_of_ne hloader name hne, ih]

theorem asksOnly_load (hchain : system.chain? loader = some chain) (arena : Arena) (name : Text) :
    AsksOnly chain system (system.load arena loader name).resolver := by
  have hsearch := @asksOnly_search system name chain.reverse chain fun _ => List.mem_reverse.mp
  rw [load, hchain]
  dsimp only
  split
  · next heq => rwa [heq] at hsearch
  · next heq => rwa [heq] at hsearch
  · next heq => rwa [heq] at hsearch

theorem asksOnly_resolve (hloader : arena.accessingLoader view.accessing = .ok loader)
    (hchain : system.chain? loader = some chain) (name : Text) :
    AsksOnly chain system (system.resolve arena view name).resolver := by
  rw [resolve]
  split
  · exact .refl
  · rw [hloader]
    dsimp only
    have helement : AsksOnly chain system
        (system.element arena loader name (Target.ofName name).2).resolver := by
      cases (Target.ofName name).2 with
      | classNamed className => exact asksOnly_load hchain arena className
      | single | malformed => exact .refl
    generalize system.element arena loader name (Target.ofName name).2 = outcome at helement
    obtain ⟨answer, arena, after⟩ := outcome
    rcases answer with failure | _ | id <;> exact helement

/-- Two systems in which the accessing types of two viewpoints have one loader, whose chain answers
alike in both. -/
structure SeeAlike (view view' : Viewpoint) (loader : LoaderIndex) (chain : List LoaderIndex)
    (arena : Arena) (system other : LoaderSystem) : Prop where
  loader_first : arena.definingLoader view.accessing = .ok (some loader)
  loader_second : arena.definingLoader view'.accessing = .ok (some loader)
  chain_first : system.chain? loader = some chain
  chain_second : other.chain? loader = some chain
  answers : ∀ id ∈ chain, ∀ name, other.answer? id name = system.answer? id name

namespace SeeAlike

variable {larger : Arena} {other' : LoaderSystem}

theorem mono (h : SeeAlike view view' loader chain arena system other)
    (hgrown : arena.types <+: larger.types) (hsame : SameAnswers system after)
    (hsame' : SameAnswers other other') : SeeAlike view view' loader chain larger after other' where
  loader_first := Arena.definingLoader_mono hgrown h.loader_first
  loader_second := Arena.definingLoader_mono hgrown h.loader_second
  chain_first := (hsame.chain loader).trans h.chain_first
  chain_second := (hsame'.chain loader).trans h.chain_second
  answers id hid name := by rw [hsame'.answer, hsame.answer, h.answers id hid name]

theorem resolve (h : SeeAlike view view' loader chain arena system other)
    (hentry : view'.references.lookup name = view.references.lookup name) :
    (other.resolve arena view' name).answer = (system.resolve arena view name).answer ∧
      (other.resolve arena view' name).arena = (system.resolve arena view name).arena := by
  have hfirst := accessingLoader_of_definingLoader h.loader_first
  apply resolve_congr hentry ((accessingLoader_of_definingLoader h.loader_second).trans hfirst.symm)
  intro found hfound className
  cases hfirst.symm.trans hfound
  exact sight_congr_of_chain h.chain_first h.chain_second fun id hid => h.answers id hid className

theorem corresponds {asked : Text → Prop}
    (hentries : ∀ name, asked name →
      view'.references.lookup name = view.references.lookup name) :
    Resolver.Corresponds LoaderSystem LoaderSystem view view' asked
      (SeeAlike view view' loader chain) where
  resolve {arena system other} h name hasked := by
    obtain ⟨hanswer, harena⟩ := h.resolve (hentries name hasked)
    have hlookups := resolve_lookups system arena view name
    have hlookups' := resolve_lookups other arena view' name
    refine ⟨?_, harena, h.mono hlookups.types_prefix hlookups.sameAnswers hlookups'.sameAnswers⟩
    rw [Except.map_id]
    exact hanswer
  placeholder h _ _ := h.mono (Arena.types_prefix_intern ..) (.refl _) (.refl _)

end SeeAlike

/-- Lookups in which only the chain of the accessing type's loader is asked. -/
structure AsksChain (view : Viewpoint) (before after : Arena × LoaderSystem) : Prop where
  lookups : Lookups before after
  asks : ∀ loader chain, before.1.accessingLoader view.accessing = .ok loader →
    before.2.chain? loader = some chain → AsksOnly chain before.2 after.2

theorem asksChain_within (view : Viewpoint) :
    Resolver.Within LoaderSystem view (AsksChain view) where
  refl _ := ⟨.refl, fun _ _ _ _ => .refl⟩
  trans {first second _} hfirst hsecond := by
    refine ⟨hfirst.lookups.trans hsecond.lookups, fun loader chain hloader hchain => ?_⟩
    -- later lookups meet the same loader with the same chain
    have hlater : second.1.accessingLoader view.accessing = .ok loader :=
      accessingLoader_of_definingLoader (Arena.definingLoader_mono hfirst.lookups.types_prefix
        (definingLoader_of_accessingLoader hloader))
    have hkept : second.2.chain? loader = some chain :=
      (hfirst.lookups.sameAnswers.chain loader).trans hchain
    exact (hfirst.asks loader chain hloader hchain).trans (hsecond.asks loader chain hlater hkept)
  resolve arena system _ name _ :=
    ⟨resolve_lookups system arena view name, fun _ _ hloader hchain =>
      asksOnly_resolve hloader hchain name⟩
  placeholder _ _ _ _ := ⟨.single (.intern trivial), fun _ _ _ _ => .refl⟩

theorem IsRooted.exists_definer_of_sightType {fieldType : FieldType} {id : TypeIndex} {type : Ty}
    {placement : Arena.Placement} (h : system.IsRooted) (hchain : system.chain? loader = some chain)
    (hsight : system.sightType loader fieldType = .ok placement)
    (hheld : arena.Holds placement id) (hid : arena.get? id = some type)
    (hreference : type.isReference = true) :
    ∃ definer ∈ chain, arena.definingLoader id = .ok (some definer) := by
  have hdelegates := (h.delegates hchain).1
  cases hbase : fieldType.base with
  | primitive base =>
    simp only [sightType, hbase, Except.ok.injEq] at hsight
    subst hsight
    have hdefiner := Arena.definingLoader_of_unfolds hheld
    cases hdimensions : fieldType.dimensions with
    | zero =>
      rw [hdimensions] at hheld
      cases Arena.isReference_of_unfolds hheld hid hreference
    | succ n =>
      rw [hdimensions] at hdefiner
      exact ⟨.bootstrap, hdelegates.bootstrap_mem, hdefiner⟩
  | object className =>
    simp only [sightType, hbase] at hsight
    rcases hfound : system.sight loader className.text with error | _ | ⟨info, definer⟩
    · simp [hfound] at hsight
    · simp only [hfound, Except.ok.injEq] at hsight
      subst hsight
      -- a class that is not found gives a placeholder, whatever the dimensions
      cases Arena.isReference_of_unfolds hheld hid hreference
    · simp only [hfound, Except.ok.injEq] at hsight
      subst hsight
      obtain ⟨-, _, hother, hmem⟩ := h.sight_of_definer hfound
      rw [hother.unique hdelegates] at hmem
      refine ⟨definer, hmem, ?_⟩
      rw [Arena.definingLoader_of_unfolds hheld]
      cases fieldType.dimensions <;> rfl

theorem IsRooted.exists_definer {element : Element} {id : TypeIndex} {type : Ty}
    {placement : Arena.Placement} (h : system.IsRooted) (hchain : system.chain? loader = some chain)
    (hempty : view.references = [])
    (hplacement : system.placement view loader element = .ok placement)
    (hheld : arena.Holds placement id) (hid : arena.get? id = some type)
    (hreference : type.isReference = true) :
    ∃ definer ∈ chain, arena.definingLoader id = .ok (some definer) := by
  cases element with
  | void =>
    cases hplacement
    cases Arena.isReference_of_unfolds hheld hid hreference
  | field fieldType =>
    have hsight : system.sightType loader fieldType = .ok placement := by
      rw [LoaderSystem.placement, hempty] at hplacement
      cases hname : (Element.field fieldType).kind.name? <;> simpa [hname] using hplacement
    exact h.exists_definer_of_sightType hchain hsight hheld hid hreference

theorem IsRooted.exists_definer_of_settle {elements : List Element} {ids : List TypeIndex}
    {last : Arena} (h : system.IsRooted) (hchain : system.chain? loader = some chain)
    (hempty : view.references = [])
    (hsettled : system.settle view loader elements arena = (.ok ids, last)) :
    ∀ id ∈ ids, ∀ type, last.get? id = some type → type.isReference = true →
      ∃ definer ∈ chain, last.definingLoader id = .ok (some definer) := by
  have hholds := settle_holds hsettled
  clear hsettled
  induction hholds with
  | nil => exact List.forall_mem_nil _
  | cons hfirst _ ih =>
    obtain ⟨placement, hplacement, hheld⟩ := hfirst
    refine List.forall_mem_cons.mpr ⟨?_, ih⟩
    intro type
    exact h.exists_definer hchain hempty hplacement hheld

end LoaderSystem

namespace Signature

variable {system other : LoaderSystem} {arena : Arena} {view view' : Viewpoint}
  {loader : LoaderIndex} {chain : List LoaderIndex}

theorem build_corresponds {descriptor : Descriptor}
    (h : LoaderSystem.SeeAlike view view' loader chain arena system other)
    (htables : ∀ name ∈ Element.names descriptor.bare,
      view'.references.lookup name = view.references.lookup name) :
    Outcome.Corresponds
      (Recorded.AskedAlike (LoaderSystem.SeeAlike view view' loader chain))
      ({ · with accessing := view'.accessing })
      (build view descriptor arena (⟨system, []⟩ : Recorded LoaderSystem))
      (build view' descriptor arena (⟨other, []⟩ : Recorded LoaderSystem)) := by
  have hasked : ∀ {element name}, element ∈ descriptor.bare → element.kind = .reference name →
      name ∈ Element.names descriptor.bare := by
    intro element name hmem hkind
    exact List.mem_filterMap.mpr ⟨element, hmem, by rw [hkind]; rfl⟩
  apply (Recorded.corresponds_recorded (LoaderSystem.SeeAlike.corresponds htables)).build
  · exact fun _ _ _ => rfl
  · rw [LoaderSystem.accessingLoader_of_definingLoader h.loader_first,
      LoaderSystem.accessingLoader_of_definingLoader h.loader_second]
  · intro type htype name hkind
    exact hasked (List.mem_append_left _ (List.mem_map_of_mem htype)) hkind
  · intro name hkind
    exact hasked (List.mem_append_right _ List.mem_cons_self) hkind
  · exact ⟨h, rfl⟩

theorem asksOnly_build (hloader : arena.definingLoader view.accessing = .ok (some loader))
    (hchain : system.chain? loader = some chain) (descriptor : Descriptor) :
    LoaderSystem.AsksOnly chain system
      (build view descriptor arena (⟨system, []⟩ : Recorded LoaderSystem)).resolver.inner := by
  have hbuild := (LoaderSystem.asksChain_within view).recorded.build descriptor arena ⟨system, []⟩
  exact hbuild.asks loader chain (LoaderSystem.accessingLoader_of_definingLoader hloader) hchain

theorem exists_definer_of_build {descriptor : Descriptor} {asked : List Text}
    {signature : Signature} (hvalid : arena.Valid) (hrooted : system.IsRooted)
    (hloader : arena.definingLoader view.accessing = .ok (some loader))
    (hchain : system.chain? loader = some chain) (hempty : view.references = [])
    (h : (build view descriptor arena (⟨system, asked⟩ : Recorded LoaderSystem)).answer =
      .ok signature) :
    ∀ id ∈ signature.types, ∀ type,
      (build view descriptor arena (⟨system, asked⟩ : Recorded LoaderSystem)).arena.get? id =
        some type →
      type.isReference = true → ∃ definer ∈ chain,
        (build view descriptor arena
          (⟨system, asked⟩ : Recorded LoaderSystem)).arena.definingLoader id =
          .ok (some definer) := by
  have hissued : LoaderSystem.Issued arena view.references := by
    rw [hempty]
    exact fun _ _ hentry => nomatch hentry
  obtain ⟨after, -, hbuild⟩ :=
    LoaderSystem.build_spec system asked descriptor hvalid hloader hissued
  rcases hbuild with ⟨error, last, -, hbuild⟩ | ⟨parameters, result, last, hsettled, hbuild⟩
  · rw [hbuild] at h
    cases h
  · rw [hbuild] at h ⊢
    cases h
    exact hrooted.exists_definer_of_settle hchain hempty hsettled

/-- What is built on behalf of two types of one loader is the same, if the loader has the same chain
in two systems, its chain answers alike, and the tables agree on the names of the descriptor. Only
the chain is asked. If the table is empty, the classes and arrays of the signature come from
there. -/
theorem only_the_chain_matters (harena : arena.Reached) (hsystem : system.Reached)
    (view view' : Viewpoint)
    (hloader : arena.definingLoader view.accessing = .ok (some loader))
    (hloader' : arena.definingLoader view'.accessing = .ok (some loader))
    (hchain : system.chain? loader = some chain) (hchain' : other.chain? loader = some chain)
    (hanswers : ∀ id ∈ chain, ∀ name, other.answer? id name = system.answer? id name)
    (descriptor : Descriptor) (htables : ∀ name ∈ Element.names descriptor.bare,
      view'.references.lookup name = view.references.lookup name) :
    let first := build view descriptor arena (⟨system, []⟩ : Recorded LoaderSystem)
    let second := build view' descriptor arena (⟨other, []⟩ : Recorded LoaderSystem)
    second.answer = first.answer.map ({ · with accessing := view'.accessing }) ∧
    second.arena = first.arena ∧ second.resolver.asked = first.resolver.asked ∧
    LoaderSystem.AsksOnly chain system first.resolver.inner ∧
    LoaderSystem.AsksOnly chain other second.resolver.inner ∧
    (∀ id, id ∉ chain → first.resolver.inner.loader? id = system.loader? id ∧
      second.resolver.inner.loader? id = other.loader? id) ∧
    (view.references = [] → ∀ signature, first.answer = .ok signature →
      ∀ id ∈ signature.types, ∀ type, first.arena.get? id = some type →
        type.isReference = true →
        ∃ definer ∈ chain, first.arena.definingLoader id = .ok (some definer)) := by
  intro first second
  have halike := build_corresponds ⟨hloader, hloader', hchain, hchain', hanswers⟩ htables
  have hasks := asksOnly_build hloader hchain descriptor
  have hasks' := asksOnly_build hloader' hchain' descriptor
  refine ⟨halike.answer, halike.arena, halike.resolver.2, hasks, hasks',
    fun id hid => ⟨hasks.loader?_of_not_mem hid, hasks'.loader?_of_not_mem hid⟩, ?_⟩
  exact fun hempty _ hbuilt =>
    exists_definer_of_build harena.valid hsystem.isRooted hloader hchain hempty hbuilt

def withChild : Workspace :=
  (Workspace.siblings.run [.intern (.loadedClass ['r'] ⟨1⟩),
    .addLoader (.place (.memory [['p', '/', 'D'], ['q']])) ⟨1⟩]).2

theorem withChild_reached : withChild.Reached := by
  apply Workspace.siblings_reached.run
  simp only [List.forall_mem_cons]
  exact ⟨trivial, .place _, List.forall_mem_nil _⟩

theorem child_goes_unnoticed :
    let first := build ⟨⟨9⟩, []⟩ Workspace.mixed withChild.session.arena
      (⟨Workspace.siblings.system, []⟩ : Recorded LoaderSystem)
    let second := build ⟨⟨12⟩, [(['z'], ⟨99⟩)]⟩ Workspace.mixed withChild.session.arena
      (⟨withChild.system, []⟩ : Recorded LoaderSystem)
    first.answer = .ok ⟨Workspace.mixed, ⟨9⟩, [⟨13⟩, ⟨15⟩, ⟨17⟩, ⟨18⟩], ⟨19⟩, 4⟩ ∧
      second.answer = .ok ⟨Workspace.mixed, ⟨12⟩, [⟨13⟩, ⟨15⟩, ⟨17⟩, ⟨18⟩], ⟨19⟩, 4⟩ ∧
      second.arena = first.arena ∧ second.resolver.asked = first.resolver.asked ∧
      second.resolver.inner.loader? ⟨3⟩ = withChild.system.loader? ⟨3⟩ ∧
      ∃ definer ∈ [⟨1⟩, .bootstrap], first.arena.definingLoader ⟨17⟩ = .ok (some definer) := by
  intro first second
  have hanswers : ∀ id ∈ [⟨1⟩, .bootstrap], ∀ name,
      withChild.system.answer? id name = Workspace.siblings.system.answer? id name := by
    simp only [List.forall_mem_cons]
    exact ⟨fun _ => rfl, fun _ => rfl, List.forall_mem_nil _⟩
  have htables : ∀ name ∈ Element.names Workspace.mixed.bare,
      [(['z'], (⟨99⟩ : TypeIndex))].lookup name = ([] : References).lookup name := by decide
  have hfirst : first.answer =
      .ok ⟨Workspace.mixed, ⟨9⟩, [⟨13⟩, ⟨15⟩, ⟨17⟩, ⟨18⟩], ⟨19⟩, 4⟩ := rfl
  obtain ⟨hanswer, harena, hasked, -, -, hothers, hdefiners⟩ := only_the_chain_matters
    ⟨_, withChild_reached, rfl⟩ ⟨_, Workspace.siblings_reached, rfl⟩ ⟨⟨9⟩, []⟩
    ⟨⟨12⟩, [(['z'], ⟨99⟩)]⟩ rfl rfl rfl rfl hanswers Workspace.mixed htables
  have hchild := (hothers ⟨3⟩ (by decide)).2
  have harray := hdefiners rfl _ hfirst ⟨17⟩ (by decide) _ rfl rfl
  exact ⟨hfirst, hanswer.trans (congrArg _ hfirst), harena, hasked, hchild, harray⟩

end Signature
end MethodLinkage
