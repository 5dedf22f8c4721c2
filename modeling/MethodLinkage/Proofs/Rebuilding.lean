import MethodLinkage.Proofs.ArenaBijection
import MethodLinkage.Proofs.BuildOutcome
import MethodLinkage.Proofs.DelegationChains
import MethodLinkage.Proofs.LazyMatching

/-!
# Building again

A signature that was built can be built again at any later time, if the class paths
still answer as they did. Each element is placed where it was, since the arena knows
what it unfolded to by that number. So nothing is interned, and the signature
matches.
-/

namespace MethodLinkage

namespace Arena

variable {arena : Arena} {placement : Placement} {id : TypeIndex}

theorem place_of_holds (hvalid : arena.Valid) (h : arena.Holds placement id) :
    arena.place placement = (.ok id, arena) := by
  cases placement with
  | known known =>
    obtain rfl : id = known := h
    rfl
  | built dimensions element => exact internOver_of_unfolds hvalid h

end Arena

namespace LoaderSystem

open Arena (Placement)

variable {system later : LoaderSystem} {arena larger : Arena} {view : Viewpoint}
  {loader : LoaderIndex} {element : Element} {placed : Placement}

/-- A loader keeps its chain, and all loaders on it answer as they did. -/
def StillSees (system later : LoaderSystem) (loader : LoaderIndex) : Prop :=
  ∀ chain, system.chain? loader = some chain → later.chain? loader = some chain ∧
    ∀ id ∈ chain, ∀ name, later.answer? id name = system.answer? id name

namespace StillSees

theorem sight {name : Text} {found : Option (FoundClass × LoaderIndex)}
    (h : system.StillSees later loader) (hfound : system.sight loader name = .ok found) :
    later.sight loader name = .ok found := by
  cases hchain : system.chain? loader with
  | none => simp [LoaderSystem.sight, hchain] at hfound
  | some chain =>
    obtain ⟨hlater, hanswers⟩ := h chain hchain
    rw [← hfound]
    apply sight_congr_of_chain hchain hlater
    intro id hid
    exact hanswers id hid name

theorem sightType {type : FieldType} (h : system.StillSees later loader)
    (hplacement : system.sightType loader type = .ok placed) :
    later.sightType loader type = .ok placed := by
  cases hbase : type.base with
  | primitive base =>
    simp only [LoaderSystem.sightType, hbase] at hplacement ⊢
    exact hplacement
  | object className =>
    simp only [LoaderSystem.sightType, hbase] at hplacement ⊢
    cases hsight : system.sight loader className.text with
    | error error => simp [hsight] at hplacement
    | ok found =>
      rw [hsight] at hplacement
      rw [h.sight hsight]
      exact hplacement

theorem placement (h : system.StillSees later loader)
    (hplacement : system.placement view loader element = .ok placed) :
    later.placement view loader element = .ok placed := by
  cases element with
  | void => exact hplacement
  | field type =>
    rw [LoaderSystem.placement] at hplacement ⊢
    split
    · next hentry =>
      rw [hentry] at hplacement
      exact hplacement
    · next hentry =>
      rw [hentry] at hplacement
      exact h.sightType hplacement

end StillSees

theorem settle_of_holds {elements : List Element} {ids : List TypeIndex} (hvalid : arena.Valid)
    (h : List.Forall₂ (fun element id => ∃ placement,
      system.placement view loader element = .ok placement ∧ arena.Holds placement id)
      elements ids) : system.settle view loader elements arena = (.ok ids, arena) := by
  induction h with
  | nil => rfl
  | cons hfirst _ ih =>
    obtain ⟨placement, hplacement, hheld⟩ := hfirst
    rw [settle_cons (placeElement_of_ok hplacement (Arena.place_of_holds hvalid hheld)), ih]
    rfl

theorem StillSees.settle_again {elements : List Element} {ids : List TypeIndex}
    (h : system.StillSees later loader) (hvalid : larger.Valid) {middle : Arena}
    (hgrown : middle.types <+: larger.types)
    (hsettled : system.settle view loader elements arena = (.ok ids, middle)) :
    later.settle view loader elements larger = (.ok ids, larger) := by
  apply settle_of_holds hvalid
  apply List.Forall₂.imp _ (settle_holds hsettled)
  rintro element id ⟨placement, hplacement, hheld⟩
  exact ⟨placement, h.placement hplacement, hheld.mono hgrown⟩

end LoaderSystem

namespace Signature

variable {system later : LoaderSystem} {arena larger : Arena} {view : Viewpoint}
  {descriptor : Descriptor} {signature : Signature}

theorem build_again {loader : LoaderIndex} (hvalid : arena.Valid)
    (hloader : arena.definingLoader view.accessing = .ok (some loader))
    (hissued : LoaderSystem.Issued arena view.references)
    (hbuilt : (build view descriptor arena system).answer = .ok signature)
    (hlarger : larger.Valid)
    (hgrown : (build view descriptor arena system).arena.types <+: larger.types)
    (hsees : system.StillSees later loader) :
    (build view descriptor larger later).answer = .ok signature ∧
      (build view descriptor larger later).arena = larger := by
  obtain ⟨-, hsettled, -⟩ := LoaderSystem.settle_of_build hvalid hloader hissued hbuilt
  have hsame := LoaderSystem.eq_ofTypes_of_build hvalid hloader hissued hbuilt
  have hall := (LoaderSystem.types_prefix_of_settle hsettled).trans hgrown
  have hagain := hsees.settle_again hlarger hgrown hsettled
  obtain ⟨hanswer, harena⟩ := LoaderSystem.build_of_settle hlarger
    (Arena.definingLoader_mono hall hloader) (hissued.mono hall) hagain
  refine ⟨?_, harena⟩
  -- the slots were counted in a smaller arena, which had the parameters already
  have hparameters := (isFilled_of_build LoaderSystem.grows hbuilt).issued
  rw [hanswer, ofTypes, Arena.slotsTogether_mono hgrown hparameters, ← ofTypes, ← hsame]

theorem match_again (hfilled : signature.IsFilled larger)
    (hanswer : (build view descriptor larger later).answer = .ok signature)
    (harena : (build view descriptor larger later).arena = larger) :
    (signature.matchDescriptor view descriptor 0 larger later).answer = .ok true ∧
      (signature.matchDescriptor view descriptor 0 larger later).arena = larger := by
  have hmatches := matchDescriptor_anticipates LoaderSystem.grows hfilled view descriptor later
  have hequal : (signature == signature) = true := beq_iff.mpr rfl
  have hgrown := Resolver.Within.matchDescriptor LoaderSystem.grows.within signature view descriptor
    0 larger later
  refine ⟨hequal ▸ hmatches.value signature hanswer, ?_⟩
  have hbound := hmatches.arena
  rw [harena] at hbound
  exact congrArg Arena.mk (hbound.eq_of_length_le hgrown.length_le)

theorem exists_later_state (harena : arena.Reached)
    (hbuilt : (build view descriptor arena system).answer = .ok signature) {after : Workspace}
    (hafter : after.state = (build view descriptor arena system).left) (commands : List Command)
    (hanswers : ∀ loader chain, arena.accessingLoader view.accessing = .ok loader →
      system.chain? loader = some chain → ∀ id ∈ chain, ∀ name,
        (after.run commands).2.system.answer? id name = system.answer? id name) :
    ∃ loader, arena.definingLoader view.accessing = .ok (some loader) ∧
      (after.run commands).2.session.arena.Valid ∧
      (build view descriptor arena system).arena.types <+:
        (after.run commands).2.session.arena.types ∧
      system.StillSees (after.run commands).2.system loader := by
  obtain ⟨loader, hloader⟩ := LoaderSystem.definingLoader_of_build hbuilt
  have hlookups := (LoaderSystem.lookups_within view).build descriptor arena system
  have hleft : after.session.arena = (build view descriptor arena system).arena :=
    congrArg Prod.fst hafter
  rw [← hafter] at hlookups
  rw [← hleft]
  obtain ⟨types, hlater⟩ := Workspace.run_exists_interned after commands
  refine ⟨loader, hloader, hlater ▸ (hlookups.valid harena.valid).internEach types,
    hlater ▸ after.session.arena.types_prefix_internEach types, fun chain hchain => ?_⟩
  have hbetween : after.system.chain? loader = some chain :=
    hlookups.sameAnswers.keepsChains loader chain hchain
  exact ⟨LoaderSystem.keepsChains_run after commands loader chain hbetween,
    hanswers loader chain (LoaderSystem.accessingLoader_of_definingLoader hloader) hchain⟩

/-- When a signature has been built, other commands may follow in any workspace with the same types
and loaders. Building it again gives the same signature, and matching it says that it is the same;
neither adds a type. -/
theorem building_again_adds_nothing (harena : arena.Reached) (system : LoaderSystem)
    (hissued : LoaderSystem.Issued arena view.references)
    (hbuilt : (build view descriptor arena system).answer = .ok signature) {after : Workspace}
    (hafter : after.state = (build view descriptor arena system).left) (commands : List Command)
    (hanswers : ∀ loader chain, arena.accessingLoader view.accessing = .ok loader →
      system.chain? loader = some chain → ∀ id ∈ chain, ∀ name,
        (after.run commands).2.system.answer? id name = system.answer? id name) :
    let later := (after.run commands).2
    let again := build view descriptor later.session.arena later.system
    let matched := signature.matchDescriptor view descriptor 0 later.session.arena later.system
    again.answer = .ok signature ∧ again.arena = later.session.arena ∧
      matched.answer = .ok true ∧ matched.arena = later.session.arena := by
  intro later again matched
  obtain ⟨loader, hloader, hvalid, hgrown, hsees⟩ :=
    exists_later_state harena hbuilt hafter commands hanswers
  obtain ⟨hanswer, hagain⟩ :=
    build_again harena.valid hloader hissued hbuilt hvalid hgrown hsees
  have hfilled := (isFilled_of_build LoaderSystem.grows hbuilt).mono hgrown
  obtain ⟨hmatched, hmatches⟩ := match_again hfilled hanswer hagain
  exact ⟨hanswer, hagain, hmatched, hmatches⟩

def interlude : List Command :=
  [.build ['f'] ⟨⟨10⟩, none⟩ ⟨['(', 'L', 'p', '/', 'F', ';', ')', 'V'], false⟩,
    .addLoader (.place (.memory [['p', '/', 'D']])) .bootstrap,
    .intern (.loadedClass ['p', '/', 'D'] ⟨3⟩)]

theorem built_again_after_interlude :
    let built := build ⟨⟨9⟩, []⟩ Workspace.mixed Workspace.siblings.session.arena
      Workspace.siblings.system
    let after : Workspace :=
      { Workspace.siblings.withArena built.arena with system := built.resolver }
    let later := (after.run interlude).2
    ∃ signature, built.answer = .ok signature ∧
      (∀ id ∈ [⟨1⟩, .bootstrap], ∀ name,
        later.system.answer? id name = Workspace.siblings.system.answer? id name) ∧
      later.session.arena.types = built.arena.types ++ [.loadedClass ['p', '/', 'D'] ⟨3⟩] ∧
      (build ⟨⟨9⟩, []⟩ Workspace.mixed later.session.arena later.system).answer = .ok signature ∧
      (signature.matchDescriptor ⟨⟨9⟩, []⟩ Workspace.mixed 0 later.session.arena
        later.system).answer = .ok true := by
  intro built after later
  have hbuilt : built.answer =
      .ok ⟨Workspace.mixed, ⟨9⟩, [⟨12⟩, ⟨14⟩, ⟨16⟩, ⟨17⟩], ⟨18⟩, 4⟩ := rfl
  have hread : Descriptor.ofText? ['(', 'L', 'p', '/', 'F', ';', ')', 'V'] =
      some ⟨[.ofClass ⟨['p', '/', 'F'], by decide⟩], .void⟩ :=
    Descriptor.ofText?_eq_some_iff.mpr rfl
  obtain ⟨hloaders, hfiles, htypes⟩ :
      (after.run interlude).2.system.loaders = Workspace.siblings.system.loaders ++
          [⟨.place (.memory [['p', '/', 'D']]), [.bootstrap]⟩] ∧
        (after.run interlude).2.system.files = Workspace.siblings.system.files ∧
        (after.run interlude).2.session.arena.types =
          built.arena.types ++ [.loadedClass ['p', '/', 'D'] ⟨3⟩] := by
    simp only [interlude, Workspace.run, Workspace.step, Workspace.perform,
      Workspace.withDescriptor_of_text hread]
    exact ⟨rfl, rfl, rfl⟩
  have hanswers : ∀ id ∈ [⟨1⟩, .bootstrap], ∀ name,
      (after.run interlude).2.system.answer? id name =
        Workspace.siblings.system.answer? id name := by
    simp only [List.forall_mem_cons]
    refine ⟨fun name => ?_, fun name => ?_, List.forall_mem_nil _⟩
    all_goals
      rw [LoaderSystem.answer?, LoaderSystem.loader?, hloaders, hfiles]
      rfl
  have hissued : LoaderSystem.Issued Workspace.siblings.session.arena [] := by
    intro name id hentry
    cases hentry
  have hchain : ∀ loader chain,
      Workspace.siblings.session.arena.accessingLoader ⟨9⟩ = .ok loader →
      Workspace.siblings.system.chain? loader = some chain → ∀ id ∈ chain, ∀ name,
        (after.run interlude).2.system.answer? id name =
          Workspace.siblings.system.answer? id name := by
    intro loader chain hloader hchain
    cases hloader
    cases hchain
    exact hanswers
  obtain ⟨hagain, -, hmatched, -⟩ := building_again_adds_nothing
    ⟨_, Workspace.siblings_reached, rfl⟩ Workspace.siblings.system hissued hbuilt
    (rfl : after.state = built.left) interlude hchain
  exact ⟨_, hbuilt, hanswers, htypes, hagain, hmatched⟩

end Signature
end MethodLinkage
