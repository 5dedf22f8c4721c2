import MethodLinkage.Proofs.ReachedStates
import MethodLinkage.Proofs.SignatureBuilding

/-!
# Equality across contexts

Two signatures of one descriptor, built on behalf of two accessing types, are
equal exactly if every class of the descriptor is found at the same loader from
both sides, or from neither side and the sides are the same loader. A number
tells its dimensions and its innermost element, so equality of numbers comes down
to where the searches end.
-/

namespace MethodLinkage

/-- A class that an element refers to, or the class that an array is made of. -/
def Descriptor.Mentions (descriptor : Descriptor) (className : ClassName) : Prop :=
  ∃ type, .field type ∈ descriptor.bare ∧ type.base = .object className

namespace LoaderSystem

open Arena (Placement)

variable {system : LoaderSystem} {arena : Arena} {first second definer : LoaderIndex}
  {accessing : TypeIndex} {name : Text} {type : FieldType}

/-- A loader of the chain has the class, and those above it have not. -/
def FindsAt (system : LoaderSystem) (initiating : LoaderIndex) (name : Text)
    (id : LoaderIndex) : Prop :=
  ∃ chain above below info, system.chain? initiating = some chain ∧
    chain.reverse = above ++ id :: below ∧
    (∀ passed ∈ above, system.answer? passed name = some (.error .notFound)) ∧
    system.answer? id name = some (.ok info)

def FindsNowhere (system : LoaderSystem) (initiating : LoaderIndex) (name : Text) : Prop :=
  ∃ chain, system.chain? initiating = some chain ∧
    ∀ passed ∈ chain, system.answer? passed name = some (.error .notFound)

/-- Searches from two loaders end at the same loader, or find nothing from one and the same. -/
def SearchesAgree (system : LoaderSystem) (first second : LoaderIndex) (name : Text) : Prop :=
  (∃ id, system.FindsAt first name id ∧ system.FindsAt second name id) ∨
    (system.FindsNowhere first name ∧ system.FindsNowhere second name ∧ first = second)

theorem findsAt_iff :
    system.FindsAt first name definer ↔
      ∃ info, system.sight first name = .ok (some (info, definer)) ∧
        system.answer? definer name = some (.ok info) := by
  constructor
  · intro h
    obtain ⟨chain, above, below, info, hchain, hsplit, habove, hanswer⟩ := h
    refine ⟨info, ?_, hanswer⟩
    rw [sight, hchain]
    exact verdict_eq_found_iff.mpr ⟨above, below, hsplit, habove, hanswer⟩
  · intro h
    obtain ⟨info, hsight, hanswer⟩ := h
    rw [sight] at hsight
    split at hsight
    · cases hsight
    · next chain hchain =>
      obtain ⟨above, below, hsplit, habove, -⟩ := verdict_eq_found_iff.mp hsight
      exact ⟨chain, above, below, info, hchain, hsplit, habove, hanswer⟩

theorem answer?_of_sight {info : FoundClass}
    (h : system.sight first name = .ok (some (info, definer))) :
    system.answer? definer name = some (.ok info) := by
  rw [sight] at h
  split at h
  · cases h
  · obtain ⟨_, _, -, -, hanswer⟩ := verdict_eq_found_iff.mp h
    exact hanswer

theorem findsNowhere_iff :
    system.FindsNowhere first name ↔ system.sight first name = .ok none := by
  rw [FindsNowhere, sight]
  cases system.chain? first with
  | none => simp
  | some chain => simp [verdict_eq_missing_iff]

theorem FindsNowhere.not_findsAt (h : system.FindsNowhere first name) :
    ¬ system.FindsAt first name definer := by
  intro hfinds
  obtain ⟨info, hsight, -⟩ := findsAt_iff.mp hfinds
  rw [findsNowhere_iff.mp h] at hsight
  cases hsight

theorem searchesAgree_iff {found other : Option (FoundClass × LoaderIndex)}
    (hfirst : system.sight first name = .ok found)
    (hsecond : system.sight second name = .ok other) :
    system.SearchesAgree first second name ↔ found = other ∧ (found = none → first = second) := by
  rw [SearchesAgree, findsNowhere_iff, findsNowhere_iff, hfirst, hsecond]
  simp only [findsAt_iff, hfirst, hsecond]
  constructor
  · rintro (⟨id, ⟨info, hinfo, hanswer⟩, info', hinfo', hanswer'⟩ | ⟨hnone, hnone', hsame⟩)
    · cases hinfo
      cases hinfo'
      rw [hanswer] at hanswer'
      cases hanswer'
      exact ⟨rfl, fun h => nomatch h⟩
    · cases hnone
      cases hnone'
      exact ⟨rfl, fun _ => hsame⟩
  · intro ⟨hsame, hloader⟩
    subst hsame
    cases found with
    | none => exact .inr ⟨rfl, rfl, hloader rfl⟩
    | some found =>
      obtain ⟨info, definer⟩ := found
      have hanswer := answer?_of_sight hfirst
      exact .inl ⟨definer, ⟨info, rfl, hanswer⟩, info, rfl, hanswer⟩

def placed (type : FieldType) (initiating : LoaderIndex) :
    Option (FoundClass × LoaderIndex) → Placement
  | none => .built 0 (.placeholder type.referenceName initiating)
  | some (info, definer) => .built type.dimensions (.loadedClass info.name definer)

theorem exists_sight_of_sightType {className : ClassName} {placement : Placement}
    (hbase : type.base = .object className)
    (h : system.sightType first type = .ok placement) :
    ∃ found, system.sight first className.text = .ok found ∧
      placement = placed type first found := by
  cases hsight : system.sight first className.text with
  | error error =>
    rw [sightType_eq_error_iff.mpr ⟨className, hbase, hsight⟩] at h
    cases h
  | ok found =>
    rw [sightType, hbase] at h
    dsimp only at h
    rw [hsight] at h
    refine ⟨found, rfl, ?_⟩
    cases found <;> exact (Except.ok.inj h).symm

theorem placed_eq_iff {found other : Option (FoundClass × LoaderIndex)}
    (hfirst : system.sight first name = .ok found)
    (hsecond : system.sight second name = .ok other) :
    placed type first found = placed type second other ↔
      system.SearchesAgree first second name := by
  rw [searchesAgree_iff hfirst hsecond]
  cases found with
  | none =>
    cases other with
    | none => simp [placed]
    | some other => simp [placed]
  | some found =>
    cases other with
    | none => simp [placed]
    | some other =>
      obtain ⟨info, definer⟩ := found
      obtain ⟨info', definer'⟩ := other
      have hanswer := answer?_of_sight hfirst
      have hanswer' := answer?_of_sight hsecond
      constructor
      · intro h
        simp only [placed, Placement.built.injEq, Ty.loadedClass.injEq, true_and] at h
        obtain ⟨-, rfl⟩ := h
        rw [hanswer] at hanswer'
        cases hanswer'
        exact ⟨rfl, fun h => nomatch h⟩
      · intro h
        cases h.1
        rfl

theorem placement_eq_iff {element : Element} {placement other : Placement}
    {accessing accessing' : TypeIndex}
    (hfirst : system.placement ⟨accessing, []⟩ first element = .ok placement)
    (hsecond : system.placement ⟨accessing', []⟩ second element = .ok other) :
    placement = other ↔ ∀ type className, element = .field type → type.base = .object className →
      system.SearchesAgree first second className.text := by
  have hempty : ∀ name : Option Text, name.bind (fun name => List.lookup name []) =
      (none : Option TypeIndex) := by
    intro name
    cases name <;> rfl
  cases element with
  | void =>
    cases hfirst
    cases hsecond
    simp
  | field type =>
    rw [LoaderSystem.placement, hempty] at hfirst hsecond
    dsimp only at hfirst hsecond
    cases hbase : type.base with
    | primitive base =>
      rw [sightType, hbase] at hfirst hsecond
      cases hfirst
      cases hsecond
      constructor
      · intro _ _ _ htype hclass
        cases htype
        rw [hbase] at hclass
        cases hclass
      · intro _
        rfl
    | object className =>
      obtain ⟨found, hfound, rfl⟩ := exists_sight_of_sightType hbase hfirst
      obtain ⟨found', hfound', rfl⟩ := exists_sight_of_sightType hbase hsecond
      rw [placed_eq_iff hfound hfound']
      constructor
      · intro hagree _ _ htype hclass
        cases htype
        rw [hbase] at hclass
        cases hclass
        exact hagree
      · intro hagree
        exact hagree type className rfl hbase

theorem exists_built_of_placement {element : Element} {placement : Placement}
    (h : system.placement ⟨accessing, []⟩ first element = .ok placement) :
    ∃ dimensions type, placement = .built dimensions type := by
  cases placement with
  | known id =>
    obtain ⟨_, -, hentry⟩ := lookup_of_placement h
    cases hentry
  | built dimensions type => exact ⟨dimensions, type, rfl⟩

theorem holds_eq_iff {element : Element} {placement other : Placement}
    {accessing accessing' id id' : TypeIndex} (hvalid : arena.Valid)
    (hfirst : system.placement ⟨accessing, []⟩ first element = .ok placement)
    (hsecond : system.placement ⟨accessing', []⟩ second element = .ok other)
    (h : arena.Holds placement id) (h' : arena.Holds other id') :
    id = id' ↔ placement = other := by
  obtain ⟨_, _, rfl⟩ := exists_built_of_placement hfirst
  obtain ⟨_, _, rfl⟩ := exists_built_of_placement hsecond
  constructor
  · intro heq
    subst heq
    obtain ⟨rfl, rfl⟩ := Arena.Unfolds.unique h h'
    rfl
  · intro heq
    cases heq
    exact Arena.Unfolds.injective hvalid h h'

theorem eq_iff_of_forall₂ {holds holds' : Element → TypeIndex → Prop} (agrees : Element → Prop)
    {elements : List Element} {ids others : List TypeIndex} (h : List.Forall₂ holds elements ids)
    (h' : List.Forall₂ holds' elements others)
    (hagrees : ∀ element id other, holds element id → holds' element other →
      (id = other ↔ agrees element)) :
    ids = others ↔ ∀ element ∈ elements, agrees element := by
  induction h generalizing others with
  | nil =>
    cases h'
    simp
  | cons hfirst _ ih =>
    cases h' with
    | cons hfirst' hrest' =>
      rw [List.cons.injEq, hagrees _ _ _ hfirst hfirst', ih hrest', List.forall_mem_cons]

end LoaderSystem

namespace Signature

/-- Signatures built on behalf of two types, with empty tables and one after the other, are
equal exactly if the searches for each class agree. So a class found at a common ancestor tells
no contexts apart, and a class that is not found tells all different loaders apart. -/
theorem equal_iff_searches_agree (arena : Arena) (harena : arena.Reached) (system : LoaderSystem)
    (accessing accessing' : TypeIndex) (loader loader' : LoaderIndex)
    (hloader : arena.definingLoader accessing = .ok (some loader))
    (hloader' : arena.definingLoader accessing' = .ok (some loader'))
    (descriptor : Descriptor) (first second : Signature)
    (hfirst : (build ⟨accessing, []⟩ descriptor arena system).answer = .ok first)
    (hsecond : (build ⟨accessing', []⟩ descriptor
      (build ⟨accessing, []⟩ descriptor arena system).arena
      (build ⟨accessing, []⟩ descriptor arena system).resolver).answer = .ok second) :
    ((first == second) = true ↔ ∀ className, descriptor.Mentions className →
      system.SearchesAgree loader loader' className.text) ∧
    ((∀ className, descriptor.Mentions className → ∃ id,
      system.FindsAt loader className.text id ∧ system.FindsAt loader' className.text id) →
      (first == second) = true) ∧
    ((∃ className, descriptor.Mentions className ∧
      (system.FindsNowhere loader className.text ∨ system.FindsNowhere loader' className.text)) →
      loader ≠ loader' → (first == second) = false) := by
  have hissued : ∀ larger, LoaderSystem.Issued larger [] := fun _ _ _ hentry => nomatch hentry
  obtain ⟨hname, hsettled, hsame⟩ :=
    LoaderSystem.settle_of_build harena.valid hloader (hissued arena) hfirst
  have hgrown := LoaderSystem.types_prefix_of_settle hsettled
  have hvalid := LoaderSystem.valid_of_settle harena.valid hsettled
  obtain ⟨hname', hsettled', -⟩ := LoaderSystem.settle_of_build hvalid
    (Arena.definingLoader_mono hgrown hloader') (hissued _) hsecond
  rw [LoaderSystem.settle_congr hsame] at hsettled'
  have hgrown' := LoaderSystem.types_prefix_of_settle hsettled'
  have hvalid' := LoaderSystem.valid_of_settle hvalid hsettled'
  have hiff : (first == second) = true ↔ ∀ className, descriptor.Mentions className →
      system.SearchesAgree loader loader' className.text := by
    rw [beq_iff_types (hname.trans hname'.symm), LoaderSystem.eq_iff_of_forall₂
      (fun element => ∀ type className, element = .field type → type.base = .object className →
        system.SearchesAgree loader loader' className.text)
      (LoaderSystem.settle_holds hsettled) (LoaderSystem.settle_holds hsettled')]
    · constructor
      · intro hagrees className ⟨type, hmem, hbase⟩
        exact hagrees (.field type) hmem type className rfl hbase
      · intro hagrees element hmem type className htype hbase
        exact hagrees className ⟨type, htype ▸ hmem, hbase⟩
    -- both numbers are read in the last arena, where they tell the placements apart
    · intro element id other ⟨placement, hplacement, hholds⟩ ⟨placement', hplacement', hholds'⟩
      rw [LoaderSystem.holds_eq_iff hvalid' hplacement hplacement' (hholds.mono hgrown') hholds']
      exact LoaderSystem.placement_eq_iff hplacement hplacement'
  refine ⟨hiff, ?_, ?_⟩
  · intro hfound
    rw [hiff]
    intro className hmentions
    exact .inl (hfound className hmentions)
  · intro ⟨className, hmentions, hnowhere⟩ hne
    rw [← Bool.not_eq_true, hiff]
    intro hagrees
    rcases hagrees className hmentions with ⟨id, hfinds, hfinds'⟩ | ⟨-, -, hsame⟩
    · rcases hnowhere with hnowhere | hnowhere
      · exact hnowhere.not_findsAt hfinds
      · exact hnowhere.not_findsAt hfinds'
    · exact hne hsame

theorem missing_class_tells_siblings_apart :
    let outcome := build ⟨⟨9⟩, []⟩ Workspace.halfMissing Workspace.siblings.session.arena
      Workspace.siblings.system
    ∃ first second, outcome.answer = .ok first ∧
      (build ⟨⟨10⟩, []⟩ Workspace.halfMissing outcome.arena outcome.resolver).answer = .ok second ∧
      (first == second) = false := by
  have houtcome : build ⟨⟨9⟩, []⟩ Workspace.halfMissing Workspace.siblings.session.arena
      Workspace.siblings.system = .ok ⟨Workspace.halfMissing, ⟨9⟩, [⟨13⟩, ⟨15⟩], ⟨16⟩, 2⟩
        ⟨Workspace.siblings.session.arena.types ++
          [.loadedClass ['p', '/', 'A'] ⟨0⟩, .array ⟨12⟩, .array (.ofPrimitive .long), .array ⟨14⟩,
            .placeholder ['[', 'L', 'q', ';'] ⟨1⟩]⟩ Workspace.siblings.system := rfl
  have hsecond : (build ⟨⟨10⟩, []⟩ Workspace.halfMissing
      (build ⟨⟨9⟩, []⟩ Workspace.halfMissing Workspace.siblings.session.arena
        Workspace.siblings.system).arena
      (build ⟨⟨9⟩, []⟩ Workspace.halfMissing Workspace.siblings.session.arena
        Workspace.siblings.system).resolver).answer =
        .ok ⟨Workspace.halfMissing, ⟨10⟩, [⟨13⟩, ⟨15⟩], ⟨17⟩, 2⟩ := by
    rw [houtcome]
    rfl
  have hnowhere : Workspace.siblings.system.FindsNowhere ⟨1⟩ ['q'] := by
    refine ⟨[⟨1⟩, .bootstrap], rfl, ?_⟩
    simp only [List.forall_mem_cons]
    exact ⟨rfl, rfl, List.forall_mem_nil _⟩
  have hmentions : Workspace.halfMissing.Mentions ⟨['q'], by decide⟩ :=
    ⟨_, List.mem_append_right _ List.mem_cons_self, rfl⟩
  have hfirst := congrArg Outcome.answer houtcome
  refine ⟨_, _, hfirst, hsecond, ?_⟩
  exact (equal_iff_searches_agree Workspace.siblings.session.arena
    ⟨_, Workspace.siblings_reached, rfl⟩ Workspace.siblings.system ⟨9⟩ ⟨10⟩ ⟨1⟩ ⟨2⟩ rfl rfl
    Workspace.halfMissing _ _ hfirst hsecond).2.2 ⟨_, hmentions, .inl hnowhere⟩ (by decide)

end Signature
end MethodLinkage
