import MethodLinkage.Proofs.Rebuilding

/-!
# Cursors in lockstep

A cursor over a signature is at a place in the list of the signature's elements. A cursor over the
descriptor that the signature was built from is at the same place in the descriptor's elements, and
at any later time every element is resolved to the type it has in the signature. So the two give
the same replies, whatever they are asked and as often as one likes, and fault together.
-/

namespace MethodLinkage

namespace LoaderSystem

variable {system other : LoaderSystem} {arena larger : Arena} {view : Viewpoint}
  {loader : LoaderIndex} {element : Element} {type : TypeIndex}

/-- An element of a descriptor is of the type that stands at its place in a signature, and the
arena has that type. -/
structure IsPlaced (system : LoaderSystem) (view : Viewpoint) (loader : LoaderIndex)
    (arena : Arena) (placed : PlacedElement) (own : PlacedType) : Prop where
  isReturn : placed.isReturn = own.isReturn
  held : ∃ placement, system.placement view loader placed.element = .ok placement ∧
    arena.Holds placement own.type

variable {placed : PlacedElement} {own : PlacedType}

theorem IsPlaced.mono (h : IsPlaced system view loader arena placed own)
    (hgrown : arena.types <+: larger.types) : IsPlaced system view loader larger placed own where
  isReturn := h.isReturn
  held := h.held.imp fun _ hheld => ⟨hheld.1, hheld.2.mono hgrown⟩

theorem isPlaced_congr (hsame : SameAnswers system other) :
    IsPlaced other view loader arena placed own ↔ IsPlaced system view loader arena placed own := by
  have hplacement := placement_congr hsame view loader placed.element
  constructor
  · exact fun h => ⟨h.isReturn, hplacement ▸ h.held⟩
  · exact fun h => ⟨h.isReturn, hplacement.symm ▸ h.held⟩

theorem IsPlaced.sees (h : IsPlaced system view loader arena placed own)
    (hsees : system.StillSees other loader) : IsPlaced other view loader arena placed own where
  isReturn := h.isReturn
  held := h.held.imp fun _ hheld => ⟨hsees.placement hheld.1, hheld.2⟩

theorem IsPlaced.resolveElement (h : IsPlaced system view loader arena placed own)
    (hvalid : arena.Valid) (hloader : arena.definingLoader view.accessing = .ok (some loader))
    (asked : List Text) :
    ∃ after : Recorded LoaderSystem, SameAnswers system after.inner ∧
      resolveElement view loader placed.element arena (⟨system, asked⟩ : Recorded LoaderSystem) =
        .ok own.type arena after := by
  obtain ⟨placement, hplacement, hheld⟩ := h.held
  obtain ⟨after, hsame, helement⟩ :=
    resolveElement_spec system asked hvalid hloader placed.element
  rw [placeElement_of_ok hplacement (Arena.place_of_holds hvalid hheld)] at helement
  exact ⟨_, hsame, helement⟩

theorem isPlaced_of_resolveElement (hvalid : arena.Valid)
    (hloader : arena.definingLoader view.accessing = .ok (some loader)) (isReturn : Bool)
    (h : (resolveElement view loader element arena system).answer = .ok type) :
    IsPlaced system view loader (resolveElement view loader element arena system).arena
      ⟨element, isReturn⟩ ⟨type, isReturn⟩ := by
  refine ⟨rfl, ?_⟩
  have hrecorded : Outcome.Corresponds Recorded.IsInner id
      (resolveElement view loader element arena (⟨system, []⟩ : Recorded LoaderSystem))
      (resolveElement view loader element arena system) :=
    (Recorded.corresponds_inner view).resolveElement loader (fun _ _ => trivial) rfl
  obtain ⟨hanswer, harena, -⟩ := hrecorded
  obtain ⟨after, -, helement⟩ := resolveElement_spec system [] hvalid hloader element
  rw [Except.map_id, h, helement] at hanswer
  rw [harena, helement]
  have hplaced : system.placeElement view loader element arena =
      (.ok type, (system.placeElement view loader element arena).2) := Prod.ext hanswer.symm rfl
  obtain ⟨placement, hplacement, hplace⟩ := exists_of_placeElement hplaced
  exact ⟨placement, hplacement, holds_place hplacement hplace⟩

theorem isPlaced_of_resolveParameters {types : List FieldType} {answer : List TypeIndex × UInt32}
    (hvalid : arena.Valid) (hloader : arena.definingLoader view.accessing = .ok (some loader))
    (h : (Signature.resolveParameters view loader types arena system).answer = .ok answer) :
    List.Forall₂ (fun type own => IsPlaced system view loader
      (Signature.resolveParameters view loader types arena system).arena
      ⟨.field type, false⟩ ⟨own, false⟩) types answer.1 := by
  induction types generalizing arena system answer with
  | nil =>
    cases h
    exact .nil
  | cons type types ih =>
    have hfirst := (lookups_within view).resolveElement loader (.field type) arena system
    rw [Signature.resolveParameters] at h ⊢
    obtain ⟨own, hown, heq⟩ := Outcome.exists_of_andThen h
    have hplaced := isPlaced_of_resolveElement hvalid hloader false hown
    rw [heq] at h ⊢
    split at h
    · cases h
    · obtain ⟨others, hothers, hrest⟩ := Outcome.exists_of_andThen h
      rw [hrest] at h ⊢
      cases h
      have hlater := (lookups_within view).resolveParameters loader types
        (resolveElement view loader (.field type) arena system).arena
        (resolveElement view loader (.field type) arena system).resolver
      have hparameters := ih (hfirst.valid hvalid)
        (Arena.definingLoader_mono hfirst.types_prefix hloader) hothers
      refine .cons (hplaced.mono hlater.types_prefix) ?_
      exact hparameters.imp fun _ _ => (isPlaced_congr hfirst.sameAnswers).mp

theorem isPlaced_of_build {descriptor : Descriptor} {signature : Signature} (hvalid : arena.Valid)
    (hloader : arena.definingLoader view.accessing = .ok (some loader))
    (h : (Signature.build view descriptor arena system).answer = .ok signature) :
    List.Forall₂ (IsPlaced system view loader (Signature.build view descriptor arena system).arena)
      descriptor.elements signature.elements := by
  rw [Signature.build_eq, accessingLoader_of_definingLoader hloader] at h ⊢
  dsimp only at h ⊢
  have hfirst := (lookups_within view).resolveParameters loader descriptor.parameters arena system
  obtain ⟨⟨parameters, slots⟩, hparameters, heq⟩ := Outcome.exists_of_andThen h
  have hplaced := isPlaced_of_resolveParameters hvalid hloader hparameters
  rw [heq] at h ⊢
  obtain ⟨result, hresult, hlast⟩ := Outcome.exists_of_andThen h
  have hreturned := isPlaced_of_resolveElement (hfirst.valid hvalid)
    (Arena.definingLoader_mono hfirst.types_prefix hloader) true hresult
  have hsecond := (lookups_within view).resolveElement loader descriptor.result
    (Signature.resolveParameters view loader descriptor.parameters arena system).arena
    (Signature.resolveParameters view loader descriptor.parameters arena system).resolver
  rw [hlast] at h ⊢
  cases h
  refine List.rel_append ?_ (.cons ((isPlaced_congr hfirst.sameAnswers).mp hreturned) .nil)
  rw [List.forall₂_map_left_iff, List.forall₂_map_right_iff]
  exact hplaced.imp fun _ _ hparameter => hparameter.mono hsecond.types_prefix

end LoaderSystem

inductive CursorCall where
  | isExhausted | onReturn | current | advance
  deriving DecidableEq

namespace CursorCall

def onSignature : CursorCall → SignatureCursor.Call
  | isExhausted => .isExhausted
  | onReturn => .onReturn
  | current => .current
  | advance => .advance

def onDescriptor : CursorCall → DescriptorCursor.Call
  | isExhausted => .isExhausted
  | onReturn => .onReturn
  | current => .current
  | advance => .advance

/-- The same reply from either kind of cursor. Both fault alike, each by its own name. -/
inductive SameReply : Except Fault SignatureCursor.Reply → Except Failure DescriptorCursor.Reply →
    Prop where
  | flag (value : Bool) : SameReply (.ok (.flag value)) (.ok (.flag value))
  | type (id : TypeIndex) : SameReply (.ok (.type id)) (.ok (.type id))
  | moved : SameReply (.ok .moved) (.ok .moved)
  | exhausted : SameReply (.error .signatureExhausted) (.error (.fault .descriptorExhausted))

end CursorCall

open CursorCall (SameReply)

/-- Two cursors at the same place, where what is left of the descriptor is resolved already. -/
structure Lockstep (arena : Arena) (system : LoaderSystem) (first : SignatureCursor)
    (second : DescriptorCursor) : Prop where
  loader : arena.definingLoader second.view.accessing = .ok (some second.loader)
  elements : List.Forall₂ (system.IsPlaced second.view second.loader arena) second.pending
    first.remaining
  resolved : ∀ id, second.resolved = some id → first.current = .ok id

namespace Lockstep

variable {arena : Arena} {system : LoaderSystem} {first : SignatureCursor}
  {second : DescriptorCursor}

theorem exhausted_or_placed (h : Lockstep arena system first second) :
    (second.pending = [] ∧ first.remaining = []) ∨
    ∃ placed pending own rest, second.pending = placed :: pending ∧
      first.remaining = own :: rest ∧ system.IsPlaced second.view second.loader arena placed own ∧
      List.Forall₂ (system.IsPlaced second.view second.loader arena) pending rest := by
  have helements := h.elements
  generalize second.pending = pending at helements
  generalize first.remaining = remaining at helements
  cases helements with
  | nil => exact .inl ⟨rfl, rfl⟩
  | cons hfirst hrest => exact .inr ⟨_, _, _, _, rfl, rfl, hfirst, hrest⟩

theorem isExhausted_eq (h : Lockstep arena system first second) :
    second.isExhausted = first.isExhausted := by
  rw [DescriptorCursor.isExhausted]
  rcases h.exhausted_or_placed with ⟨hpending, hrest⟩ | ⟨_, _, _, _, hpending, hrest, -, -⟩
  · rw [hpending, SignatureCursor.isExhausted_of_nil hrest]
    rfl
  · rw [hpending, SignatureCursor.not_isExhausted_of_cons hrest]
    rfl

theorem onReturn_eq (h : Lockstep arena system first second) :
    second.onReturn = first.onReturn := by
  rw [DescriptorCursor.onReturn]
  rcases h.exhausted_or_placed with ⟨hpending, hrest⟩ | ⟨_, _, _, _, hpending, hrest, hplaced, -⟩
  · rw [hpending, SignatureCursor.onReturn_of_nil hrest]
    rfl
  · rw [hpending, SignatureCursor.onReturn_of_cons hrest, ← hplaced.isReturn]
    rfl

theorem congr {after : LoaderSystem} (h : Lockstep arena system first second)
    (hsame : LoaderSystem.SameAnswers system after) : Lockstep arena after first second where
  loader := h.loader
  elements := h.elements.imp fun _ _ => (LoaderSystem.isPlaced_congr hsame).mpr
  resolved := h.resolved

theorem current (h : Lockstep arena system first second) (hvalid : arena.Valid)
    (asked : List Text) :
    ∃ after : Recorded LoaderSystem, LoaderSystem.SameAnswers system after.inner ∧
      ((∃ id, first.current = .ok id ∧
          second.current arena ⟨system, asked⟩ =
            (.ok id arena after, { second with resolved := some id })) ∨
        (first.current = .error .signatureExhausted ∧
          second.current arena ⟨system, asked⟩ =
            (.fault .descriptorExhausted arena after, second))) := by
  unfold DescriptorCursor.current
  cases hknown : second.resolved with
  | some id => exact ⟨⟨system, asked⟩, .refl _, .inl ⟨id, h.resolved id hknown, rfl⟩⟩
  | none =>
    rcases h.exhausted_or_placed with
      ⟨hpending, hrest⟩ | ⟨placed, _, own, _, hpending, hrest, hplaced, -⟩
    · rw [hpending]
      exact ⟨⟨system, asked⟩, .refl _, .inr ⟨SignatureCursor.current_of_nil hrest, rfl⟩⟩
    · obtain ⟨after, hsame, helement⟩ := hplaced.resolveElement hvalid h.loader asked
      have htype : DescriptorCursor.typeOf second.view second.loader none second.pending arena
          (⟨system, asked⟩ : Recorded LoaderSystem) = .ok own.type arena after := by
        rw [hpending]
        exact helement
      rw [htype]
      exact ⟨after, hsame, .inl ⟨_, SignatureCursor.current_of_cons hrest, rfl⟩⟩

theorem call (h : Lockstep arena system first second) (hvalid : arena.Valid) (asked : List Text)
    (call : CursorCall) :
    ∃ after : Recorded LoaderSystem, ∃ reply last,
      second.call arena ⟨system, asked⟩ call.onDescriptor = (⟨reply, arena, after⟩, last) ∧
      SameReply (first.call call.onSignature).1 reply ∧
      Lockstep arena after.inner (first.call call.onSignature).2 last := by
  cases call with
  | isExhausted =>
    refine ⟨⟨system, asked⟩, _, second, rfl, ?_, h⟩
    rw [h.isExhausted_eq]
    exact .flag _
  | onReturn =>
    refine ⟨⟨system, asked⟩, _, second, rfl, ?_, h⟩
    rw [h.onReturn_eq]
    exact .flag _
  | current =>
    obtain ⟨after, hsame, ⟨id, hfirst, hsecond⟩ | ⟨hfirst, hsecond⟩⟩ := h.current hvalid asked
    · refine ⟨after, .ok (.type id), { second with resolved := some id }, ?_, ?_, ?_⟩
      · simp only [CursorCall.onDescriptor, DescriptorCursor.call, hsecond]
        rfl
      · simp only [CursorCall.onSignature, SignatureCursor.call, hfirst]
        exact .type id
      · refine ⟨h.loader, (h.congr hsame).elements, fun known hknown => ?_⟩
        rw [← Option.some.inj hknown]
        exact hfirst
    · refine ⟨after, .error (.fault .descriptorExhausted), second, ?_, ?_, h.congr hsame⟩
      · simp only [CursorCall.onDescriptor, DescriptorCursor.call, hsecond]
        rfl
      · simp only [CursorCall.onSignature, SignatureCursor.call, hfirst]
        exact .exhausted
  | advance =>
    simp only [CursorCall.onDescriptor, CursorCall.onSignature, DescriptorCursor.call,
      DescriptorCursor.advance, SignatureCursor.call]
    rcases h.exhausted_or_placed with ⟨hpending, hrest⟩ | ⟨_, _, _, _, hpending, hrest, -, hlater⟩
    · rw [hpending, SignatureCursor.advance_of_nil hrest]
      exact ⟨_, _, _, rfl, .exhausted, h⟩
    · obtain ⟨after, hadvance, hremaining⟩ := SignatureCursor.advance_of_cons hrest
      rw [hpending, hadvance]
      refine ⟨_, _, _, rfl, .moved, h.loader, hremaining ▸ hlater, fun id hid => ?_⟩
      cases hid

theorem run (h : Lockstep arena system first second) (hvalid : arena.Valid) (asked : List Text)
    (calls : List CursorCall) :
    List.Forall₂ SameReply (first.run (calls.map CursorCall.onSignature))
        (second.run arena (⟨system, asked⟩ : Recorded LoaderSystem)
          (calls.map CursorCall.onDescriptor)).1 ∧
      (second.run arena (⟨system, asked⟩ : Recorded LoaderSystem)
        (calls.map CursorCall.onDescriptor)).2.1 = arena := by
  induction calls generalizing first second system asked with
  | nil => exact ⟨.nil, rfl⟩
  | cons call rest ih =>
    obtain ⟨⟨after, names⟩, reply, last, hcall, hreply, hlast⟩ := h.call hvalid asked call
    obtain ⟨hreplies, harena⟩ := ih hlast names
    simp only [List.map_cons, SignatureCursor.run, DescriptorCursor.run, hcall]
    exact ⟨.cons hreply hreplies, harena⟩

end Lockstep

namespace Signature

variable {arena : Arena} {view : Viewpoint} {descriptor : Descriptor} {signature : Signature}

/-- When a signature has been built and other commands have followed, a cursor over it and a new one
over the descriptor, seen from the same viewpoint, give the same replies to any calls. The latter
adds no type. -/
theorem cursors_walk_in_lockstep (harena : arena.Reached) (system : LoaderSystem)
    (hbuilt : (build view descriptor arena system).answer = .ok signature) {after : Workspace}
    (hafter : after.state = (build view descriptor arena system).left) (commands : List Command)
    (hanswers : ∀ loader chain, arena.accessingLoader view.accessing = .ok loader →
      system.chain? loader = some chain → ∀ id ∈ chain, ∀ name,
        (after.run commands).2.system.answer? id name = system.answer? id name)
    (calls : List CursorCall) :
    let later := (after.run commands).2
    let walked := DescriptorCursor.walk view descriptor (calls.map CursorCall.onDescriptor)
      later.session.arena (⟨later.system, []⟩ : Recorded LoaderSystem)
    ∃ replies, walked.answer = .ok replies ∧
      List.Forall₂ SameReply
        ((SignatureCursor.start signature).run (calls.map CursorCall.onSignature)) replies ∧
      walked.arena = later.session.arena := by
  intro later walked
  obtain ⟨loader, hloader, hvalid, hgrown, hsees⟩ :=
    exists_later_state harena hbuilt hafter commands hanswers
  have hbuild := (LoaderSystem.lookups_within view).build descriptor arena system
  have hlater := Arena.definingLoader_mono (hbuild.types_prefix.trans hgrown) hloader
  have hplaced := LoaderSystem.isPlaced_of_build harena.valid hloader hbuilt
  have hlockstep : Lockstep later.session.arena later.system (.start signature)
      ⟨view, loader, descriptor, descriptor.elements, none⟩ := by
    refine ⟨hlater, ?_, fun id hid => ?_⟩
    · exact hplaced.imp fun _ _ hheld => (hheld.mono hgrown).sees hsees
    · cases hid
  obtain ⟨hreplies, hleft⟩ := hlockstep.run hvalid [] calls
  have hstart : DescriptorCursor.start view descriptor later.session.arena =
      .ok ⟨view, loader, descriptor, descriptor.elements, none⟩ := by
    rw [DescriptorCursor.start, LoaderSystem.accessingLoader_of_definingLoader hlater]
    rfl
  simp only [walked, DescriptorCursor.walk, hstart]
  exact ⟨_, rfl, hreplies, hleft⟩

def builtMixed : Workspace :=
  let built := build ⟨⟨9⟩, []⟩ Workspace.mixed Workspace.siblings.session.arena
    Workspace.siblings.system
  { Workspace.siblings.withArena built.arena with system := built.resolver }

def another : List Command :=
  [.addLoader (.place (.memory [['p', '/', 'D']])) .bootstrap,
    .intern (.loadedClass ['p', '/', 'D'] ⟨3⟩)]

def afterAnother : Workspace := (builtMixed.run another).2

def wandering : List CursorCall :=
  [.onReturn, .current, .current, .advance, .advance, .isExhausted, .current, .advance, .advance,
    .onReturn, .current, .advance, .isExhausted, .onReturn, .current, .advance]

theorem cursors_pass_the_end_together :
    let walked := DescriptorCursor.walk ⟨⟨9⟩, []⟩ Workspace.mixed
      (wandering.map CursorCall.onDescriptor) afterAnother.session.arena
      (⟨afterAnother.system, []⟩ : Recorded LoaderSystem)
    ∃ signature replies,
      (build ⟨⟨9⟩, []⟩ Workspace.mixed Workspace.siblings.session.arena
        Workspace.siblings.system).answer = .ok signature ∧
      afterAnother.session.arena.size = builtMixed.session.arena.size + 1 ∧
      walked.answer = .ok replies ∧
      replies.drop 9 = [.ok (.flag true), .ok (.type signature.result), .ok .moved,
        .ok (.flag true), .ok (.flag false), .error (.fault .descriptorExhausted),
        .error (.fault .descriptorExhausted)] ∧
      List.Forall₂ SameReply
        ((SignatureCursor.start signature).run (wandering.map CursorCall.onSignature)) replies ∧
      walked.arena = afterAnother.session.arena := by
  intro walked
  have hbuilt : (build ⟨⟨9⟩, []⟩ Workspace.mixed Workspace.siblings.session.arena
      Workspace.siblings.system).answer =
      .ok ⟨Workspace.mixed, ⟨9⟩, [⟨12⟩, ⟨14⟩, ⟨16⟩, ⟨17⟩], ⟨18⟩, 4⟩ := rfl
  have hanswers : ∀ loader chain,
      Workspace.siblings.session.arena.accessingLoader ⟨9⟩ = .ok loader →
      Workspace.siblings.system.chain? loader = some chain → ∀ id ∈ chain, ∀ name,
        (builtMixed.run another).2.system.answer? id name =
          Workspace.siblings.system.answer? id name := by
    intro loader chain hloader hchain
    cases hloader
    cases hchain
    simp only [List.forall_mem_cons]
    exact ⟨fun _ => rfl, fun _ => rfl, List.forall_mem_nil _⟩
  obtain ⟨replies, hreplies, hsame, hleft⟩ := cursors_walk_in_lockstep
    ⟨_, Workspace.siblings_reached, rfl⟩ Workspace.siblings.system hbuilt
    (rfl : builtMixed.state = _) another hanswers wandering
  refine ⟨_, replies, hbuilt, rfl, hreplies, ?_, hsame, hleft⟩
  cases hreplies
  rfl

end Signature
end MethodLinkage
