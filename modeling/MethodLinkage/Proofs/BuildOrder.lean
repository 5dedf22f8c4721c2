import MethodLinkage.Proofs.PlacementOrder
import MethodLinkage.Proofs.ReachedStates

/-!
# The order of builds

A build places a list of elements that depends on the answers of the loaders and on the
table, and not on what was placed before. So builds in another order place the same
elements, and what they leave and give differs in its numbers only.
-/

namespace MethodLinkage

namespace LoaderSystem

open Arena (Placement)

variable {system after : LoaderSystem} {arena : Arena} {view : Viewpoint} {loader : LoaderIndex}

/-- What the elements are placed at, up to the first whose search fails, and that failure. -/
def layout (system : LoaderSystem) (view : Viewpoint) (loader : LoaderIndex) :
    List Element → List Placement × Option ResolverError
  | [] => ([], none)
  | element :: rest =>
    match system.placement view loader element with
    | .error error => ([], some error)
    | .ok placement =>
      let later := system.layout view loader rest
      (placement :: later.1, later.2)

theorem layout_congr (h : SameAnswers system after) (elements : List Element) :
    after.layout view loader elements = system.layout view loader elements := by
  induction elements with
  | nil => rfl
  | cons element rest ih => simp only [layout, placement_congr h, ih]

theorem settle_of_layout {elements : List Element} {ids : List TypeIndex} {last : Arena}
    (h : Arena.placeEach (system.layout view loader elements).1 arena = (.ok ids, last)) :
    system.settle view loader elements arena =
      (match (system.layout view loader elements).2 with
        | some error => .error (.error error)
        | none => .ok ids, last) := by
  induction elements generalizing arena ids with
  | nil =>
    cases h
    rfl
  | cons element rest ih =>
    rw [layout] at h ⊢
    cases hplacement : system.placement view loader element with
    | error error =>
      rw [hplacement] at h
      cases h
      rw [settle, placeElement_of_error hplacement]
    | ok placement =>
      rw [hplacement] at h
      obtain ⟨id, middle, later, hplace, hlater, rfl⟩ := Arena.exists_of_placeEach_cons h
      rw [settle_cons (placeElement_of_ok hplacement hplace), ih hlater]
      dsimp only
      cases (system.layout view loader rest).2 <;> rfl

theorem typeCount_layout_le (system : LoaderSystem) (view : Viewpoint) (loader : LoaderIndex)
    (elements : List Element) :
    ((system.layout view loader elements).1.map Placement.typeCount).sum ≤
      Element.typeCount elements := by
  induction elements with
  | nil => exact Nat.le_refl _
  | cons element rest ih =>
    rw [layout]
    cases hplacement : system.placement view loader element with
    | error error => exact Nat.zero_le _
    | ok placement => exact Nat.add_le_add (typeCount_placement_le hplacement) ih

theorem fits_of_mem_layout (hissued : Issued arena view.references) (elements : List Element) :
    ∀ placement ∈ (system.layout view loader elements).1, Arena.Fits arena placement := by
  induction elements with
  | nil => exact List.forall_mem_nil _
  | cons element rest ih =>
    rw [layout]
    cases hplacement : system.placement view loader element with
    | error error => exact List.forall_mem_nil _
    | ok placement =>
      refine List.forall_mem_cons.mpr ⟨?_, ih⟩
      cases placement with
      | known id =>
        obtain ⟨name, -, hentry⟩ := lookup_of_placement hplacement
        exact hissued name id hentry
      | built dimensions element => exact placement_ne_array hplacement

end LoaderSystem

def Signature.rename (rename : TypeIndex → TypeIndex) (signature : Signature) : Signature :=
  { signature with
    accessing := rename signature.accessing
    parameters := signature.parameters.map rename
    result := rename signature.result }

theorem Signature.types_rename (rename : TypeIndex → TypeIndex) (signature : Signature) :
    (signature.rename rename).types = signature.types.map rename := by
  simp [types, Signature.rename]

theorem Signature.ofTypes_rename {base first second built built' : Arena}
    {rename : TypeIndex → TypeIndex} {accessing result : TypeIndex} {parameters : List TypeIndex}
    (h : base.IsRenaming first second rename) (haccessing : base.Issues accessing)
    (hfirst : built.types <+: first.types) (hsecond : built'.types <+: second.types)
    (hissues : ∀ id ∈ parameters, built.Issues id)
    (hissues' : ∀ id ∈ parameters.map rename, built'.Issues id) (descriptor : Descriptor) :
    ofTypes descriptor accessing built' (parameters.map rename) (rename result) =
      (ofTypes descriptor accessing built parameters result).rename rename := by
  have hslots : built'.slotsTogether (parameters.map rename) = built.slotsTogether parameters := by
    rw [← Arena.slotsTogether_mono hfirst hissues, ← Arena.slotsTogether_mono hsecond hissues']
    exact h.slotsTogether_map fun id hid => (hissues id hid).mono hfirst
  simp [ofTypes, Signature.rename, hslots, h.fixes accessing haccessing]

theorem Signature.beq_rename {base first second : Arena} {rename : TypeIndex → TypeIndex}
    (h : base.IsRenaming first second rename) {a b : Signature}
    (ha : ∀ id ∈ a.types, first.Issues id) (hb : ∀ id ∈ b.types, first.Issues id) :
    (a.rename rename == b.rename rename) = (a == b) := by
  rw [Bool.eq_iff_iff]
  by_cases hdescriptor : a.descriptor = b.descriptor
  · have hrenamed : (a.rename rename).descriptor = (b.rename rename).descriptor := hdescriptor
    rw [beq_iff_types hdescriptor, beq_iff_types hrenamed, types_rename, types_rename,
      h.map_eq_map_iff ha hb]
  · simp only [beq_iff, key, Prod.mk.injEq]
    exact ⟨fun heq => absurd heq.1 hdescriptor, fun heq => absurd heq.1 hdescriptor⟩

structure Request where
  view : Viewpoint
  descriptor : Descriptor

namespace Request

open Arena (Placement placeEach)

variable {system after : LoaderSystem} {arena larger : Arena} {request : Request}

/-- The accessing type and what the table gives are issued. -/
structure IsIssued (request : Request) (arena : Arena) : Prop where
  accessing : arena.Issues request.view.accessing
  references : LoaderSystem.Issued arena request.view.references

theorem IsIssued.mono (h : request.IsIssued arena) (hgrown : arena.types <+: larger.types) :
    request.IsIssued larger :=
  ⟨h.accessing.mono hgrown, h.references.mono hgrown⟩

def build (request : Request) (arena : Arena) (system : LoaderSystem) :
    Outcome LoaderSystem Signature :=
  Signature.build request.view request.descriptor arena system

def layout (request : Request) (system : LoaderSystem) (arena : Arena) :
    List Placement × Option Failure :=
  match arena.accessingLoader request.view.accessing with
  | .error fault => ([], some (.fault fault))
  | .ok loader =>
    let placed := system.layout request.view loader request.descriptor.bare
    (placed.1, placed.2.map .error)

theorem layout_grown (hclosed : arena.IsClosed) (hgrown : arena.types <+: larger.types)
    (hissued : request.IsIssued arena) (hsame : LoaderSystem.SameAnswers system after) :
    request.layout after larger = request.layout system arena := by
  rw [layout, layout, hclosed.accessingLoader_grown hgrown hissued.accessing]
  simp only [LoaderSystem.layout_congr hsame]

theorem fits_of_mem_layout (system : LoaderSystem) (hissued : request.IsIssued arena) :
    ∀ placement ∈ (request.layout system arena).1, Arena.Fits arena placement := by
  rw [layout]
  cases arena.accessingLoader request.view.accessing with
  | error fault => exact List.forall_mem_nil _
  | ok loader => exact LoaderSystem.fits_of_mem_layout hissued.references request.descriptor.bare

theorem typeCount_layout_le (request : Request) (system : LoaderSystem) (arena : Arena) :
    ((request.layout system arena).1.map Placement.typeCount).sum ≤
      request.descriptor.text.length := by
  rw [layout]
  cases arena.accessingLoader request.view.accessing with
  | error fault => exact Nat.zero_le _
  | ok loader =>
    exact Nat.le_trans (system.typeCount_layout_le request.view loader request.descriptor.bare)
      (Nat.le_of_lt request.descriptor.typeCount_bare_lt)

/-- What serving a request gives, where `before` has grown from the arena that the request was made
in: the layout is placed at the numbers given, and the answer tells them. -/
structure Serves (request : Request) (system : LoaderSystem) (base before : Arena)
    (ids : List TypeIndex) (outcome : Outcome LoaderSystem Signature) : Prop where
  sameAnswers : LoaderSystem.SameAnswers system outcome.resolver
  placed : placeEach (request.layout system base).1 before = (.ok ids, outcome.arena)
  answered : match (request.layout system base).2 with
    | some failure => outcome.answer = .error failure
    | none => ∃ parameters result, ids = parameters ++ [result] ∧
        outcome.answer = .ok (.ofTypes request.descriptor request.view.accessing outcome.arena
          parameters result)

theorem serves_of_refused {fault : Fault}
    (hloader : arena.accessingLoader request.view.accessing = .error fault) :
    request.Serves system arena arena [] (request.build arena system) := by
  have hbuild : request.build arena system = .fault fault arena system := by
    rw [build, Signature.build_eq, hloader]
  have hlayout : request.layout system arena = ([], some (.fault fault)) := by
    rw [layout, hloader]
  rw [hbuild]
  constructor
  · exact .refl system
  · rw [hlayout]
    rfl
  · rw [hlayout]
    rfl

theorem serves_of_placed {ids : List TypeIndex} {last : Arena} (hvalid : arena.Valid)
    (hissued : request.IsIssued arena)
    (h : placeEach (request.layout system arena).1 arena = (.ok ids, last)) :
    request.Serves system arena arena ids (request.build arena system) := by
  cases hloader : arena.accessingLoader request.view.accessing with
  | error fault =>
    rw [layout, hloader] at h
    cases h
    exact serves_of_refused hloader
  | ok loader =>
    have hlayout : request.layout system arena =
        ((system.layout request.view loader request.descriptor.bare).1,
          (system.layout request.view loader request.descriptor.bare).2.map .error) := by
      rw [layout, hloader]
    rw [hlayout] at h
    have hsettle := LoaderSystem.settle_of_layout h
    obtain ⟨after, hafter, hbuild⟩ := LoaderSystem.build_plain_spec system request.descriptor hvalid
      (LoaderSystem.definingLoader_of_accessingLoader hloader) hissued.references
    rw [hsettle] at hbuild
    rw [build]
    -- the build fails exactly where the layout ends in a failure
    cases hfailure : (system.layout request.view loader request.descriptor.bare).2 with
    | some error =>
      rw [hfailure] at hbuild
      rcases hbuild with ⟨_, _, hsettled, hbuild⟩ | ⟨_, _, _, hsettled, -⟩ <;> cases hsettled
      rw [hbuild]
      exact ⟨hafter, by rw [hlayout]; exact h, by rw [hlayout, hfailure]; rfl⟩
    | none =>
      rw [hfailure] at hbuild
      rcases hbuild with ⟨_, _, hsettled, -⟩ | ⟨parameters, result, _, hsettled, hbuild⟩ <;>
        cases hsettled
      rw [hbuild]
      exact ⟨hafter, by rw [hlayout]; exact h,
        by rw [hlayout, hfailure]; exact ⟨parameters, result, rfl, rfl⟩⟩

/-- A request that is served after others is served as it would have been before them. -/
theorem serves_build {base : Arena} (hclosed : base.IsClosed) (hgrown : base.types <+: arena.types)
    (hvalid : arena.Valid) (hissued : request.IsIssued base)
    (hsame : LoaderSystem.SameAnswers system after)
    (hroom : arena.HasRoom request.descriptor.text.length) :
    (∃ ids, request.Serves system base arena ids (request.build arena after)) ∧
      (request.build arena after).arena.size ≤ arena.size + request.descriptor.text.length := by
  have hcount := request.typeCount_layout_le after arena
  obtain ⟨ids, last, hplaced, hsize⟩ :=
    Arena.exists_placeEach (request.layout after arena).1 (hroom.mono hcount)
  have hserves := serves_of_placed hvalid (hissued.mono hgrown) hplaced
  obtain rfl : last = (request.build arena after).arena :=
    congrArg Prod.snd (hplaced.symm.trans hserves.placed)
  have hlayout := layout_grown hclosed hgrown hissued hsame
  exact ⟨⟨ids, hsame.trans hserves.sameAnswers, hlayout ▸ hserves.placed,
    hlayout ▸ hserves.answered⟩, Nat.le_trans hsize (Nat.add_le_add_left hcount _)⟩

namespace Serves

variable {base before before' first second : Arena}
  {outcome outcome' : Outcome LoaderSystem Signature}
  {ids ids' : List TypeIndex} {rename : TypeIndex → TypeIndex} {signature : Signature}

theorem types_prefix (h : request.Serves system base before ids outcome) :
    before.types <+: outcome.arena.types :=
  Arena.types_prefix_placeEach h.placed

theorem valid (h : request.Serves system base before ids outcome) (hvalid : before.Valid) :
    outcome.arena.Valid :=
  hvalid.placeEach h.placed

theorem alike {other : Request} {ahead behind ahead' behind' : Outcome LoaderSystem Signature}
    {others others' : List TypeIndex}
    (hvalid : base.Valid) (hclosed : base.IsClosed) (hissued : request.IsIssued base)
    (hother : other.IsIssued base)
    (hahead : request.Serves system base base ids ahead)
    (hbehind : other.Serves system base ahead.arena others behind)
    (hahead' : other.Serves system base base others' ahead')
    (hbehind' : request.Serves system base ahead'.arena ids' behind') :
    base.Alike behind.arena behind'.arena := by
  have hplaced := Arena.placeEach_append hahead.placed hbehind.placed
  have hplaced' := Arena.placeEach_append hahead'.placed hbehind'.placed
  refine Arena.alike_of_mem_iff hvalid hclosed ?_ ?_ hplaced hplaced'
  · rw [List.forall_mem_append]
    exact ⟨fits_of_mem_layout system hissued, fits_of_mem_layout system hother⟩
  · intro placement
    rw [List.mem_append, List.mem_append, or_comm]

theorem issues_types (h : request.Serves system base before ids outcome)
    (hissued : request.IsIssued base) (hgrown : base.types <+: before.types)
    (hanswer : outcome.answer = .ok signature) :
    ∀ id ∈ signature.types, outcome.arena.Issues id := by
  have hids := Arena.issues_of_mem_placeEach hgrown (fits_of_mem_layout system hissued) h.placed
  have hanswered := h.answered
  cases hlayout : (request.layout system base).2 with
  | some failure =>
    rw [hlayout] at hanswered
    rw [hanswered] at hanswer
    cases hanswer
  | none =>
    rw [hlayout] at hanswered
    obtain ⟨parameters, result, rfl, hbuilt⟩ := hanswered
    rw [hbuilt] at hanswer
    cases hanswer
    exact hids

theorem answer_rename (h : request.Serves system base before ids outcome)
    (h' : request.Serves system base before' ids' outcome')
    (hrename : base.IsRenaming first second rename) (hvalid : second.Valid)
    (hissued : request.IsIssued base) (hgrown : base.types <+: before.types)
    (hgrown' : base.types <+: before'.types) (hfirst : outcome.arena.types <+: first.types)
    (hsecond : outcome'.arena.types <+: second.types) :
    outcome'.answer = outcome.answer.map (Signature.rename rename) := by
  have hfits := fits_of_mem_layout system hissued
  have hanswered := h.answered
  have hanswered' := h'.answered
  cases hlayout : (request.layout system base).2 with
  | some failure =>
    rw [hlayout] at hanswered hanswered'
    rw [hanswered, hanswered']
    rfl
  | none =>
    rw [hlayout] at hanswered hanswered'
    obtain ⟨parameters, result, rfl, hanswer⟩ := hanswered
    obtain ⟨parameters', result', rfl, hanswer'⟩ := hanswered'
    have hissues := Arena.issues_of_mem_placeEach hgrown hfits h.placed
    have hissues' := Arena.issues_of_mem_placeEach hgrown' hfits h'.placed
    have hholds := Arena.placeEach_holds hfits h.placed
    have hholds' := Arena.placeEach_holds hfits h'.placed
    rw [List.forall_mem_append] at hissues hissues'
    have hnumbers := hrename.eq_map_of_holds hvalid hfits
      (hholds.imp fun _ _ => Arena.Holds.mono hfirst)
      (hholds'.imp fun _ _ => Arena.Holds.mono hsecond)
    rw [List.map_append, List.map_singleton] at hnumbers
    obtain ⟨rfl, hresult⟩ := List.append_inj' hnumbers rfl
    rw [hanswer, hanswer', List.singleton_inj.mp hresult, Signature.ofTypes_rename hrename
      hissued.accessing hfirst hsecond hissues.1 hissues'.1]
    rfl

end Serves
end Request

/-- Two requests that there are numbers enough for give the same in either order, up to a renaming
that fixes what was issued before: the same error, or signatures of which the one is the other
renamed. -/
theorem Request.order_does_not_matter {arena : Arena} (harena : arena.Reached)
    (hclosed : arena.IsClosed) (system : LoaderSystem) {first second : Request}
    (hfirst : first.IsIssued arena) (hsecond : second.IsIssued arena)
    (hroom : arena.HasRoom (first.descriptor.text.length + second.descriptor.text.length)) :
    let ahead := first.build arena system
    let behind := second.build ahead.arena ahead.resolver
    let ahead' := second.build arena system
    let behind' := first.build ahead'.arena ahead'.resolver
    behind'.arena.size = behind.arena.size ∧
    ∃ rename, arena.IsRenaming behind.arena behind'.arena rename ∧
      behind'.answer = ahead.answer.map (Signature.rename rename) ∧
      ahead'.answer = behind.answer.map (Signature.rename rename) ∧
      ∀ a b a' b', ahead.answer = .ok a → behind.answer = .ok b → behind'.answer = .ok a' →
        ahead'.answer = .ok b' → (a' == b') = (a == b) := by
  intro ahead behind ahead' behind'
  have hvalid := harena.valid
  obtain ⟨⟨_, hahead⟩, hsize⟩ : (∃ ids, first.Serves system arena arena ids ahead) ∧ _ :=
    serves_build hclosed (List.prefix_refl _) hvalid hfirst (.refl system)
      (hroom.mono (Nat.le_add_right ..))
  obtain ⟨⟨_, hahead'⟩, hsize'⟩ : (∃ ids, second.Serves system arena arena ids ahead') ∧ _ :=
    serves_build hclosed (List.prefix_refl _) hvalid hsecond (.refl system)
      (hroom.mono (Nat.le_add_left ..))
  have hlater : ahead.arena.HasRoom second.descriptor.text.length :=
    hroom.of_size_le hsize
  have hlater' : ahead'.arena.HasRoom first.descriptor.text.length :=
    Arena.HasRoom.of_size_le (Nat.add_comm .. ▸ hroom) hsize'
  obtain ⟨⟨_, hbehind⟩, -⟩ : (∃ ids, second.Serves system arena ahead.arena ids behind) ∧ _ :=
    serves_build hclosed hahead.types_prefix (hahead.valid hvalid) hsecond hahead.sameAnswers
      hlater
  obtain ⟨⟨_, hbehind'⟩, -⟩ : (∃ ids, first.Serves system arena ahead'.arena ids behind') ∧ _ :=
    serves_build hclosed hahead'.types_prefix (hahead'.valid hvalid) hfirst hahead'.sameAnswers
      hlater'
  obtain ⟨rename, hrename⟩ :=
    (Serves.alike hvalid hclosed hfirst hsecond hahead hbehind hahead' hbehind').exists_isRenaming
  have hlast' := hbehind'.valid (hahead'.valid hvalid)
  have hrenamed := hahead.answer_rename hbehind' hrename hlast' hfirst (List.prefix_refl _)
    hahead'.types_prefix hbehind.types_prefix (List.prefix_refl _)
  have hrenamed' := hbehind.answer_rename hahead' hrename hlast' hsecond hahead.types_prefix
    (List.prefix_refl _) (List.prefix_refl _) hbehind'.types_prefix
  refine ⟨hrename.size_eq, rename, hrename, hrenamed, hrenamed', ?_⟩
  intro a b a' b' ha hb ha' hb'
  rw [hrenamed, ha] at ha'
  rw [hrenamed', hb] at hb'
  cases ha'
  cases hb'
  apply Signature.beq_rename hrename
  · intro id hid
    exact (hahead.issues_types hfirst (List.prefix_refl _) ha id hid).mono hbehind.types_prefix
  · exact hbehind.issues_types hsecond hahead.types_prefix hb

theorem Arena.isClosed_siblings : Workspace.siblings.session.arena.IsClosed := by
  have hfirst : (fresh.intern (.loadedClass ['p', '/', 'C'] ⟨1⟩)).2.IsClosed :=
    isClosed_fresh.intern trivial
  have hsecond : ((⟨fresh.types ++ [.loadedClass ['p', '/', 'C'] ⟨1⟩]⟩ : Arena).intern
      (.loadedClass ['p', '/', 'C'] ⟨2⟩)).2.IsClosed := hfirst.intern trivial
  exact hsecond.intern (show Arena.Admits _ (.placeholder ['p', '/', 'D'] ⟨2⟩) from trivial)

namespace Request

def mixed (accessing : TypeIndex) : Request := ⟨⟨accessing, []⟩, Workspace.mixed⟩

/-- On behalf of the second sibling a method of `p/F` cannot be linked, but `p/D` and arrays have
been placed by then; the first has the same arrays and a `p/D` of its own. -/
theorem failing_build_before_or_after_another :
    let arena := Workspace.siblings.session.arena
    let ahead := (mixed ⟨9⟩).build arena Workspace.siblings.system
    let behind := (mixed ⟨10⟩).build ahead.arena ahead.resolver
    let ahead' := (mixed ⟨10⟩).build arena Workspace.siblings.system
    let behind' := (mixed ⟨9⟩).build ahead'.arena ahead'.resolver
    (∃ signature, ahead.answer = .ok signature) ∧ (∃ failure, behind.answer = .error failure) ∧
      behind'.arena.size = behind.arena.size ∧
      ∃ rename, arena.IsRenaming behind.arena behind'.arena rename ∧
        behind'.answer = ahead.answer.map (Signature.rename rename) ∧
        ahead'.answer = behind.answer.map (Signature.rename rename) := by
  intro arena ahead behind ahead' behind'
  have hissued : ∀ accessing, arena.Issues accessing → (mixed accessing).IsIssued arena :=
    fun _ haccessing => ⟨haccessing, fun _ _ hentry => nomatch hentry⟩
  obtain ⟨hsize, rename, hrename, hanswer, hanswer', -⟩ :=
    order_does_not_matter ⟨_, Workspace.siblings_reached, rfl⟩ Arena.isClosed_siblings
      Workspace.siblings.system (hissued ⟨9⟩ ⟨_, rfl⟩) (hissued ⟨10⟩ ⟨_, rfl⟩)
      (show Arena.size _ + _ ≤ numberLimit by decide)
  -- evaluated from the closed terms, and not through the names for them
  have hfirst : ((mixed ⟨9⟩).build Workspace.siblings.session.arena
      Workspace.siblings.system).answer =
        .ok ⟨Workspace.mixed, ⟨9⟩, [⟨12⟩, ⟨14⟩, ⟨16⟩, ⟨17⟩], ⟨18⟩, 4⟩ := rfl
  have harena : ((mixed ⟨9⟩).build Workspace.siblings.session.arena
      Workspace.siblings.system).arena = ⟨Workspace.siblings.session.arena.types ++
        [.placeholder ['p', '/', 'D'] ⟨1⟩, .array (.ofPrimitive .long), .array ⟨13⟩,
          .loadedClass ['p', '/', 'A'] ⟨0⟩, .array ⟨15⟩,
          .placeholder ['[', 'L', 'p', '/', 'F', ';'] ⟨1⟩, .placeholder ['q'] ⟨1⟩]⟩ := rfl
  have hresolver : ((mixed ⟨9⟩).build Workspace.siblings.session.arena
      Workspace.siblings.system).resolver = Workspace.siblings.system := rfl
  have hsecond : ((mixed ⟨10⟩).build
      ((mixed ⟨9⟩).build Workspace.siblings.session.arena Workspace.siblings.system).arena
      ((mixed ⟨9⟩).build Workspace.siblings.session.arena
        Workspace.siblings.system).resolver).answer =
        .error (.error (.classPath ['p', '/', 'F'] ⟨2⟩ (.other none))) := by
    rw [harena, hresolver]
    rfl
  exact ⟨⟨_, hfirst⟩, ⟨_, hsecond⟩, hsize, rename, hrename, hanswer, hanswer'⟩

end Request

/-- A class, and an array of a type that is issued only after it. -/
def Workspace.early : Workspace :=
  ((start .empty (.place (.memory []))).run
    [.intern (.loadedClass ['p', '/', 'C'] .bootstrap), .intern (.array ⟨11⟩)]).2

theorem Workspace.early_reached : early.Reached :=
  ⟨_, _, _, .place _, by simp [IsProper], rfl⟩

namespace Request

def ofClass (className : ClassName) : Request := ⟨⟨⟨9⟩, []⟩, ⟨[.ofClass className], .void⟩⟩

def ofX : Request := ofClass ⟨['x'], by decide⟩

def ofY : Request := ofClass ⟨['y'], by decide⟩

theorem isIssued_early (className : ClassName) :
    (ofClass className).IsIssued Workspace.early.session.arena :=
  ⟨⟨.loadedClass ['p', '/', 'C'] .bootstrap, rfl⟩, fun _ _ hentry => nomatch hentry⟩

theorem types_prefix_build (request : Request) (arena : Arena) (system : LoaderSystem) :
    arena.types <+: (request.build arena system).arena.types :=
  Lookups.types_prefix
    ((LoaderSystem.lookups_within request.view).build request.descriptor arena system)

/-- The array turns into an array of whichever type comes first, so that two missing classes give
it another descriptor in another order. -/
theorem order_matters_to_array_of_unissued_type :
    let ahead := ofX.build Workspace.early.session.arena Workspace.early.system
    let behind := ofY.build ahead.arena ahead.resolver
    let ahead' := ofY.build Workspace.early.session.arena Workspace.early.system
    let behind' := ofX.build ahead'.arena ahead'.resolver
    Workspace.early.Reached ∧ ofX.IsIssued Workspace.early.session.arena ∧
      ofY.IsIssued Workspace.early.session.arena ∧
      ¬ ∃ rename, Workspace.early.session.arena.IsRenaming behind.arena behind'.arena rename := by
  intro ahead behind ahead' behind'
  refine ⟨Workspace.early_reached, isIssued_early _, isIssued_early _, ?_⟩
  rintro ⟨rename, hrename⟩
  have hahead : (ofX.build Workspace.early.session.arena
      Workspace.early.system).arena.descriptor ⟨10⟩ = .ok ['[', 'L', 'x', ';'] := rfl
  have hahead' : (ofY.build Workspace.early.session.arena
      Workspace.early.system).arena.descriptor ⟨10⟩ = .ok ['[', 'L', 'y', ';'] := rfl
  have hlater := types_prefix_build ofY ahead.arena ahead.resolver
  have hlater' := types_prefix_build ofX ahead'.arena ahead'.resolver
  have hissued : Workspace.early.session.arena.Issues ⟨10⟩ := ⟨.array ⟨11⟩, rfl⟩
  have hgrown := hissued.mono
    (types_prefix_build ofX Workspace.early.session.arena Workspace.early.system)
  have hsame := hrename.descriptor ⟨10⟩ (hgrown.mono hlater)
  rw [hrename.fixes ⟨10⟩ hissued] at hsame
  rw [Arena.descriptor_mono hlater hahead, Arena.descriptor_mono hlater' hahead'] at hsame
  cases hsame

end Request
end MethodLinkage
