import MethodLinkage.Proofs.BuildOutcome
import MethodLinkage.Proofs.DelegationChains

/-!
# Chains found by their links

All that has to be kept of a loader's place is its parent: the chain is found by
going from parent to parent until there is none. Since a loader is registered below
one that is registered already, this takes no more turns than there are loaders
before it, and finds the chain that is kept with the loader.
-/

namespace MethodLinkage

/-- The parent of each loader by number; the bootstrap loader has none. -/
structure ParentLinks where
  parents : List (Option LoaderIndex)

namespace ParentLinks

def start : ParentLinks := ⟨[none]⟩

def add (links : ParentLinks) (parent : LoaderIndex) : Except Fault (LoaderIndex × ParentLinks) :=
  if parent.toNat < links.parents.length then
    if links.parents.length < numberLimit then
      .ok (⟨links.parents.length⟩, ⟨links.parents ++ [some parent]⟩)
    else .error .tooManyLoaders
  else .error (.unregisteredParent parent)

/-- Registers loaders one after another; a call that is refused adds nothing. -/
def addEach (links : ParentLinks) (parents : List LoaderIndex) : ParentLinks :=
  parents.foldl (fun links parent =>
    match links.add parent with
    | .ok (_, extended) => extended
    | .error _ => links) links

def parentOf (links : ParentLinks) (id : LoaderIndex) :
    Except ResolverError (Option LoaderIndex) :=
  match links.parents[id.toNat]? with
  | none => .error (.unknownLoader id)
  | some parent => .ok parent

/-- Adds a parent and those above it to a chain. Without an answer the end is not reached in so many
turns. -/
def climb (links : ParentLinks) :
    Nat → Option LoaderIndex → List LoaderIndex → Option (Except ResolverError (List LoaderIndex))
  | _, none, chain => some (.ok chain)
  | 0, some _, _ => none
  | turns + 1, some parent, chain =>
    match links.parentOf parent with
    | .error error => some (.error error)
    | .ok above => links.climb turns above (chain ++ [parent])

def chainWithin (links : ParentLinks) (turns : Nat) (id : LoaderIndex) :
    Option (Except ResolverError (List LoaderIndex)) :=
  match links.parentOf id with
  | .error error => some (.error error)
  | .ok parent => links.climb turns parent [id]

end ParentLinks

namespace LoaderSystem

variable {system extended after : LoaderSystem} {id parent member missing : LoaderIndex}
  {chain ids above : List LoaderIndex}

def links (system : LoaderSystem) : ParentLinks :=
  ⟨system.loaders.map fun loader => loader.ancestors.head?⟩

theorem links_start (files : FileTree) (bootstrap : ClassPath) :
    (start files bootstrap).links = .start := rfl

theorem chain?_eq_none_iff : system.chain? id = none ↔ system.loaders.length ≤ id.toNat := by
  rw [chain?, Option.map_eq_none_iff, loader?, List.getElem?_eq_none_iff]

theorem exists_chain?_iff : (∃ chain, system.chain? id = some chain) ↔
    id.toNat < system.loaders.length := by
  rw [← Option.ne_none_iff_exists', ne_eq, chain?_eq_none_iff, Nat.not_le]

theorem getElem?_links (system : LoaderSystem) (place : Nat) :
    system.links.parents[place]? = (system.chain? ⟨place⟩).map fun chain => chain.tail.head? := by
  rw [links, List.getElem?_map, chain?, Option.map_map]
  rfl

theorem links_of_chain? (hsame : ∀ id, after.chain? id = system.chain? id) :
    after.links = system.links := by
  apply congrArg ParentLinks.mk
  apply List.ext_getElem?
  intro place
  exact (after.getElem?_links place).trans ((congrArg _ (hsame ⟨place⟩)).trans
    (system.getElem?_links place).symm)

theorem parentOf_links_of_chain? (h : system.chain? id = some (id :: above)) :
    system.links.parentOf id = .ok above.head? := by
  rw [ParentLinks.parentOf, getElem?_links, h]
  rfl

theorem parentOf_links_of_none (h : system.chain? id = none) :
    system.links.parentOf id = .error (.unknownLoader id) := by
  rw [ParentLinks.parentOf, getElem?_links, h]
  rfl

theorem links_addLoader (system : LoaderSystem) (path : ClassPath) (parent : LoaderIndex) :
    (system.addLoader path parent).map (fun added => (added.1, added.2.links)) =
      system.links.add parent := by
  have hlength : system.links.parents.length = system.loaders.length := List.length_map _
  rw [addLoader, ParentLinks.add, hlength]
  cases hchain : system.chain? parent with
  | none =>
    rw [if_neg (Nat.not_lt.mpr (chain?_eq_none_iff.mp hchain))]
    rfl
  | some chain =>
    obtain ⟨loader, -, rfl⟩ := exists_loader_of_chain? hchain
    rw [if_pos (exists_chain?_iff.mp ⟨_, hchain⟩)]
    dsimp only
    split
    · simp [Except.map, links]
    · rfl

theorem IsRooted.climb_links (h : system.IsRooted) {turns : Nat} {below : List LoaderIndex}
    (hchain : system.chain? id = some (below ++ above)) (hturns : above.length ≤ turns) :
    system.links.climb turns above.head? below = some (.ok (below ++ above)) := by
  induction above generalizing turns below with
  | nil =>
    rw [List.append_nil]
    cases turns <;> rfl
  | cons parent above ih =>
    obtain ⟨turns, rfl⟩ : ∃ n, turns = n + 1 := ⟨turns - 1, by simp at hturns; omega⟩
    have hparent := parentOf_links_of_chain? (h.chain?_of_append hchain)
    rw [List.head?_cons, ParentLinks.climb, hparent]
    rw [List.append_cons below parent above] at hchain ⊢
    exact ih hchain (Nat.le_of_succ_le_succ hturns)

theorem length_le_of_descends
    (h : (id :: above).Pairwise fun loader above => above.toNat < loader.toNat) :
    above.length ≤ id.toNat := by
  induction above generalizing id with
  | nil => exact Nat.zero_le _
  | cons parent above ih =>
    obtain ⟨hbelow, hrest⟩ := List.pairwise_cons.mp h
    exact Nat.succ_le_of_lt (Nat.lt_of_le_of_lt (ih hrest) (hbelow parent List.mem_cons_self))

theorem IsRooted.chainWithin_links (h : system.IsRooted) (hchain : system.chain? id = some chain)
    {turns : Nat} (hturns : id.toNat ≤ turns) :
    system.links.chainWithin turns id = some (.ok chain) := by
  have hdescends := (h.delegates hchain).2
  obtain ⟨loader, -, rfl⟩ := exists_loader_of_chain? hchain
  have hwhole : system.chain? id = some ([id] ++ loader.ancestors) := hchain
  rw [ParentLinks.chainWithin, parentOf_links_of_chain? hchain]
  exact h.climb_links hwhole (Nat.le_trans (length_le_of_descends hdescends) hturns)

theorem chainWithin_links_of_none (h : system.chain? id = none) (turns : Nat) :
    system.links.chainWithin turns id = some (.error (.unknownLoader id)) := by
  rw [ParentLinks.chainWithin, parentOf_links_of_none h]

theorem Delegates.exists_append (h : system.Delegates id chain) :
    ∃ below, chain = below ++ [.bootstrap] := by
  induction h with
  | bootstrap _ _ => exact ⟨[], rfl⟩
  | @child id _ _ _ _ ih =>
    obtain ⟨below, rfl⟩ := ih
    exact ⟨id :: below, rfl⟩

theorem IsRooted.lt_of_mem (h : system.IsRooted) (hchain : system.chain? id = some chain)
    (hmem : member ∈ chain) : member.toNat < system.loaders.length := by
  obtain ⟨below, above, rfl⟩ := List.append_of_mem hmem
  exact exists_chain?_iff.mp ⟨_, h.chain?_of_append hchain⟩

theorem IsRooted.isLinked (h : system.IsRooted) : system.IsLinked := by
  intro id loader hloader ancestor hmem
  have hchain : system.chain? id = some (id :: loader.ancestors) := by
    rw [chain?, hloader]
    rfl
  exact (List.pairwise_cons.mp (h.delegates hchain).2).1 ancestor hmem

/-- What loaders are linked to is only added to, by registering loaders, and chains stay rooted. -/
structure Registers (system after : LoaderSystem) : Prop where
  links : ∃ parents, after.links = system.links.addEach parents
  rooted : system.IsRooted → after.IsRooted

theorem registers_of_chain? (hsame : ∀ id, after.chain? id = system.chain? id) :
    system.Registers after :=
  ⟨⟨[], links_of_chain? hsame⟩, isRooted_of_chain? hsame⟩

theorem registers_addLoader {path : ClassPath}
    (h : system.addLoader path parent = .ok (id, extended)) : system.Registers extended := by
  refine ⟨⟨[parent], ?_⟩, isRooted_addLoader h⟩
  have hadd := system.links_addLoader path parent
  rw [h] at hadd
  rw [ParentLinks.addEach, List.foldl_cons, List.foldl_nil, ← hadd]
  rfl

theorem Registers.trans {last : LoaderSystem} (h : system.Registers after)
    (h' : after.Registers last) : system.Registers last := by
  obtain ⟨⟨parents, hlinks⟩, hrooted⟩ := h
  obtain ⟨⟨later, hlater⟩, hrooted'⟩ := h'
  refine ⟨⟨parents ++ later, ?_⟩, fun h => hrooted' (hrooted h)⟩
  rw [hlater, hlinks, ParentLinks.addEach, ParentLinks.addEach, ParentLinks.addEach,
    List.foldl_append]

theorem spans_registers :
    Workspace.Spans (fun _ => True) fun before after => before.2.Registers after.2 where
  within view :=
    { refl := fun _ => registers_of_chain? fun _ => rfl
      trans := .trans
      resolve := fun arena system _ name _ =>
        registers_of_chain? (resolve_lookups system arena view name).sameAnswers.chain
      placeholder := fun _ _ _ _ => registers_of_chain? fun _ => rfl }
  still change _ := by
    cases change with
    | lookup step => exact registers_of_chain? (Lookups.sameAnswers (.single step)).chain
    | addLoader _ hadd => exact registers_addLoader hadd
    | insertClass => exact registers_of_chain? (chain?_insertClass _ _ _)
    | intern | setFiles | forgetProbes => exact registers_of_chain? fun _ => rfl
  addLoader _ hadd _ := registers_addLoader hadd
  intern _ _ _ _ := registers_of_chain? fun _ => rfl
  arrayOver _ _ _ _ := registers_of_chain? fun _ => rfl
  resolve _ view arena system :=
    registers_of_chain? (resolve_lookups system arena view _).sameAnswers.chain

theorem ofArena_ne_error {α β : Type} {result : Except Fault α × Arena} {f : α → β}
    {error : ResolverError} :
    ((Outcome.ofArena result system).map f).answer ≠ .error (.error error) := by
  obtain ⟨fault | value, arena⟩ := result <;> exact fun h => (by cases h)

theorem load_eq_error_iff {arena : Arena} {name : Text} {error : ResolverError} :
    (system.load arena id name).answer = .error (.error error) ↔
      system.sight id name = .error error := by
  obtain ⟨after, -, hload⟩ := load_spec system arena id name
  rw [hload]
  rcases system.sight id name with cause | _ | ⟨info, definer⟩
  · simp [Outcome.error]
  · simp [Outcome.ok]
  · simp [ofArena_ne_error]

theorem element_eq_error_iff {arena : Arena} {name : Text} {target : Target}
    {error : ResolverError} :
    (system.element arena id name target).answer = .error (.error error) ↔
      ∃ className, target = .classNamed className ∧ system.sight id className = .error error := by
  cases target with
  | classNamed className => simp [element, load_eq_error_iff]
  | single | malformed => simp [element, Outcome.ok, Outcome.fault]

theorem resolve_eq_error_iff {arena : Arena} {view : Viewpoint} {name : Text}
    {error : ResolverError} :
    (system.resolve arena view name).answer = .error (.error error) ↔
      view.references.lookup name = none ∧ ∃ loader className,
        arena.definingLoader view.accessing = .ok (some loader) ∧
        (Target.ofName name).2 = .classNamed className ∧
        system.sight loader className = .error error := by
  rw [resolve]
  cases view.references.lookup name with
  | some id => simp [Outcome.ok]
  | none =>
    cases hloader : arena.accessingLoader view.accessing with
    | error fault =>
      have hnone : ∀ loader, arena.definingLoader view.accessing ≠ .ok (some loader) := by
        intro loader hdefines
        rw [accessingLoader_of_definingLoader hdefines] at hloader
        cases hloader
      simp [Outcome.fault, hnone]
    | ok loader =>
      have helement := @element_eq_error_iff system loader arena name (Target.ofName name).2 error
      rw [definingLoader_of_accessingLoader hloader]
      dsimp only
      generalize system.element arena loader name (Target.ofName name).2 = outcome at helement ⊢
      obtain ⟨failure | _ | id, larger, after⟩ := outcome
      · simpa [Outcome.andThen] using helement
      · simpa [Outcome.andThen, Outcome.ok] using helement
      · simpa [Outcome.andThen, ofArena_ne_error] using helement

theorem IsRooted.sight_eq_unknownLoader_iff (h : system.IsRooted) {initiating : LoaderIndex}
    {name : Text} :
    system.sight initiating name = .error (.unknownLoader id) ↔
      initiating = id ∧ system.chain? id = none := by
  rw [sight_eq_error_iff h.isLinked, chain?_eq_none_iff]
  constructor
  · intro hfails
    cases hfails with
    | unregistered hloader => exact ⟨rfl, List.getElem?_eq_none_iff.mp hloader⟩
  · rintro ⟨rfl, hlength⟩
    exact .unregistered (List.getElem?_eq_none_iff.mpr hlength)

theorem IsRooted.resolve_eq_unknownLoader_iff (h : system.IsRooted) {arena : Arena}
    {view : Viewpoint} {name : Text} :
    (system.resolve arena view name).answer = .error (.error (.unknownLoader id)) ↔
      view.references.lookup name = none ∧
        arena.definingLoader view.accessing = .ok (some id) ∧ system.chain? id = none ∧
        ∃ className, (Target.ofName name).2 = .classNamed className := by
  rw [resolve_eq_error_iff]
  simp only [h.sight_eq_unknownLoader_iff]
  constructor
  · rintro ⟨hentry, _, className, hloader, htarget, rfl, hnone⟩
    exact ⟨hentry, hloader, hnone, className, htarget⟩
  · rintro ⟨hentry, hloader, hnone, className, htarget⟩
    exact ⟨hentry, id, className, hloader, htarget, rfl, hnone⟩

/-- After any commands, refused ones among them, the links are those of loaders that were registered
one after another, and registering another acts on the links alone. From a registered loader they
lead to the bootstrap loader along numbers that get smaller, in no more turns than there are loaders
before it; a loader met on the way goes on with the rest, and nothing that follows changes the
chain. A loader that is not registered has no chain, and no loader is added below it. In the midst
of any lookups, resolving a name reports such a loader only if it is the one of the accessing
type. -/
theorem chains_lead_to_bootstrap (files : FileTree) (bootstrap : ClassPath)
    (commands : List Command) :
    let workspace := ((Workspace.start files bootstrap).run commands).2
    let system := workspace.system
    (∃ parents, system.links = ParentLinks.start.addEach parents) ∧
    (∀ path parent, (system.addLoader path parent).map (fun added => (added.1, added.2.links)) =
      system.links.add parent) ∧
    (∀ id : LoaderIndex, id.toNat < system.loaders.length → ∃ chain,
      system.chain? id = some chain ∧
      (∀ turns, id.toNat ≤ turns → system.links.chainWithin turns id = some (.ok chain)) ∧
      (∃ above, chain = id :: above) ∧ (∃ below, chain = below ++ [.bootstrap]) ∧
      (chain.Pairwise fun loader above => above.toNat < loader.toNat) ∧
      (∀ member ∈ chain, member.toNat < system.loaders.length) ∧
      (∀ below member above, chain = below ++ member :: above →
        system.chain? member = some (member :: above)) ∧
      ∀ later, (workspace.run later).2.system.chain? id = some chain) ∧
    (∀ id : LoaderIndex, system.loaders.length ≤ id.toNat → system.chain? id = none ∧
      (∀ turns, system.links.chainWithin turns id = some (.error (.unknownLoader id))) ∧
      ∀ path, workspace.perform (.addLoader path id) =
        workspace.refuse (.failure (.fault (.unregisteredParent id)))) ∧
    ∀ arena larger after, Lookups (arena, system) (larger, after) → ∀ view name id,
      (after.resolve larger view name).answer = .error (.error (.unknownLoader id)) ↔
        view.references.lookup name = none ∧
          larger.definingLoader view.accessing = .ok (some id) ∧
          system.loaders.length ≤ id.toNat ∧
          ∃ className, (Target.ofName name).2 = .classNamed className := by
  intro workspace system
  obtain ⟨hlinks, hrooted⟩ : (start files bootstrap).Registers system :=
    spans_registers.run (Workspace.start files bootstrap) fun _ _ => trivial
  rw [links_start] at hlinks
  replace hrooted : system.IsRooted := hrooted (isRooted_start files bootstrap)
  refine ⟨hlinks, system.links_addLoader, fun id hid => ?_, fun id hid => ?_,
    fun arena larger after hlookups view name id => ?_⟩
  · obtain ⟨chain, hchain⟩ := exists_chain?_iff.mpr hid
    obtain ⟨hdelegates, hdescends⟩ := hrooted.delegates hchain
    obtain ⟨loader, -, habove⟩ := exists_loader_of_chain? hchain
    refine ⟨chain, hchain, fun _ => hrooted.chainWithin_links hchain, ⟨_, habove⟩,
      hdelegates.exists_append, hdescends, fun _ => hrooted.lt_of_mem hchain, ?_,
      fun later => keepsChains_run workspace later id chain hchain⟩
    rintro below member above rfl
    exact hrooted.chain?_of_append hchain
  · have hnone := chain?_eq_none_iff.mpr hid
    refine ⟨hnone, chainWithin_links_of_none hnone, fun path => ?_⟩
    have hrefused : system.addLoader path id = .error (.unregisteredParent id) := by
      rw [addLoader, hnone]
    dsimp only [Workspace.perform]
    rw [hrefused]
  · have hsame := hlookups.sameAnswers.chain
    rw [(isRooted_of_chain? hsame hrooted).resolve_eq_unknownLoader_iff, hsame, chain?_eq_none_iff]

def generations : List Command :=
  [.addLoader (.place (.memory [])) .bootstrap, .addLoader (.place (.memory [])) ⟨7⟩,
    .addLoader (.place (.memory [])) ⟨1⟩, .intern (.loadedClass ['p', '/', 'C'] ⟨7⟩)]

theorem grandchild_reaches_bootstrap :
    let workspace :=
      ((Workspace.start .empty (.place (.memory []))).run generations).2
    let system := workspace.system
    system.loaders.length = 3 ∧ system.chain? ⟨2⟩ = some [⟨2⟩, ⟨1⟩, .bootstrap] ∧
      system.links.chainWithin 2 ⟨2⟩ = some (.ok [⟨2⟩, ⟨1⟩, .bootstrap]) ∧
      system.chain? ⟨1⟩ = some [⟨1⟩, .bootstrap] ∧
      system.links.chainWithin 0 ⟨7⟩ = some (.error (.unknownLoader ⟨7⟩)) ∧
      (system.resolve workspace.session.arena ⟨⟨9⟩, []⟩ ['x']).answer =
        .error (.error (.unknownLoader ⟨7⟩)) := by
  intro workspace system
  obtain ⟨-, -, hregistered, hmissing, hresolve⟩ := chains_lead_to_bootstrap
    .empty (.place (.memory [])) generations
  obtain ⟨chain, hchain, hwithin, -, -, -, -, hrest, -⟩ := hregistered ⟨2⟩ (by decide)
  obtain rfl : [⟨2⟩, ⟨1⟩, .bootstrap] = chain := Option.some.inj hchain
  exact ⟨rfl, hchain, hwithin 2 (Nat.le_refl 2), hrest [⟨2⟩] ⟨1⟩ [.bootstrap] rfl,
    (hmissing ⟨7⟩ (by decide)).2.1 0,
    (hresolve _ _ _ .refl ⟨⟨9⟩, []⟩ ['x'] ⟨7⟩).mpr ⟨rfl, rfl, by decide, ['x'], rfl⟩⟩

end LoaderSystem
end MethodLinkage
