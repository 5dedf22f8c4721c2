import MethodLinkage.Proofs.ClassPathAnswers
import MethodLinkage.Resolution.LoaderSystem

/-!
# Parent-first search

What a search finds is decided by the answers that the loaders of the chain would
give one by one: the first that is not "not found" counts. Asking leaves all
answers as they are, so this holds at any time during a run of lookups.
-/

namespace MethodLinkage
namespace LoaderSystem

variable {system after : LoaderSystem} {id initiating : LoaderIndex} {name : Text}

/-- What a registered loader's own class path would answer. -/
def answer? (system : LoaderSystem) (id : LoaderIndex) (name : Text) :
    Option (Except LookupError FoundClass) :=
  (system.loader? id).map fun loader => (loader.path.find system.files name).answer

/-- The same delegation chains, and at every loader the same answers. -/
structure SameAnswers (before after : LoaderSystem) : Prop where
  chain : ∀ id, after.chain? id = before.chain? id
  answer : ∀ id name, after.answer? id name = before.answer? id name

theorem SameAnswers.refl (system : LoaderSystem) : SameAnswers system system :=
  ⟨fun _ => rfl, fun _ _ => rfl⟩

theorem SameAnswers.trans {first second third : LoaderSystem} (h : SameAnswers first second)
    (h' : SameAnswers second third) : SameAnswers first third :=
  ⟨fun id => (h'.chain id).trans (h.chain id),
    fun id name => (h'.answer id name).trans (h.answer id name)⟩

theorem loader?_ask {loader : Loader} (h : system.loader? id = some loader) (name : Text)
    (other : LoaderIndex) :
    (system.ask id loader name).2.loader? other =
      if other = id then some { loader with path := (loader.path.find system.files name).after }
      else system.loader? other := by
  have hlt := (List.getElem?_eq_some_iff.mp h).1
  simp only [ask, loader?]
  by_cases hid : other = id
  · simp [hid, hlt]
  · have hnat : id.toNat ≠ other.toNat := by
      intro heq
      cases id
      cases other
      exact hid (congrArg LoaderIndex.mk heq.symm)
    simp [hid, hnat]

theorem sameAnswers_ask {loader : Loader} (h : system.loader? id = some loader) (name : Text) :
    SameAnswers system (system.ask id loader name).2 := by
  constructor
  · intro other
    rw [chain?, chain?, loader?_ask h]
    split
    · next hid => rw [hid, h]; rfl
    · rfl
  · intro other asked
    rw [answer?, answer?, loader?_ask h]
    split
    · next hid =>
      rw [hid, h]
      exact congrArg some (ClassPath.answer_find_after system.files asked name loader.path)
    · rfl

def verdict (system : LoaderSystem) (name : Text) :
    List LoaderIndex → Except ResolverError (Option (FoundClass × LoaderIndex))
  | [] => .ok none
  | id :: rest =>
    match system.answer? id name with
    | none => .error (.unknownLoader id)
    | some (.ok info) => .ok (some (info, id))
    | some (.error .notFound) => system.verdict name rest
    | some (.error cause) => .error (.classPath name id cause)

theorem verdict_congr_of_mem {other : LoaderSystem} {chain : List LoaderIndex}
    (h : ∀ id ∈ chain, other.answer? id name = system.answer? id name) :
    other.verdict name chain = system.verdict name chain := by
  induction chain with
  | nil => rfl
  | cons id rest ih =>
    obtain ⟨hid, hrest⟩ := List.forall_mem_cons.mp h
    rw [verdict, verdict, hid, ih hrest]

theorem verdict_congr (h : SameAnswers system after) (name : Text) (chain : List LoaderIndex) :
    after.verdict name chain = system.verdict name chain :=
  verdict_congr_of_mem fun id _ => h.answer id name

theorem search_spec (system : LoaderSystem) (name : Text) (chain : List LoaderIndex) :
    (system.search name chain).1 = system.verdict name chain ∧
      SameAnswers system (system.search name chain).2 := by
  induction chain generalizing system with
  | nil => exact ⟨rfl, .refl _⟩
  | cons id rest ih =>
    rw [search, verdict]
    cases hloader : system.loader? id with
    | none => simp [answer?, hloader, SameAnswers.refl]
    | some loader =>
      have hasked := sameAnswers_ask hloader name
      have hanswer : system.answer? id name = some (system.ask id loader name).1 := by
        simp [answer?, hloader, ask]
      rw [hanswer]
      dsimp only
      generalize system.ask id loader name = asked at hasked
      obtain ⟨answer, later⟩ := asked
      rcases answer with (_ | _ | _) | info
      -- the rest is asked of the later system, which would answer as this one does
      · obtain ⟨hrest, hsame⟩ := ih later
        exact ⟨hrest.trans (verdict_congr hasked name rest), hasked.trans hsame⟩
      all_goals exact ⟨rfl, hasked⟩

theorem verdict_append {above : List LoaderIndex}
    (habove : ∀ passed ∈ above, system.answer? passed name = some (.error .notFound))
    (rest : List LoaderIndex) : system.verdict name (above ++ rest) = system.verdict name rest := by
  induction above with
  | nil => rfl
  | cons first above ih =>
    obtain ⟨hfirst, hrest⟩ := List.forall_mem_cons.mp habove
    rw [List.cons_append, verdict, hfirst]
    exact ih hrest

theorem exists_first_answer (system : LoaderSystem) (name : Text) (chain : List LoaderIndex) :
    (∀ passed ∈ chain, system.answer? passed name = some (.error .notFound)) ∨
      ∃ above id below, chain = above ++ id :: below ∧
        (∀ passed ∈ above, system.answer? passed name = some (.error .notFound)) ∧
        system.answer? id name ≠ some (.error .notFound) := by
  induction chain with
  | nil => exact .inl (List.forall_mem_nil _)
  | cons first rest ih =>
    by_cases hfirst : system.answer? first name = some (.error .notFound)
    · rcases ih with hrest | ⟨above, id, below, rfl, habove, hid⟩
      · exact .inl (List.forall_mem_cons.mpr ⟨hfirst, hrest⟩)
      · exact .inr ⟨first :: above, id, below, rfl,
          List.forall_mem_cons.mpr ⟨hfirst, habove⟩, hid⟩
    · exact .inr ⟨[], first, rest, rfl, List.forall_mem_nil _, hfirst⟩

theorem verdict_of_missing {chain : List LoaderIndex}
    (h : ∀ passed ∈ chain, system.answer? passed name = some (.error .notFound)) :
    system.verdict name chain = .ok none := by
  have hnil := verdict_append h []
  rwa [List.append_nil] at hnil

theorem verdict_eq_found_iff {chain : List LoaderIndex} {info : FoundClass} :
    system.verdict name chain = .ok (some (info, id)) ↔
      ∃ above below, chain = above ++ id :: below ∧
        (∀ passed ∈ above, system.answer? passed name = some (.error .notFound)) ∧
        system.answer? id name = some (.ok info) := by
  constructor
  · intro h
    rcases exists_first_answer system name chain with hall | ⟨above, first, below, rfl, habove, hid⟩
    · rw [verdict_of_missing hall] at h
      cases h
    · rw [verdict_append habove, verdict] at h
      split at h
      · cases h
      · next hanswer =>
        cases h
        exact ⟨above, below, rfl, habove, hanswer⟩
      · next hanswer => exact absurd hanswer hid
      · cases h
  · intro ⟨above, below, hchain, habove, hfound⟩
    rw [hchain, verdict_append habove, verdict, hfound]

theorem verdict_eq_missing_iff {chain : List LoaderIndex} :
    system.verdict name chain = .ok none ↔
      ∀ passed ∈ chain, system.answer? passed name = some (.error .notFound) := by
  constructor
  · intro h
    rcases exists_first_answer system name chain with hall | ⟨above, first, below, rfl, habove, hid⟩
    · exact hall
    · rw [verdict_append habove, verdict] at h
      split at h
      · cases h
      · cases h
      · next hanswer => exact absurd hanswer hid
      · cases h
  · exact verdict_of_missing

theorem verdict_eq_error_iff {chain : List LoaderIndex} {error : ResolverError} :
    system.verdict name chain = .error error ↔
      ∃ above id below, chain = above ++ id :: below ∧
        (∀ passed ∈ above, system.answer? passed name = some (.error .notFound)) ∧
        ((system.answer? id name = none ∧ error = .unknownLoader id) ∨
          ∃ cause, cause ≠ .notFound ∧ system.answer? id name = some (.error cause) ∧
            error = .classPath name id cause) := by
  constructor
  · intro h
    rcases exists_first_answer system name chain with hall | ⟨above, first, below, rfl, habove, hid⟩
    · rw [verdict_of_missing hall] at h
      cases h
    · refine ⟨above, first, below, rfl, habove, ?_⟩
      rw [verdict_append habove, verdict] at h
      split at h
      · next hanswer =>
        cases h
        exact .inl ⟨hanswer, rfl⟩
      · cases h
      · next hanswer => exact absurd hanswer hid
      · next cause hcause hanswer =>
        cases h
        exact .inr ⟨cause, hcause, hanswer, rfl⟩
  · intro ⟨above, id, below, hchain, habove, hfails⟩
    rw [hchain, verdict_append habove, verdict]
    rcases hfails with ⟨hnone, herror⟩ | ⟨cause, hcause, hanswer, herror⟩
    · rw [hnone, herror]
    · rw [hanswer, herror]
      cases cause with
      | notFound => exact absurd rfl hcause
      | unreadable => rfl
      | other => rfl

/-- The outcome of the search from an initiating loader, from the bootstrap loader down. -/
def sight (system : LoaderSystem) (initiating : LoaderIndex) (name : Text) :
    Except ResolverError (Option (FoundClass × LoaderIndex)) :=
  match system.chain? initiating with
  | none => .error (.unknownLoader initiating)
  | some chain => system.verdict name chain.reverse

theorem sight_congr (h : SameAnswers system after) (initiating : LoaderIndex) (name : Text) :
    after.sight initiating name = system.sight initiating name := by
  rw [sight, sight, h.chain]
  split
  · rfl
  · exact verdict_congr h name _

theorem sight_congr_of_chain {other : LoaderSystem} {chain : List LoaderIndex}
    (hchain : system.chain? initiating = some chain)
    (hchain' : other.chain? initiating = some chain)
    (h : ∀ id ∈ chain, other.answer? id name = system.answer? id name) :
    other.sight initiating name = system.sight initiating name := by
  rw [sight, sight, hchain, hchain']
  apply verdict_congr_of_mem
  intro id hid
  exact h id (List.mem_reverse.mp hid)

theorem load_spec (system : LoaderSystem) (arena : Arena) (initiating : LoaderIndex)
    (name : Text) :
    ∃ after, SameAnswers system after ∧
      system.load arena initiating name =
        match system.sight initiating name with
        | .error error => .error error arena after
        | .ok none => .ok none arena after
        | .ok (some (info, loader)) =>
          (Outcome.ofArena (arena.intern (.loadedClass info.name loader)) after).map some := by
  rw [load, sight]
  cases hchain : system.chain? initiating with
  | none => exact ⟨system, .refl _, rfl⟩
  | some chain =>
    obtain ⟨hanswer, hsame⟩ := search_spec system name chain.reverse
    refine ⟨(system.search name chain.reverse).2, hsame, ?_⟩
    dsimp only
    rw [← hanswer]
    generalize system.search name chain.reverse = searched
    obtain ⟨_ | _ | ⟨info, loader⟩, later⟩ := searched <;> rfl

theorem element_congr {other : LoaderSystem} (arena : Arena) (name : Text) (target : Target)
    (h : ∀ className, other.sight initiating className = system.sight initiating className) :
    (other.element arena initiating name target).answer =
        (system.element arena initiating name target).answer ∧
      (other.element arena initiating name target).arena =
        (system.element arena initiating name target).arena := by
  cases target with
  | classNamed className =>
    obtain ⟨_, -, hload⟩ := load_spec system arena initiating className
    obtain ⟨_, -, hload'⟩ := load_spec other arena initiating className
    rw [element, element, hload, hload', h]
    rcases system.sight initiating className with error | _ | ⟨info, definer⟩ <;> exact ⟨rfl, rfl⟩
  | single | malformed => exact ⟨rfl, rfl⟩

theorem resolve_congr {other : LoaderSystem} {arena : Arena} {view view' : Viewpoint}
    (hentry : view'.references.lookup name = view.references.lookup name)
    (haccessing : arena.accessingLoader view'.accessing = arena.accessingLoader view.accessing)
    (hsight : ∀ loader, arena.accessingLoader view.accessing = .ok loader → ∀ className,
      other.sight loader className = system.sight loader className) :
    (other.resolve arena view' name).answer = (system.resolve arena view name).answer ∧
      (other.resolve arena view' name).arena = (system.resolve arena view name).arena := by
  rw [resolve, resolve, hentry, haccessing]
  cases view.references.lookup name with
  | some id => exact ⟨rfl, rfl⟩
  | none =>
    cases hloader : arena.accessingLoader view.accessing with
    | error fault => exact ⟨rfl, rfl⟩
    | ok loader =>
      dsimp only
      obtain ⟨hanswer, harena⟩ := element_congr arena name (Target.ofName name).2
        (hsight loader hloader)
      generalize system.element arena loader name (Target.ofName name).2 = outcome
        at hanswer harena ⊢
      generalize other.element arena loader name (Target.ofName name).2 = outcome'
        at hanswer harena ⊢
      obtain ⟨answer, larger, after⟩ := outcome
      obtain ⟨answer', larger', after'⟩ := outcome'
      dsimp only at hanswer harena
      subst hanswer harena
      rcases answer' with failure | _ | id
      · exact ⟨rfl, rfl⟩
      · exact ⟨rfl, rfl⟩
      · exact ⟨rfl, rfl⟩

end LoaderSystem
end MethodLinkage
