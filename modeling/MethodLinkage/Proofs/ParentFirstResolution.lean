import MethodLinkage.Proofs.BuildOutcome
import MethodLinkage.Proofs.DelegationChains
import MethodLinkage.Proofs.SignatureSpelling

/-!
# Parent-first resolution

What resolving a name answers, and which loaders are asked on the way. A name that
the table has is answered from there, and an array of primitives needs no loader.
For a class, or an array of one, the loaders of the delegation chain are asked from
the bootstrap loader down, each once, up to the first that has the class or fails.
-/

namespace MethodLinkage
namespace LoaderSystem

variable {system after : LoaderSystem} {arena : Arena} {view : Viewpoint}
  {id initiating : LoaderIndex} {name : Text} {ids above below chain : List LoaderIndex}

def askEach (name : Text) : List LoaderIndex → LoaderSystem → LoaderSystem
  | [], system => system
  | id :: rest, system =>
    match system.loader? id with
    | none => askEach name rest system
    | some loader => askEach name rest (system.ask id loader name).2

def notes (system : LoaderSystem) (name : Text) (id : LoaderIndex) : List Probe :=
  match system.loader? id with
  | none => []
  | some loader => (loader.path.find system.files name).probes

/-- The given loaders have been asked in order and once each, and no others. -/
structure Asks (system : LoaderSystem) (name : Text) (ids : List LoaderIndex)
    (after : LoaderSystem) : Prop where
  once : ids.Nodup
  left : after = askEach name ids system
  noted : after.probes = system.probes ++ ids.flatMap (system.notes name)
  others : ∀ id, id ∉ ids → after.loader? id = system.loader? id

theorem askEach_append (name : Text) (ids later : List LoaderIndex) (system : LoaderSystem) :
    askEach name (ids ++ later) system = askEach name later (askEach name ids system) := by
  induction ids generalizing system with
  | nil => rfl
  | cons id rest ih =>
    simp only [List.cons_append, askEach]
    split <;> exact ih _

theorem sameAnswers_askEach (name : Text) (ids : List LoaderIndex) (system : LoaderSystem) :
    SameAnswers system (askEach name ids system) := by
  induction ids generalizing system with
  | nil => exact .refl _
  | cons id rest ih =>
    rw [askEach]
    split
    · exact ih system
    · next loader hloader => exact (sameAnswers_ask hloader name).trans (ih _)

theorem loader?_ask_of_ne {loader : Loader} {other : LoaderIndex}
    (h : system.loader? id = some loader) (name : Text) (hne : other ≠ id) :
    (system.ask id loader name).2.loader? other = system.loader? other := by
  rw [loader?_ask h, if_neg hne]

theorem asks_askEach (name : Text) (system : LoaderSystem) (h : ids.Nodup) :
    system.Asks name ids (askEach name ids system) := by
  refine ⟨h, rfl, ?_, ?_⟩
  · induction ids generalizing system with
    | nil => simp [askEach]
    | cons id rest ih =>
      obtain ⟨hid, hrest⟩ := List.nodup_cons.mp h
      rw [askEach]
      cases hloader : system.loader? id with
      | none =>
        have hnotes : system.notes name id = [] := by rw [notes, hloader]
        dsimp only
        rw [ih system hrest, List.flatMap_cons, hnotes, List.nil_append]
      | some loader =>
        have hnotes : system.notes name id = (loader.path.find system.files name).probes := by
          rw [notes, hloader]
        -- the others are as they were, so they will note the same
        have hlater : ∀ other ∈ rest,
            (system.ask id loader name).2.notes name other = system.notes name other := by
          intro other hother
          have hne : other ≠ id := fun heq => hid (heq ▸ hother)
          rw [notes, notes, loader?_ask_of_ne hloader name hne]
          rfl
        dsimp only
        rw [ih _ hrest, List.flatMap_cons, hnotes, List.flatMap_congr hlater]
        simp [ask]
  · intro other hother
    induction ids generalizing system with
    | nil => rfl
    | cons id rest ih =>
      obtain ⟨hne, hnot⟩ := not_or.mp (mt List.mem_cons.mpr hother)
      rw [askEach]
      split
      · exact ih system (List.nodup_cons.mp h).2 hnot
      · next loader hloader =>
        rw [ih _ (List.nodup_cons.mp h).2 hnot, loader?_ask_of_ne hloader name hne]

theorem exists_ask {answer : Except LookupError FoundClass}
    (h : system.answer? id name = some answer) (above : List LoaderIndex) :
    ∃ loader, (askEach name above system).loader? id = some loader ∧
      (askEach name above system).ask id loader name =
        (answer, askEach name (above ++ [id]) system) := by
  have hsame := sameAnswers_askEach name above system
  obtain ⟨loader, hloader, hanswer⟩ := Option.map_eq_some_iff.mp ((hsame.answer id name).trans h)
  refine ⟨loader, hloader, ?_⟩
  rw [askEach_append, askEach, hloader, ← hanswer]
  rfl

theorem search_append
    (h : ∀ passed ∈ above, system.answer? passed name = some (.error .notFound))
    (rest : List LoaderIndex) :
    system.search name (above ++ rest) = (askEach name above system).search name rest := by
  induction above generalizing system with
  | nil => rfl
  | cons first above ih =>
    obtain ⟨hfirst, habove⟩ := List.forall_mem_cons.mp h
    obtain ⟨loader, hloader, hask⟩ := exists_ask hfirst []
    dsimp only [askEach] at hloader hask
    rw [List.cons_append, search, askEach, hloader]
    dsimp only
    rw [hask]
    dsimp only
    apply ih
    intro passed hpassed
    rw [← habove passed hpassed]
    exact (sameAnswers_askEach name [first] system).answer passed name

theorem search_of_missing
    (h : ∀ passed ∈ chain, system.answer? passed name = some (.error .notFound)) :
    system.search name chain = (.ok none, askEach name chain system) := by
  have hall := search_append h []
  rwa [List.append_nil] at hall

theorem search_of_found {info : FoundClass}
    (habove : ∀ passed ∈ above, system.answer? passed name = some (.error .notFound))
    (hfound : system.answer? id name = some (.ok info)) (below : List LoaderIndex) :
    system.search name (above ++ id :: below) =
      (.ok (some (info, id)), askEach name (above ++ [id]) system) := by
  obtain ⟨loader, hloader, hask⟩ := exists_ask hfound above
  rw [search_append habove, search, hloader]
  dsimp only
  rw [hask]

theorem search_of_failure {cause : LookupError} (hcause : cause ≠ .notFound)
    (habove : ∀ passed ∈ above, system.answer? passed name = some (.error .notFound))
    (hfails : system.answer? id name = some (.error cause)) (below : List LoaderIndex) :
    system.search name (above ++ id :: below) =
      (.error (.classPath name id cause), askEach name (above ++ [id]) system) := by
  obtain ⟨loader, hloader, hask⟩ := exists_ask hfails above
  rw [search_append habove, search, hloader]
  dsimp only
  rw [hask]
  cases cause with
  | notFound => exact absurd rfl hcause
  | unreadable | other => rfl

/-- Resolving the name of an element answers from the table without asking anyone; an array of
primitives asks nobody either. For a class or its arrays the chain is asked from the bootstrap
loader down, each loader once, and the first answer other than "not found" decides. What is found
is interned, for which there may be too few numbers. -/
theorem resolves_parent_first (harena : arena.Reached) (hsystem : system.Reached)
    (view : Viewpoint) (hloader : arena.definingLoader view.accessing = .ok (some initiating))
    {loader : Loader} (hregistered : system.loader? initiating = some loader) (type : FieldType)
    (hname : (Element.field type).kind = .reference name) :
    (∀ id, view.references.lookup name = some id →
      system.resolve arena view name = .ok (.found id) arena system) ∧
    (view.references.lookup name = none →
      (∀ base, type.base = .primitive base →
        let interned := arena.arrayOver (.ofPrimitive base) type.dimensions
        system.resolve arena view name = (Outcome.ofArena interned system).map .found ∧
          ((∃ array, interned.1 = .ok array) ∨
            arena.RunsOut type.dimensions .arenaFull interned)) ∧
      ∀ className, type.base = .object className → ∃ chain, system.Delegates initiating chain ∧
        (∀ id ∈ chain, ∃ answer, system.answer? id className.text = some answer) ∧
        ((∀ id ∈ chain, system.answer? id className.text = some (.error .notFound)) →
          ∃ after, system.Asks className.text chain.reverse after ∧
            system.resolve arena view name = .ok (.missing name) arena after) ∧
        ∀ above id below, chain.reverse = above ++ id :: below →
          (∀ passed ∈ above, system.answer? passed className.text = some (.error .notFound)) →
          ∃ after, system.Asks className.text (above ++ [id]) after ∧
            (∀ info, system.answer? id className.text = some (.ok info) →
              let interned := (arena.intern (.loadedClass className.text id)).andThen
                fun component larger => larger.arrayOver component type.dimensions
              system.resolve arena view name = (Outcome.ofArena interned after).map .found ∧
                ((∃ array, interned.1 = .ok array) ∨
                  arena.RunsOut (type.dimensions + 1) .arenaFull interned)) ∧
            ∀ cause, cause ≠ .notFound →
              system.answer? id className.text = some (.error cause) →
              system.resolve arena view name =
                .error (.classPath className.text id cause) arena after) := by
  have hasked : (Element.field type).kind.name? = some name := by
    rw [hname]
    rfl
  refine ⟨fun id hentry => by rw [resolve, hentry], fun hentry => ⟨fun base hbase => ?_,
    fun className hbase => ?_⟩⟩
  · refine ⟨?_, Arena.ok_or_runsOut_arrayOver (harena.valid.get?_ofPrimitive base) rfl _⟩
    rw [resolve_of_primitive system harena.valid hloader hasked hentry hbase,
      Arena.arrayOver_ofPrimitive harena.valid]
  · have hchain : system.chain? initiating = some (initiating :: loader.ancestors) := by
      rw [chain?, hregistered]
      rfl
    obtain ⟨hdelegates, hdescends⟩ := hsystem.isRooted.delegates hchain
    have hnodup := List.nodup_reverse.mpr (nodup_of_descends hdescends)
    have hresolve := resolve_of_object system hloader hasked hentry hbase
    rw [load, hchain] at hresolve
    dsimp only at hresolve
    refine ⟨_, hdelegates, fun id hid => ?_, fun hmissing => ?_, ?_⟩
    · exact Option.ne_none_iff_exists'.mp
        (answer?_ne_none_of_mem_chain hsystem.isLinked hchain hid className.text)
    · refine ⟨_, asks_askEach className.text system hnodup, ?_⟩
      rw [hresolve, search_of_missing fun id hid => hmissing id (List.mem_reverse.mp hid)]
      rfl
    · intro above id below hsplit habove
      rw [hsplit] at hresolve hnodup
      have honce : (above ++ [id]).Nodup := by
        rw [List.append_cons] at hnodup
        exact hnodup.of_append_left
      refine ⟨_, asks_askEach className.text system honce, fun info hfound => ?_,
        fun cause hcause hfails => ?_⟩
      · have hinfo := name_of_answer? hsystem.isFaithful hfound
        intro interned
        have hinterned : interned =
            arena.internOver type.dimensions (.loadedClass className.text id) :=
          arena.intern_andThen_arrayOver type.dimensions rfl
        rw [hinterned]
        refine ⟨?_, Arena.ok_or_runsOut_internOver ..⟩
        rw [hresolve, search_of_found habove hfound]
        dsimp only
        rw [hinfo]
        exact arrays_of_loaded rfl (fun _ _ _ => rfl) arena _
      · rw [hresolve, search_of_failure hcause habove hfails]
        rfl

theorem array_found_below_bootstrap :
    ∃ after, Workspace.siblings.system.Asks ['p', '/', 'C'] [.bootstrap, ⟨2⟩] after ∧
      Workspace.siblings.system.resolve Workspace.siblings.session.arena ⟨⟨10⟩, []⟩
          ['[', 'L', 'p', '/', 'C', ';'] =
        .ok (.found ⟨12⟩) ⟨Workspace.siblings.session.arena.types ++ [.array ⟨10⟩]⟩ after := by
  have hresolves := resolves_parent_first ⟨_, Workspace.siblings_reached, rfl⟩
    ⟨_, Workspace.siblings_reached, rfl⟩ ⟨⟨10⟩, []⟩ rfl rfl
    ⟨1, .object ⟨['p', '/', 'C'], by decide⟩, by decide⟩ rfl
  obtain ⟨chain, hdelegates, -, -, hfirst⟩ := (hresolves.2 rfl).2 _ rfl
  have hchain : Workspace.siblings.system.Delegates ⟨2⟩ [⟨2⟩, .bootstrap] :=
    .child rfl (.bootstrap rfl rfl)
  rw [hdelegates.unique hchain] at hfirst
  obtain ⟨after, hasks, hfound, -⟩ := hfirst [.bootstrap] ⟨2⟩ [] rfl
    (List.forall_mem_cons.mpr ⟨rfl, List.forall_mem_nil _⟩)
  exact ⟨after, hasks, (hfound ⟨['p', '/', 'C'], .memory⟩ rfl).1⟩

end LoaderSystem
end MethodLinkage
