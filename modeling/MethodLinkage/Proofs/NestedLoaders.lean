import MethodLinkage.Proofs.CacheHistories

/-!
# Nested loaders

A loader asks its class paths in turn and stops at the first that has another answer than "not
found", be it a class or an error. Loaders without caches may stand in one another to any depth;
what they ask in the end are the leaves of a tree. One loader over all the leaves does the same:
the same leaves are asked in the same order, and the answers are those of the tree. A leaf is
anything that can be asked. It may change as it answers, and share what it reads with others.
-/

namespace MethodLinkage

namespace Search

variable {α β γ δ σ : Type}

def before (combine : α → β → γ) (first : Search α) (rest : Search β) : Search γ :=
  ⟨rest.answer, combine first.after rest.after, first.probes ++ rest.probes⟩

/-- Goes on after "not found", and else leaves the rest as it is. -/
def orElse (combine : α → β → γ) (first : Search α) (unasked : β)
    (later : StateM σ (Search β)) : StateM σ (Search γ) :=
  match first.answer with
  | .error .notFound => first.before combine <$> later
  | _ => pure (first.map (combine · unasked))

variable {combine : α → β → γ} {first : Search α} {unasked : β} {later : StateM σ (Search β)}

theorem orElse_of_missing (h : first.answer = .error .notFound) :
    first.orElse combine unasked later = first.before combine <$> later := by
  rw [orElse, h]

theorem orElse_of_decisive (h : first.answer ≠ .error .notFound) :
    first.orElse combine unasked later = pure (first.map (combine · unasked)) := by
  rw [orElse]
  split
  · next hmissing => exact absurd hmissing h
  · rfl

theorem map_orElse (f : γ → δ) : Search.map f <$> first.orElse combine unasked later =
    first.orElse (fun a b => f (combine a b)) unasked later := by
  by_cases h : first.answer = .error .notFound
  · rw [orElse_of_missing h, orElse_of_missing h, ← comp_map]
    rfl
  · rw [orElse_of_decisive h, orElse_of_decisive h, map_pure]
    rfl

theorem orElse_map (f : δ → α) (first : Search δ) : (first.map f).orElse combine unasked later =
    first.orElse (fun d => combine (f d)) unasked later := rfl

theorem orElse_map_later (f : δ → β) (unasked : δ) (later : StateM σ (Search δ)) :
    first.orElse combine (f unasked) (Search.map f <$> later) =
      first.orElse (fun a d => combine a (f d)) unasked later := by
  by_cases h : first.answer = .error .notFound
  · rw [orElse_of_missing h, orElse_of_missing h, ← comp_map]
    rfl
  · rw [orElse_of_decisive h, orElse_of_decisive h]

theorem before_orElse (middle : Search (List α)) (unasked : List α)
    (later : StateM σ (Search (List α))) :
    (first.before List.cons middle).orElse List.append unasked later =
      first.before List.cons <$> middle.orElse List.append unasked later := by
  by_cases h : middle.answer = .error .notFound
  · have hboth : (first.before List.cons middle).answer = .error .notFound := h
    rw [orElse_of_missing h, orElse_of_missing hboth, ← comp_map]
    refine congrArg (· <$> later) (funext fun rest => ?_)
    simp only [before, Function.comp_apply, List.append_eq, List.append_assoc, List.cons_append]
  · have hboth : (first.before List.cons middle).answer ≠ .error .notFound := h
    rw [orElse_of_decisive h, orElse_of_decisive hboth, map_pure]
    rfl

theorem orElse_bind_orElse (rest unasked : List α) (middle later : StateM σ (Search (List α))) :
    (first.orElse List.cons rest middle >>= fun outcome =>
        outcome.orElse List.append unasked later) =
      first.orElse List.cons (rest ++ unasked)
        (middle >>= fun outcome => outcome.orElse List.append unasked later) := by
  by_cases h : first.answer = .error .notFound
  · rw [orElse_of_missing h, orElse_of_missing h, map_bind, bind_map_left]
    exact bind_congr fun outcome => before_orElse outcome unasked later
  · have hmapped : (first.map (List.cons · rest)).answer ≠ .error .notFound := h
    rw [orElse_of_decisive h, orElse_of_decisive h, pure_bind, orElse_of_decisive hmapped]
    rfl

end Search

/-- Loaders without caches that stand in one another. -/
inductive LoaderTree (α : Type) where
  | leaf (path : α)
  | loader (trees : List (LoaderTree α))

namespace LoaderTree

variable {α σ : Type} {ask : α → StateM σ (Search α)} {paths asked unasked : List α}
  {path : α} {reply : Search α} {replies : List (Search α)}
  {answer : Except LookupError FoundClass} {world between later : σ}

mutual

def find (ask : α → StateM σ (Search α)) : LoaderTree α → StateM σ (Search (LoaderTree α))
  | leaf path => do
    let outcome ← ask path
    pure (outcome.map leaf)
  | loader trees => do
    let outcome ← findFirst ask trees
    pure (outcome.map loader)

def findFirst (ask : α → StateM σ (Search α)) :
    List (LoaderTree α) → StateM σ (Search (List (LoaderTree α)))
  | [] => pure ⟨.error .notFound, [], []⟩
  | tree :: rest => do
    let first ← find ask tree
    first.orElse List.cons rest (findFirst ask rest)

end

mutual

def leaves : LoaderTree α → List α
  | leaf path => [path]
  | loader trees => allLeaves trees

def allLeaves : List (LoaderTree α) → List α
  | [] => []
  | tree :: rest => leaves tree ++ allLeaves rest

end

def flatten (tree : LoaderTree α) : LoaderTree α := loader (tree.leaves.map leaf)

def askInTurn (ask : α → StateM σ (Search α)) : List α → StateM σ (Search (List α))
  | [] => pure ⟨.error .notFound, [], []⟩
  | path :: rest => do
    let first ← ask path
    first.orElse List.cons rest (askInTurn ask rest)

theorem askInTurn_singleton (ask : α → StateM σ (Search α)) (path : α) :
    askInTurn ask [path] = Search.map (fun after => [after]) <$> ask path := by
  rw [askInTurn, map_eq_pure_bind]
  refine bind_congr fun first => ?_
  by_cases h : first.answer = .error .notFound
  · rw [Search.orElse_of_missing h, askInTurn, map_pure, Search.before, ← h, List.append_nil]
    rfl
  · exact Search.orElse_of_decisive h

theorem askInTurn_append (ask : α → StateM σ (Search α)) (earlier later : List α) :
    askInTurn ask (earlier ++ later) =
      askInTurn ask earlier >>= fun first =>
        first.orElse List.append later (askInTurn ask later) := by
  induction earlier with
  | nil =>
    rw [List.nil_append, askInTurn, pure_bind, Search.orElse_of_missing rfl]
    exact (id_map (askInTurn ask later)).symm
  | cons path rest ih =>
    rw [List.cons_append, askInTurn, askInTurn, bind_assoc, ih]
    exact bind_congr fun first => (Search.orElse_bind_orElse rest later _ _).symm

mutual

theorem map_leaves_find (ask : α → StateM σ (Search α)) : (tree : LoaderTree α) →
    Search.map leaves <$> tree.find ask = askInTurn ask tree.leaves
  | leaf path => by
    rw [leaves, askInTurn_singleton, find, bind_pure_comp, ← comp_map]
    rfl
  | loader trees => by
    rw [leaves, ← map_allLeaves_findFirst ask trees, find, bind_pure_comp, ← comp_map]
    rfl

theorem map_allLeaves_findFirst (ask : α → StateM σ (Search α)) : (trees : List (LoaderTree α)) →
    Search.map allLeaves <$> findFirst ask trees = askInTurn ask (allLeaves trees)
  | [] => map_pure _ _
  | tree :: rest => by
    rw [allLeaves, askInTurn_append, ← map_leaves_find ask tree,
      ← map_allLeaves_findFirst ask rest, findFirst, map_bind, bind_map_left]
    refine bind_congr fun first => ?_
    rw [Search.map_orElse, Search.orElse_map, Search.orElse_map_later]
    rfl

end

theorem findFirst_map_leaf (ask : α → StateM σ (Search α)) (paths : List α) :
    findFirst ask (paths.map leaf) = Search.map (List.map leaf) <$> askInTurn ask paths := by
  induction paths with
  | nil => exact (map_pure _ _).symm
  | cons path rest ih =>
    rw [List.map_cons, findFirst, find, askInTurn, ih, map_bind, bind_assoc]
    refine bind_congr fun first => ?_
    rw [pure_bind, Search.map_orElse, Search.orElse_map, Search.orElse_map_later]
    rfl

theorem find_flatten (ask : α → StateM σ (Search α)) (tree : LoaderTree α) :
    tree.flatten.find ask = Search.map flatten <$> tree.find ask := by
  rw [flatten, find, findFirst_map_leaf, ← map_leaves_find, bind_pure_comp, ← comp_map,
    ← comp_map]
  rfl

/-- What those that were asked reply: all but the last have no such class. Either the last of them
has another answer, which counts, or nobody is left unasked. -/
inductive Settles : List (Search α) → List α → Except LookupError FoundClass → Prop where
  | nowhere : Settles [] [] (.error .notFound)
  | decided {reply : Search α} (unasked : List α) :
      reply.answer ≠ .error .notFound → Settles [reply] unasked reply.answer
  | passed {reply : Search α} {replies : List (Search α)} {unasked : List α}
      {answer : Except LookupError FoundClass} :
      reply.answer = .error .notFound → Settles replies unasked answer →
      Settles (reply :: replies) unasked answer

theorem run_mapM_cons (hfirst : (ask path).run world = (reply, between))
    (hrest : (paths.mapM ask).run between = (replies, later)) :
    ((path :: paths).mapM ask).run world = (reply :: replies, later) := by
  rw [List.mapM_cons, StateT.run_bind, hfirst]
  change (paths.mapM ask >>= fun rest => pure (reply :: rest)).run between = _
  rw [StateT.run_bind, hrest]
  rfl

theorem exists_of_run_mapM_cons (h : ((path :: paths).mapM ask).run world = (replies, later)) :
    ∃ reply between more, (ask path).run world = (reply, between) ∧
      (paths.mapM ask).run between = (more, later) ∧ replies = reply :: more := by
  rcases hfirst : (ask path).run world with ⟨reply, between⟩
  rcases hrest : (paths.mapM ask).run between with ⟨more, last⟩
  cases h.symm.trans (run_mapM_cons hfirst hrest)
  exact ⟨reply, between, more, rfl, hrest, rfl⟩

theorem length_of_run_mapM (h : (asked.mapM ask).run world = (replies, later)) :
    replies.length = asked.length := by
  induction asked generalizing world replies with
  | nil =>
    cases h
    rfl
  | cons path rest ih =>
    obtain ⟨reply, between, more, -, hrest, rfl⟩ := exists_of_run_mapM_cons h
    rw [List.length_cons, ih hrest, List.length_cons]

theorem exists_settles (ask : α → StateM σ (Search α)) (paths : List α) (world : σ) :
    ∃ asked unasked replies answer later, paths = asked ++ unasked ∧
      (asked.mapM ask).run world = (replies, later) ∧ Settles replies unasked answer := by
  induction paths generalizing world with
  | nil => exact ⟨[], [], [], _, world, rfl, rfl, .nowhere⟩
  | cons path rest ih =>
    rcases hfirst : (ask path).run world with ⟨reply, between⟩
    by_cases h : reply.answer = .error .notFound
    · obtain ⟨asked, unasked, replies, answer, later, rfl, hasked, hsettles⟩ := ih between
      exact ⟨path :: asked, unasked, reply :: replies, answer, later, rfl,
        run_mapM_cons hfirst hasked, .passed h hsettles⟩
    · exact ⟨[path], rest, [reply], reply.answer, between, rfl, run_mapM_cons hfirst rfl,
        .decided rest h⟩

theorem run_askInTurn_of_settles (hasked : (asked.mapM ask).run world = (replies, later))
    (h : Settles replies unasked answer) :
    (askInTurn ask (asked ++ unasked)).run world =
      (⟨answer, replies.map (·.after) ++ unasked, replies.flatMap (·.probes)⟩, later) := by
  induction asked generalizing world replies with
  | nil =>
    cases hasked
    cases h
    rfl
  | cons path rest ih =>
    obtain ⟨reply, between, more, hfirst, hrest, rfl⟩ := exists_of_run_mapM_cons hasked
    rw [List.cons_append, askInTurn, StateT.run_bind, hfirst]
    change (reply.orElse List.cons (rest ++ unasked) (askInTurn ask (rest ++ unasked))).run
      between = _
    -- a decisive reply is the last one, and nobody was asked after it
    cases h with
    | decided _ hdecisive =>
      obtain rfl := List.eq_nil_of_length_eq_zero (length_of_run_mapM hrest).symm
      cases hrest
      rw [Search.orElse_of_decisive hdecisive, List.flatMap_cons, List.flatMap_nil,
        List.append_nil]
      rfl
    | passed hmissing hsettles =>
      rw [Search.orElse_of_missing hmissing, StateT.run_map, ih hrest hsettles]
      rfl

theorem exists_run_find_of_settles (tree : LoaderTree α) (hleaves : tree.leaves = asked ++ unasked)
    (hasked : (asked.mapM ask).run world = (replies, later)) (h : Settles replies unasked answer) :
    ∃ after : LoaderTree α, after.leaves = replies.map (·.after) ++ unasked ∧
      (tree.find ask).run world = (⟨answer, after, replies.flatMap (·.probes)⟩, later) := by
  have hrun := congrArg (StateT.run · world) (map_leaves_find ask tree)
  simp only [StateT.run_map, hleaves, run_askInTurn_of_settles hasked h] at hrun
  rcases hfind : (tree.find ask).run world with ⟨⟨found, after, probes⟩, last⟩
  rw [hfind] at hrun
  obtain ⟨houtcome, rfl⟩ := Prod.mk.inj hrun
  obtain ⟨rfl, hafter, rfl⟩ := Search.mk.inj houtcome
  exact ⟨after, hafter, rfl⟩

def noting (ask : α → StateM σ (Search α)) (path : α) : StateM (σ × List α) (Search α) :=
  fun (world, noted) =>
    let reply := (ask path).run world
    (reply.1, reply.2, noted ++ [path])

theorem run_mapM_noting (hasked : (asked.mapM ask).run world = (replies, later))
    (noted : List α) :
    (asked.mapM (noting ask)).run (world, noted) = (replies, later, noted ++ asked) := by
  induction asked generalizing world replies noted with
  | nil =>
    cases hasked
    rw [List.append_nil]
    rfl
  | cons path rest ih =>
    obtain ⟨reply, between, more, hfirst, hrest, rfl⟩ := exists_of_run_mapM_cons hasked
    have hnoted : (noting ask path).run (world, noted) = (reply, between, noted ++ [path]) := by
      change (((ask path).run world).1, ((ask path).run world).2, noted ++ [path]) = _
      rw [hfirst]
    rw [run_mapM_cons hnoted (ih hrest _), List.append_assoc]
    rfl

def findEach (tree : LoaderTree α) :
    List (α → StateM σ (Search α)) → StateM σ (List (Search Unit) × LoaderTree α)
  | [] => pure ([], tree)
  | ask :: rest => do
    let outcome ← tree.find ask
    let (outcomes, last) ← findEach outcome.after rest
    pure (outcome.map (fun _ => ()) :: outcomes, last)

theorem findEach_flatten (tree : LoaderTree α) (asks : List (α → StateM σ (Search α))) :
    tree.flatten.findEach asks = Prod.map id flatten <$> tree.findEach asks := by
  induction asks generalizing tree with
  | nil => exact (map_pure _ _).symm
  | cons ask rest ih =>
    rw [findEach, findEach, find_flatten, bind_map_left, map_bind]
    refine bind_congr fun outcome => ?_
    have hrest : (outcome.map flatten).after.findEach rest =
        Prod.map id flatten <$> outcome.after.findEach rest := ih outcome.after
    rw [hrest, bind_map_left, map_bind]
    exact bind_congr fun later => (map_pure _ _).symm

mutual

def toClassPath : LoaderTree ClassPath → ClassPath
  | leaf path => path
  | loader trees => .loader none (allToClassPath trees)

def allToClassPath : List (LoaderTree ClassPath) → List ClassPath
  | [] => []
  | tree :: rest => toClassPath tree :: allToClassPath rest

end

theorem allToClassPath_map_leaf (paths : List ClassPath) :
    allToClassPath (paths.map leaf) = paths := by
  induction paths with
  | nil => rfl
  | cons path rest ih => rw [List.map_cons, allToClassPath, toClassPath, ih]

theorem toClassPath_flatten (tree : LoaderTree ClassPath) :
    tree.flatten.toClassPath = .loader none tree.leaves := by
  rw [flatten, toClassPath, allToClassPath_map_leaf]

def asking (files : FileTree) (name : Text) (path : ClassPath) : StateM σ (Search ClassPath) :=
  pure (path.find files name)

theorem findFirst_eq_orElse (files : FileTree) (name : Text) (path : ClassPath)
    (rest : List ClassPath) :
    (path.find files name).orElse List.cons rest
        (pure (ClassPath.findFirst files name rest) : StateM σ _) =
      pure (ClassPath.findFirst files name (path :: rest)) := by
  rw [ClassPath.findFirst]
  by_cases h : (path.find files name).answer = .error .notFound
  · rw [Search.orElse_of_missing h, map_pure, h]
    rfl
  · rw [Search.orElse_of_decisive h]
    dsimp only
    split
    · next hmissing => exact absurd hmissing h
    · rfl

mutual

theorem map_toClassPath_find (files : FileTree) (name : Text) : (tree : LoaderTree ClassPath) →
    Search.map toClassPath <$> tree.find (asking files name) =
      (pure (tree.toClassPath.find files name) : StateM σ _)
  | leaf path => rfl
  | loader trees => by
    rw [find, toClassPath, ClassPath.find_uncached, ← map_pure,
      ← map_allToClassPath_findFirst files name trees, map_bind, ← comp_map, map_eq_pure_bind]
    rfl

theorem map_allToClassPath_findFirst (files : FileTree) (name : Text) :
    (trees : List (LoaderTree ClassPath)) →
    Search.map allToClassPath <$> findFirst (asking files name) trees =
      (pure (ClassPath.findFirst files name (allToClassPath trees)) : StateM σ _)
  | [] => map_pure _ _
  | tree :: rest => by
    rw [allToClassPath, ← findFirst_eq_orElse, ← map_allToClassPath_findFirst files name rest,
      Search.orElse_map_later, findFirst, map_bind]
    have hfirst := congrArg (· >>= fun first => first.orElse (fun a d => a :: allToClassPath d) rest
      (findFirst (asking files name) rest)) (map_toClassPath_find files name tree)
    rw [pure_bind, bind_map_left] at hfirst
    refine Eq.trans (bind_congr fun first => ?_) hfirst
    rw [Search.map_orElse, Search.orElse_map]
    rfl

end

theorem run_find_asking (files : FileTree) (name : Text) (tree : LoaderTree ClassPath) :
    ((tree.find (asking files name)).run ()).1.map toClassPath =
      tree.toClassPath.find files name := by
  have hrun := congrArg (StateT.run · ()) (map_toClassPath_find (σ := Unit) files name tree)
  rw [StateT.run_map] at hrun
  exact congrArg Prod.fst hrun

/-- Loaders without caches in one another ask their leaves from left to right, each of them once,
up to the first that has another answer than "not found", which is then the answer of all; nobody
else is asked. So one loader over the leaves gives the same answers after the same lookups, and
leaves everything as the tree leaves it. The loaders of a workspace are such trees, whatever class
paths are their leaves. -/
theorem nested_loaders_eq_flattening :
    (∀ (α σ : Type) (ask : α → StateM σ (Search α)) (tree : LoaderTree α) (world : σ),
      ∃ asked unasked replies answer after later, tree.leaves = asked ++ unasked ∧
        (asked.mapM ask).run world = (replies, later) ∧ Settles replies unasked answer ∧
        (tree.find ask).run world = (⟨answer, after, replies.flatMap (·.probes)⟩, later) ∧
        after.leaves = replies.map (·.after) ++ unasked ∧
        ∀ noted, ∃ other, (tree.find (noting ask)).run (world, noted) =
          (⟨answer, other, replies.flatMap (·.probes)⟩, later, noted ++ asked)) ∧
    (∀ (α σ : Type) (asks : List (α → StateM σ (Search α))) (tree : LoaderTree α) (world : σ),
      ∃ outcomes last later, (tree.findEach asks).run world = ((outcomes, last), later) ∧
        (tree.flatten.findEach asks).run world = ((outcomes, last.flatten), later)) ∧
    ∀ (files : FileTree) (name : Text) (tree : LoaderTree ClassPath),
      ∃ outcome : Search (LoaderTree ClassPath),
        (tree.find (asking files name)).run () = (outcome, ()) ∧
        tree.toClassPath.find files name = outcome.map toClassPath ∧
        ClassPath.find files name (.loader none tree.leaves) =
          outcome.map (fun after => .loader none after.leaves) := by
  refine ⟨fun α σ ask tree world => ?_, fun α σ asks tree world => ?_, fun files name tree => ?_⟩
  · obtain ⟨asked, unasked, replies, answer, later, hleaves, hasked, hsettles⟩ :=
      exists_settles ask tree.leaves world
    obtain ⟨after, hafter, hrun⟩ := exists_run_find_of_settles tree hleaves hasked hsettles
    refine ⟨asked, unasked, replies, answer, after, later, hleaves, hasked, hsettles, hrun, hafter,
      fun noted => ?_⟩
    obtain ⟨other, -, hnoting⟩ :=
      exists_run_find_of_settles tree hleaves (run_mapM_noting hasked noted) hsettles
    exact ⟨other, hnoting⟩
  · rcases hrun : (tree.findEach asks).run world with ⟨⟨outcomes, last⟩, later⟩
    refine ⟨outcomes, last, later, rfl, ?_⟩
    rw [findEach_flatten, StateT.run_map, hrun]
    rfl
  · have hpath := run_find_asking files name tree
    have hflat := run_find_asking files name tree.flatten
    rw [find_flatten, StateT.run_map, toClassPath_flatten] at hflat
    rcases hrun : (tree.find (asking files name)).run () with ⟨outcome, _⟩
    rw [hrun] at hpath hflat
    refine ⟨outcome, rfl, hpath.symm, hflat.symm.trans ?_⟩
    exact congrArg (Search.mk outcome.answer · outcome.probes) (toClassPath_flatten outcome.after)

end LoaderTree

end MethodLinkage
