import MethodLinkage.Proofs.ReachedStates

/-!
# Histories of caching loaders

Between two lookups everything below a loader may change: classes are added in memory, files come
and go, other paths take the place of those that were there. A caching loader answers for a name
with the class that the first successful lookup of that name found, and then asks nobody; up to
that lookup it answers as its paths do at the time. Lookups of other names have no say in it, not
even through caches further down.
-/

namespace MethodLinkage

def Search.map {α β : Type} (f : α → β) (search : Search α) : Search β :=
  ⟨search.answer, f search.after, search.probes⟩

namespace ClassPath

variable {files : FileTree} {name other : Text} {path : ClassPath} {paths : List ClassPath}
  {cache : ClassCache}

mutual

/-- The same tree with every cache changed, or taken away where the change gives none. -/
def mapCaches (change : ClassCache → Option ClassCache) : ClassPath → ClassPath
  | place p => place p
  | tagged tag path => tagged tag (mapCaches change path)
  | loader cache paths => loader (cache.bind change) (mapAllCaches change paths)

def mapAllCaches (change : ClassCache → Option ClassCache) : List ClassPath → List ClassPath
  | [] => []
  | path :: rest => mapCaches change path :: mapAllCaches change rest

end

mutual

theorem mapCaches_insert (change : ClassCache → Option ClassCache) (tag name : Text) :
    (path : ClassPath) →
      mapCaches change (insert tag name path) = insert tag name (mapCaches change path)
  | place p => rfl
  | tagged other (place p) => by cases p <;> rfl
  | tagged other (tagged inner path) =>
    congrArg (tagged other) (mapCaches_insert change tag name (tagged inner path))
  | tagged other (loader cache paths) =>
    congrArg (tagged other) (mapCaches_insert change tag name (loader cache paths))
  | loader cache paths => by
    rw [insert, mapCaches, mapAllCaches_insertAll change tag name paths]
    rfl

theorem mapAllCaches_insertAll (change : ClassCache → Option ClassCache) (tag name : Text) :
    (paths : List ClassPath) →
      mapAllCaches change (insertAll tag name paths) = insertAll tag name (mapAllCaches change paths)
  | [] => rfl
  | path :: rest => by
    rw [insertAll, mapAllCaches, mapCaches_insert change tag name path,
      mapAllCaches_insertAll change tag name rest]
    rfl

end

theorem find_of_cached {info : FoundClass} (h : cache.lookup name = some info) (files : FileTree)
    (paths : List ClassPath) :
    find files name (loader (some cache) paths) = ⟨.ok info, loader (some cache) paths, []⟩ := by
  rw [find, h]

theorem find_of_not_cached (h : cache.lookup name = none) (files : FileTree)
    (paths : List ClassPath) :
    find files name (loader (some cache) paths) =
      (findFirst files name paths).map
        (loader (some (remember name cache (findFirst files name paths).answer))) := by
  rw [find, h]
  rfl

theorem find_uncached (files : FileTree) (name : Text) (paths : List ClassPath) :
    find files name (loader none paths) = (findFirst files name paths).map (loader none) := by
  rw [find]
  rfl

def entriesFor (name : Text) (cache : ClassCache) : ClassCache := cache.filter (·.1 = name)

/-- The tree in which caches have entries for one name only. -/
def forName (name : Text) : ClassPath → ClassPath := mapCaches (some ∘ entriesFor name)

def allForName (name : Text) : List ClassPath → List ClassPath :=
  mapAllCaches (some ∘ entriesFor name)

theorem forName_tagged (name tag : Text) (path : ClassPath) :
    forName name (tagged tag path) = tagged tag (forName name path) := rfl

theorem forName_loader (name : Text) (cache : Option ClassCache) (paths : List ClassPath) :
    forName name (loader cache paths) =
      loader (cache.map (entriesFor name)) (allForName name paths) := by
  cases cache <;> rfl

theorem allForName_cons (name : Text) (path : ClassPath) (rest : List ClassPath) :
    allForName name (path :: rest) = forName name path :: allForName name rest := rfl

theorem lookup_entriesFor (name : Text) (cache : ClassCache) :
    (entriesFor name cache).lookup name = cache.lookup name := by
  induction cache with
  | nil => rfl
  | cons entry rest ih =>
    obtain ⟨key, info⟩ := entry
    by_cases hkey : key = name
    · simp [entriesFor, hkey]
    · have hother : (name == key) = false := beq_false_of_ne (Ne.symm hkey)
      rw [List.lookup_cons, hother]
      simpa [entriesFor, hkey] using ih

theorem entriesFor_remember (name : Text) (cache : ClassCache)
    (answer : Except LookupError FoundClass) :
    entriesFor name (remember name cache answer) = remember name (entriesFor name cache) answer := by
  cases answer <;> simp [entriesFor, remember]

theorem entriesFor_remember_of_ne (h : other ≠ name) (cache : ClassCache)
    (answer : Except LookupError FoundClass) :
    entriesFor name (remember other cache answer) = entriesFor name cache := by
  cases answer <;> simp [entriesFor, remember, h]

mutual

theorem find_forName (files : FileTree) (name : Text) : (path : ClassPath) →
    find files name (forName name path) = (find files name path).map (forName name)
  | place p => rfl
  | tagged tag path => by
    rw [forName_tagged, find, find, find_forName files name path]
    rfl
  | loader none paths => by
    rw [forName_loader, Option.map_none, find_uncached, find_uncached,
      findFirst_allForName files name paths]
    rfl
  | loader (some cache) paths => by
    have hpaths := findFirst_allForName files name paths
    have hentry := lookup_entriesFor name cache
    rw [forName_loader, Option.map_some]
    cases hcached : cache.lookup name with
    | some info =>
      rw [find_of_cached hcached, find_of_cached (hentry.trans hcached)]
      rfl
    | none =>
      rw [find_of_not_cached hcached, find_of_not_cached (hentry.trans hcached), hpaths]
      simp only [Search.map, forName_loader, Option.map_some, entriesFor_remember]

theorem findFirst_allForName (files : FileTree) (name : Text) : (paths : List ClassPath) →
    findFirst files name (allForName name paths) =
      (findFirst files name paths).map (allForName name)
  | [] => rfl
  | path :: rest => by
    simp only [allForName_cons, findFirst, find_forName files name path,
      findFirst_allForName files name rest, Search.map]
    split <;> simp only [allForName_cons]

end

mutual

theorem forName_find_of_ne (h : other ≠ name) (files : FileTree) : (path : ClassPath) →
    forName name (find files other path).after = forName name path
  | place p => rfl
  | tagged tag path => by
    rw [find, forName_tagged, forName_tagged, forName_find_of_ne h files path]
  | loader none paths => by
    rw [find_uncached, Search.map, forName_loader, forName_loader,
      allForName_findFirst_of_ne h files paths]
  | loader (some cache) paths => by
    cases hcached : cache.lookup other with
    | some info => rw [find_of_cached hcached]
    | none =>
      rw [find_of_not_cached hcached, Search.map, forName_loader, forName_loader,
        allForName_findFirst_of_ne h files paths, Option.map_some, Option.map_some,
        entriesFor_remember_of_ne h]

theorem allForName_findFirst_of_ne (h : other ≠ name) (files : FileTree) :
    (paths : List ClassPath) →
      allForName name (findFirst files other paths).after = allForName name paths
  | [] => rfl
  | path :: rest => by
    have hpath := forName_find_of_ne h files path
    have hrest := allForName_findFirst_of_ne h files rest
    rw [findFirst]
    split <;> simp only [allForName_cons, hpath, hrest]

end

def withPaths (paths : List ClassPath) : ClassPath → ClassPath
  | loader cache _ => loader cache paths
  | path => path

theorem forName_withPaths (name : Text) (paths : List ClassPath) (path : ClassPath) :
    forName name (withPaths paths path) =
      withPaths (allForName name paths) (forName name path) := by
  cases path with
  | place p => rfl
  | tagged tag path => rfl
  | loader cache below => simp only [withPaths, forName_loader]

structure Setting where
  files : FileTree
  path : ClassPath

/-- A lookup, or a change of what a lookup meets. -/
inductive Event where
  | ask (name : Text)
  | insert (tag name : Text)
  | setFiles (files : FileTree)
  | setPaths (paths : List ClassPath)

def Event.KeepsPaths : Event → Prop
  | setPaths _ => False
  | _ => True

/-- All events but lookups of other names. -/
def Event.concerns (name : Text) : Event → Bool
  | ask other => other = name
  | _ => true

namespace Setting

def ask (setting : Setting) (name : Text) : Search ClassPath :=
  setting.path.find setting.files name

def apply (setting : Setting) : Event → Setting
  | .ask name => { setting with path := (setting.ask name).after }
  | .insert tag name => { setting with path := setting.path.insert tag name }
  | .setFiles files => { setting with files := files }
  | .setPaths paths => { setting with path := setting.path.withPaths paths }

def after (setting : Setting) (events : List Event) : Setting := events.foldl apply setting

def log (setting : Setting) : List Event → List (Text × Except LookupError FoundClass)
  | [] => []
  | .ask name :: rest =>
    (name, (setting.ask name).answer) :: (setting.apply (.ask name)).log rest
  | event :: rest => (setting.apply event).log rest

end Setting

def firstFound (name : Text) :
    List (Text × Except LookupError FoundClass) → Option FoundClass
  | [] => none
  | (asked, .ok info) :: rest => if asked = name then some info else firstFound name rest
  | (_, .error _) :: rest => firstFound name rest

theorem firstFound_append (name : Text)
    (earlier later : List (Text × Except LookupError FoundClass)) :
    firstFound name (earlier ++ later) = (firstFound name earlier).or (firstFound name later) := by
  induction earlier with
  | nil => rfl
  | cons entry rest ih =>
    obtain ⟨asked, cause | info⟩ := entry
    · exact ih
    · rw [List.cons_append, firstFound, firstFound]
      split
      · rfl
      · exact ih

theorem Setting.log_cons (setting : Setting) (event : Event) (rest : List Event) :
    setting.log (event :: rest) = setting.log [event] ++ (setting.apply event).log rest := by
  cases event <;> rfl

theorem Setting.log_ask (setting : Setting) (name : Text) :
    setting.log [.ask name] = [(name, (setting.ask name).answer)] := rfl

theorem exists_cache_apply (files : FileTree) (cache : ClassCache) (paths : List ClassPath)
    (event : Event) :
    ∃ files' cache' paths',
      Setting.apply ⟨files, loader (some cache) paths⟩ event =
        ⟨files', loader (some cache') paths'⟩ ∧
      ∀ name, cache'.lookup name = (cache.lookup name).or
        (firstFound name (Setting.log ⟨files, loader (some cache) paths⟩ [event])) := by
  cases event with
  | ask asked =>
    rw [Setting.log_ask, Setting.apply, Setting.ask]
    cases hcached : cache.lookup asked with
    | some info =>
      rw [find_of_cached hcached]
      refine ⟨files, cache, paths, rfl, fun name => ?_⟩
      by_cases hname : asked = name
      · rw [← hname, hcached, Option.some_or]
      · rw [firstFound, if_neg hname, firstFound, Option.or_none]
    | none =>
      rw [find_of_not_cached hcached]
      refine ⟨files, _, _, rfl, fun name => ?_⟩
      rw [Search.map]
      cases (findFirst files asked paths).answer with
      | error cause => rw [firstFound, firstFound, Option.or_none, remember]
      | ok info =>
        by_cases hname : asked = name
        · subst hname
          rw [firstFound, if_pos rfl, hcached, Option.none_or, remember, List.lookup_cons_self]
        · rw [firstFound, if_neg hname, firstFound, Option.or_none,
            lookup_remember_of_ne (Ne.symm hname)]
  | insert | setFiles | setPaths => exact ⟨_, cache, _, rfl, fun name => (Option.or_none).symm⟩

theorem exists_cache_after (files : FileTree) (cache : ClassCache) (paths : List ClassPath)
    (events : List Event) :
    ∃ files' cache' paths',
      Setting.after ⟨files, loader (some cache) paths⟩ events =
        ⟨files', loader (some cache') paths'⟩ ∧
      ∀ name, cache'.lookup name = (cache.lookup name).or
        (firstFound name (Setting.log ⟨files, loader (some cache) paths⟩ events)) := by
  induction events generalizing files cache paths with
  | nil => exact ⟨files, cache, paths, rfl, fun name => (Option.or_none).symm⟩
  | cons event rest ih =>
    obtain ⟨files', cache', paths', hstep, hcache⟩ := exists_cache_apply files cache paths event
    obtain ⟨files'', cache'', paths'', hlast, hlater⟩ := ih files' cache' paths'
    refine ⟨files'', cache'', paths'', ?_, fun name => ?_⟩
    · rw [Setting.after, List.foldl_cons, hstep]
      exact hlast
    · rw [hlater, hcache, Setting.log_cons _ event rest, firstFound_append, hstep, Option.or_assoc]

namespace Setting

/-- The same files and paths, and caches with the same entries for a name. -/
structure AgreesOn (name : Text) (first second : Setting) : Prop where
  files : second.files = first.files
  path : forName name second.path = forName name first.path

variable {first second : Setting} {event : Event}

theorem AgreesOn.ask (h : AgreesOn name first second) :
    (second.ask name).map (forName name) = (first.ask name).map (forName name) := by
  rw [Setting.ask, Setting.ask, ← find_forName, ← find_forName, h.files, h.path]

theorem AgreesOn.apply (h : AgreesOn name first second) (hconcerns : event.concerns name = true) :
    AgreesOn name (first.apply event) (second.apply event) := by
  cases event with
  | ask asked =>
    obtain rfl : asked = name := by simpa [Event.concerns] using hconcerns
    exact ⟨h.files, congrArg Search.after h.ask⟩
  | insert tag added =>
    refine ⟨h.files, ?_⟩
    rw [Setting.apply, Setting.apply, forName, mapCaches_insert, mapCaches_insert]
    exact congrArg (ClassPath.insert tag added) h.path
  | setFiles files => exact ⟨rfl, h.path⟩
  | setPaths paths =>
    refine ⟨h.files, ?_⟩
    rw [Setting.apply, Setting.apply, forName_withPaths, forName_withPaths, h.path]

theorem AgreesOn.apply_first (h : AgreesOn name first second)
    (hconcerns : event.concerns name ≠ true) : AgreesOn name (first.apply event) second := by
  cases event with
  | ask asked =>
    have hne : asked ≠ name := by simpa [Event.concerns] using hconcerns
    exact ⟨h.files, h.path.trans (forName_find_of_ne hne first.files first.path).symm⟩
  | insert | setFiles | setPaths => exact absurd rfl hconcerns

theorem AgreesOn.after_filter (h : AgreesOn name first second) (events : List Event) :
    AgreesOn name (first.after events) (second.after (events.filter (·.concerns name))) := by
  induction events generalizing first second with
  | nil => exact h
  | cons event rest ih =>
    by_cases hconcerns : event.concerns name = true
    · rw [List.filter_cons_of_pos hconcerns]
      exact ih (h.apply hconcerns)
    · rw [List.filter_cons_of_neg hconcerns]
      exact ih (h.apply_first hconcerns)

end Setting

/-- What a caching loader answers for a name after any history: the class that the first successful
lookup of the name found, without a look at what is below, and if there was none what an uncached
loader over the same paths answers. A failed lookup leaves the cache as it was, and without the
lookups of other names the answer is the same. -/
theorem first_success_lasts (files : FileTree) (paths : List ClassPath) (events : List Event)
    (name : Text) :
    let start : Setting := ⟨files, loader (some []) paths⟩
    let now := start.after events
    let known := firstFound name (start.log events)
    ∃ cache below, now.path = loader (some cache) below ∧ cache.lookup name = known ∧
      (∀ info, known = some info → ∀ files' paths',
        find files' name (loader (some cache) paths') =
          ⟨.ok info, loader (some cache) paths', []⟩) ∧
      (known = none → ∃ asked cache', find now.files name (loader none below) =
          ⟨(now.ask name).answer, loader none asked, (now.ask name).probes⟩ ∧
        (now.ask name).after = loader (some cache') asked ∧
        ∀ cause, (now.ask name).answer = .error cause → cache' = cache) ∧
      (now.ask name).answer =
        ((start.after (events.filter (·.concerns name))).ask name).answer ∧
      (now.ask name).probes =
        ((start.after (events.filter (·.concerns name))).ask name).probes := by
  intro start now known
  obtain ⟨files', cache, below, hnow, hcache⟩ := exists_cache_after files [] paths events
  have hknown : cache.lookup name = known := (hcache name).trans (Option.none_or)
  have hpath : now.path = loader (some cache) below := congrArg Setting.path hnow
  have hagrees : Setting.AgreesOn name start start := ⟨rfl, rfl⟩
  have hfiltered := (hagrees.after_filter events).ask
  refine ⟨cache, below, hpath, hknown, fun info hinfo files' paths' => ?_, fun hnone => ?_, ?_, ?_⟩
  · exact find_of_cached (hknown.trans hinfo) files' paths'
  · have hask := find_of_not_cached (hknown.trans hnone) now.files below
    rw [← hpath] at hask
    refine ⟨(findFirst now.files name below).after, _, ?_, congrArg Search.after hask, ?_⟩
    · rw [find_uncached, Setting.ask, hask]
      rfl
    · intro cause hcause
      rw [Setting.ask, hask, Search.map] at hcause
      rw [hcause, remember]
  · exact (congrArg Search.answer hfiltered).symm
  · exact (congrArg Search.probes hfiltered).symm

theorem found_before_paths_fail :
    let start : Setting :=
      ⟨.empty, loader (some []) [tagged ['t'] (place (.memory []))]⟩
    let events : List Event := [.ask ['q'], .insert ['t'] ['q'], .ask ['q'], .ask ['r'],
      .setPaths [place (.failing (.other none) none)]]
    let now := start.after events
    firstFound ['q'] (start.log events) = some ⟨['q'], .memory⟩ ∧
      firstFound ['r'] (start.log events) = none ∧
      (∃ cache, now.path = loader (some cache) [place (.failing (.other none) none)] ∧
        ∀ files' paths', find files' ['q'] (loader (some cache) paths') =
          ⟨.ok ⟨['q'], .memory⟩, loader (some cache) paths', []⟩) ∧
      (now.ask ['r']).answer = .error (.other none) ∧
      ∃ asked, find now.files ['r'] (loader none [place (.failing (.other none) none)]) =
        ⟨(now.ask ['r']).answer, loader none asked, (now.ask ['r']).probes⟩ := by
  intro start events now
  have hpath : now.path =
      loader (some [(['q'], ⟨['q'], .memory⟩)]) [place (.failing (.other none) none)] := rfl
  have hq : firstFound ['q'] (start.log events) = some ⟨['q'], .memory⟩ := rfl
  have hr : firstFound ['r'] (start.log events) = none := rfl
  obtain ⟨cache, below, hnow, -, hknown, -⟩ := first_success_lasts .empty
    [tagged ['t'] (place (.memory []))] events ['q']
  obtain ⟨cache', below', hnow', -, -, hunknown, -⟩ := first_success_lasts .empty
    [tagged ['t'] (place (.memory []))] events ['r']
  cases hpath.symm.trans hnow
  cases hpath.symm.trans hnow'
  obtain ⟨asked, _, hasked, -, -⟩ := hunknown hr
  exact ⟨hq, hr, ⟨_, hpath, hknown _ hq⟩, rfl, asked, hasked⟩

end ClassPath

theorem LoaderSystem.addLoader_keeps {system extended : LoaderSystem} {path : ClassPath}
    {parent id : LoaderIndex} (h : system.addLoader path parent = .ok (id, extended)) :
    extended.files = system.files ∧ ∀ other loader, system.loader? other = some loader →
      extended.loader? other = some loader := by
  obtain ⟨ancestors, -, -, -, rfl⟩ := exists_of_addLoader h
  refine ⟨rfl, fun other loader hloader => ?_⟩
  have hlt : other.toNat < system.loaders.length := (List.getElem?_eq_some_iff.mp hloader).1
  exact (List.getElem?_append_left hlt).trans hloader

namespace Workspace

open ClassPath (Setting Event)

def KeepsPaths (before after : Arena × LoaderSystem) : Prop :=
  ∀ id loader, before.2.loader? id = some loader → ∃ later events,
    after.2.loader? id = some later ∧ (∀ event ∈ events, Event.KeepsPaths event) ∧
    Setting.after ⟨before.2.files, loader.path⟩ events = ⟨after.2.files, later.path⟩

theorem KeepsPaths.trans {first second third : Arena × LoaderSystem}
    (h : KeepsPaths first second) (h' : KeepsPaths second third) : KeepsPaths first third := by
  intro id loader hloader
  obtain ⟨middle, events, hmiddle, hpaths, hevents⟩ := h id loader hloader
  obtain ⟨later, events', hlater, hpaths', hevents'⟩ := h' id middle hmiddle
  refine ⟨later, events ++ events', hlater, List.forall_mem_append.mpr ⟨hpaths, hpaths'⟩, ?_⟩
  rw [Setting.after, List.foldl_append, ← Setting.after, ← Setting.after, hevents, hevents']

theorem keepsPaths_of_change {before after : Arena × LoaderSystem}
    (change : Change before after) : KeepsPaths before after := by
  intro id loader hloader
  cases change with
  | lookup step =>
    cases step with
    | intern _ => exact ⟨loader, [], hloader, List.forall_mem_nil _, rfl⟩
    | ask name hasked =>
      rw [LoaderSystem.loader?_ask hasked]
      split
      · next hid =>
        subst hid
        cases hloader.symm.trans hasked
        exact ⟨_, [.ask name], rfl, List.forall_mem_singleton.mpr trivial, rfl⟩
      · exact ⟨loader, [], hloader, List.forall_mem_nil _, rfl⟩
  | addLoader _ hadd =>
    obtain ⟨hfiles, hkeeps⟩ := LoaderSystem.addLoader_keeps hadd
    refine ⟨loader, [], hkeeps id loader hloader, List.forall_mem_nil _, ?_⟩
    rw [hfiles]
    rfl
  | insertClass _ _ tag name =>
    refine ⟨{ loader with path := loader.path.insert tag name }, [.insert tag name], ?_,
      List.forall_mem_singleton.mpr trivial, rfl⟩
    rw [LoaderSystem.insertClass, LoaderSystem.loader?, List.getElem?_map, ← LoaderSystem.loader?,
      hloader]
    rfl
  | setFiles _ _ files =>
    exact ⟨loader, [.setFiles files], hloader, List.forall_mem_singleton.mpr trivial, rfl⟩
  | intern | forgetProbes => exact ⟨loader, [], hloader, List.forall_mem_nil _, rfl⟩

theorem keepsPaths_run (workspace : Workspace) {commands : List Command}
    (h : ∀ command ∈ commands, IsProper command) :
    KeepsPaths workspace.state (workspace.run commands).2.state := by
  have hchanges := run_changes workspace commands h
  generalize (workspace.run commands).2.state = last at hchanges
  induction hchanges with
  | refl => exact fun _ loader hloader => ⟨loader, [], hloader, List.forall_mem_nil _, rfl⟩
  | tail _ change ih => exact ih.trans (keepsPaths_of_change change)

end Workspace
end MethodLinkage
