import MethodLinkage.Proofs.SignatureSpelling
import MethodLinkage.Proofs.TruthfulCaches

/-!
# Origins of found classes

A class that is found bears the name it was asked for, and comes from where some place of the tree
has the class of that name: from memory, from the file that the rule for directories gives, or
from the archive entry of the name. What caches hold is not always true any more, for classes and
files change behind them. But an entry was an answer for its key once, and both what the rule for a
place says and which places there are do not depend on what is in them.
-/

namespace MethodLinkage

/-- It bears the name, and one of the places has the class of that name where it was found. -/
def FoundClass.IsFrom (info : FoundClass) (name : Text) (places : List Place) : Prop :=
  info.name = name ∧ ∃ place ∈ places, place.origin? name = some info.origin

/-- Whatever it has, one of the places has at the same origin. -/
def Place.IsAmong (place : Place) (places : List Place) : Prop :=
  ∀ name origin, place.origin? name = some origin →
    ∃ other ∈ places, other.origin? name = some origin

theorem Place.isAmong_of_mem {place : Place} {places : List Place} (h : place ∈ places) :
    place.IsAmong places := fun _ _ horigin => ⟨place, h, horigin⟩

theorem Place.IsAmong.isFrom_of_find {place : Place} {places : List Place} {files : FileTree}
    {name : Text} {info : FoundClass} (h : place.IsAmong places)
    (hfound : place.find files name = .ok info) : info.IsFrom name places := by
  obtain ⟨hname, horigin⟩ := origin?_of_find hfound
  exact ⟨hname, h name info.origin horigin⟩

namespace ClassPath

open Relation (ReflTransGen)

variable {files : FileTree} {name : Text} {path after : ClassPath} {paths : List ClassPath}
  {admits : Place → Prop} {tells : Text → FoundClass → Prop}

mutual

def caches : ClassPath → List ClassCache
  | place _ => []
  | tagged _ path => caches path
  | loader cache paths => cache.toList ++ allCaches paths

def allCaches : List ClassPath → List ClassCache
  | [] => []
  | path :: rest => caches path ++ allCaches rest

end

theorem exists_mem_caches {cache : ClassCache} (h : cache ∈ allCaches paths) :
    ∃ path ∈ paths, cache ∈ caches path := by
  induction paths with
  | nil => cases h
  | cons path rest ih =>
    rw [allCaches] at h
    rcases List.mem_append.mp h with hfirst | hlater
    · exact ⟨path, List.mem_cons_self, hfirst⟩
    · obtain ⟨later, hlater, hcache⟩ := ih hlater
      exact ⟨later, List.mem_cons_of_mem _ hlater, hcache⟩

theorem Keeps.tells_of_mem_caches (h : Keeps admits tells path) :
    ∀ cache ∈ path.caches, ∀ entry ∈ cache, tells entry.1 entry.2 := by
  induction h with
  | place => exact fun cache hcache => absurd hcache List.not_mem_nil
  | tagged _ ih => exact ih
  | loader hentries _ ih =>
    intro cache hcache
    rw [caches] at hcache
    rcases List.mem_append.mp hcache with hown | hbelow
    · exact hentries cache (Option.mem_toList.mp hown)
    · obtain ⟨path, hpath, hcache⟩ := exists_mem_caches hbelow
      exact ih path hpath cache hcache

theorem IsNew.keeps (h : path.IsNew) (hplaces : ∀ place ∈ path.leaves, admits place) :
    Keeps admits tells path := by
  induction h with
  | place p => exact .place (hplaces p List.mem_cons_self)
  | tagged _ ih => exact .tagged (ih hplaces)
  | loader hcache _ ih =>
    refine .loader (fun entries hentries entry hentry => ?_) fun path hpath => ?_
    · rw [hcache entries hentries] at hentry
      cases hentry
    · exact ih path hpath fun place hplace => hplaces place (leaves_subset hpath hplace)

/-- What may happen somewhere in a tree: a lookup there, or any change of what memory holds. -/
inductive Step (files : FileTree) : ClassPath → ClassPath → Prop where
  | lookup (name : Text) (path : ClassPath) : Step files path (find files name path).after
  | refill (classes others : List Text) :
      Step files (place (.memory classes)) (place (.memory others))
  | tagged {path after : ClassPath} (tag : Text) :
      Step files path after → Step files (tagged tag path) (tagged tag after)
  | loader {path after : ClassPath} (cache : Option ClassCache) (earlier later : List ClassPath) :
      Step files path after →
      Step files (loader cache (earlier ++ path :: later)) (loader cache (earlier ++ after :: later))

theorem Step.keeps
    (hplaces : ∀ place, admits place → ∀ files name info, place.find files name = .ok info →
      tells name info)
    (hrefill : ∀ classes others, admits (.memory classes) → admits (.memory others))
    (step : Step files path after) (h : Keeps admits tells path) : Keeps admits tells after := by
  induction step with
  | lookup name path =>
    exact (Keeps.find files name (fun place hplace => hplaces place hplace files name) path h).2
  | refill classes others =>
    cases h with
    | place hadmits => exact .place (hrefill classes others hadmits)
  | tagged tag _ ih =>
    cases h with
    | tagged hpath => exact .tagged (ih hpath)
  | loader cache earlier later _ ih =>
    cases h with
    | loader hcache hpaths =>
      refine .loader hcache ?_
      rw [List.forall_mem_append, List.forall_mem_cons] at hpaths ⊢
      exact ⟨hpaths.1, ih hpaths.2.1, hpaths.2.2⟩

mutual

theorem steps_insert (files : FileTree) (tag name : Text) : (path : ClassPath) →
    ReflTransGen (Step files) path (insert tag name path)
  | place p => .refl
  | tagged other (place p) => by
    cases p with
    | memory classes => exact .single (.tagged other (.refill classes _))
    | directory | archive | failing => exact .refl
  | tagged other (tagged inner path) =>
    (steps_insert files tag name (tagged inner path)).lift _ fun _ _ => .tagged other
  | tagged other (loader cache paths) =>
    (steps_insert files tag name (loader cache paths)).lift _ fun _ _ => .tagged other
  | loader cache paths => steps_insertAll files tag name cache [] paths

theorem steps_insertAll (files : FileTree) (tag name : Text) (cache : Option ClassCache)
    (earlier : List ClassPath) : (paths : List ClassPath) →
    ReflTransGen (Step files) (loader cache (earlier ++ paths))
      (loader cache (earlier ++ insertAll tag name paths))
  | [] => .refl
  | path :: rest => by
    have hfirst : ReflTransGen (Step files) (loader cache (earlier ++ path :: rest))
        (loader cache (earlier ++ insert tag name path :: rest)) :=
      (steps_insert files tag name path).lift (fun path => loader cache (earlier ++ path :: rest))
        fun _ _ => .loader cache earlier rest
    -- the first path stands in front, with the class in it, as the others change
    have hlater := steps_insertAll files tag name cache (earlier ++ [insert tag name path]) rest
    simp only [List.append_assoc, List.singleton_append] at hlater
    exact hfirst.trans hlater

end

namespace Setting

variable {start now : Setting}

/-- A step in the tree, or any change of the files that its places read. -/
inductive Happens : Setting → Setting → Prop where
  | step {files : FileTree} {path after : ClassPath} :
      Step files path after → Happens ⟨files, path⟩ ⟨files, after⟩
  | setFiles (files others : FileTree) (path : ClassPath) : Happens ⟨files, path⟩ ⟨others, path⟩

abbrev History : Setting → Setting → Prop := ReflTransGen Happens

theorem History.keeps
    (hplaces : ∀ place, admits place → ∀ files name info, place.find files name = .ok info →
      tells name info)
    (hrefill : ∀ classes others, admits (.memory classes) → admits (.memory others))
    (h : History start now) (hstart : Keeps admits tells start.path) :
    Keeps admits tells now.path := by
  induction h with
  | refl => exact hstart
  | tail _ happens ih =>
    cases happens with
    | step step => exact step.keeps hplaces hrefill ih
    | setFiles => exact ih

theorem History.keeps_isFrom (hnew : start.path.IsNew) (h : History start now) :
    Keeps (Place.IsAmong · start.path.leaves)
      (fun name info => info.IsFrom name start.path.leaves) now.path :=
  h.keeps (fun _ hplace _ _ _ hfound => hplace.isFrom_of_find hfound) (fun _ _ h => h)
    (hnew.keeps fun _ hplace => Place.isAmong_of_mem hplace)

theorem history_apply (setting : Setting) {event : Event} (h : event.KeepsPaths) :
    History setting (setting.apply event) := by
  cases event with
  | ask name => exact .single (.step (.lookup name setting.path))
  | insert tag name =>
    exact (steps_insert setting.files tag name setting.path).lift
      (fun path => Setting.mk setting.files path) fun _ _ => .step
  | setFiles files => exact .single (.setFiles setting.files files setting.path)
  | setPaths => cases h

theorem history_after (setting : Setting) {events : List Event}
    (h : ∀ event ∈ events, event.KeepsPaths) : History setting (setting.after events) := by
  induction events generalizing setting with
  | nil => exact .refl
  | cons event rest ih =>
    obtain ⟨hevent, hrest⟩ := List.forall_mem_cons.mp h
    exact (history_apply setting hevent).trans (ih (setting.apply event) hrest)

end Setting

end ClassPath

theorem Workspace.history_run (workspace : Workspace) {commands : List Command}
    (h : ∀ command ∈ commands, IsProper command) {id : LoaderIndex} {loader : Loader}
    (hloader : workspace.system.loader? id = some loader) :
    ∃ later, (workspace.run commands).2.system.loader? id = some later ∧
      ClassPath.Setting.History ⟨workspace.system.files, loader.path⟩
        ⟨(workspace.run commands).2.system.files, later.path⟩ := by
  obtain ⟨later, events, hlater, hevents, hafter⟩ := keepsPaths_run workspace h id loader hloader
  have hhistory := ClassPath.Setting.history_after ⟨workspace.system.files, loader.path⟩ hevents
  exact ⟨later, hlater, hafter ▸ hhistory⟩

theorem LoaderSystem.exists_loadedClass_of_load {system after : LoaderSystem}
    {arena grown : Arena} {initiating : LoaderIndex} {name : Text} {id : TypeIndex}
    (hfaithful : system.IsFaithful)
    (h : system.load arena initiating name = .ok (some id) grown after) :
    ∃ definer, grown.get? id = some (.loadedClass name definer) := by
  obtain ⟨last, -, hload⟩ := load_spec system arena initiating name
  rw [h] at hload
  rcases hsight : system.sight initiating name with error | _ | ⟨info, definer⟩
  · rw [hsight] at hload
    cases hload
  · rw [hsight] at hload
    cases hload
  · rw [hsight] at hload
    obtain rfl := name_of_sight hfaithful hsight
    have hissued := @Arena.get?_intern arena (.loadedClass info.name definer)
    dsimp only at hload
    generalize arena.intern (.loadedClass info.name definer) = interned at hload hissued
    obtain ⟨_ | found, larger⟩ := interned
    · cases hload
    · cases hload
      exact ⟨definer, hissued rfl⟩

open ClassPath (Setting)

/-- Take a tree of class paths with empty caches, and let anything happen: lookups anywhere in the
tree, and changes of the classes in memory and of all files and archives. A class that is then
found bears the name asked for, and is where a place of the tree has a class of that name; and
caches hold under each name only classes of that name. The loaders of a workspace go through such
histories, whatever it is commanded. So what is loaded has the name that was asked for. -/
theorem found_class_is_the_one_asked_for :
    (∀ start now : Setting, start.path.IsNew → Setting.History start now →
      (∀ name info, (now.ask name).answer = .ok info → info.IsFrom name start.path.leaves) ∧
      ∀ cache ∈ now.path.caches, ∀ entry ∈ cache, entry.2.IsFrom entry.1 start.path.leaves) ∧
    (∀ (workspace : Workspace) (commands : List Command) (id : LoaderIndex) (loader : Loader),
      (∀ command ∈ commands, Workspace.IsProper command) →
      workspace.system.loader? id = some loader →
      ∃ later, (workspace.run commands).2.system.loader? id = some later ∧
        Setting.History ⟨workspace.system.files, loader.path⟩
          ⟨(workspace.run commands).2.system.files, later.path⟩) ∧
    ∀ system : LoaderSystem, system.Reached → ∀ arena initiating name id grown after,
      system.load arena initiating name = .ok (some id) grown after →
      ∃ definer, Arena.get? grown id = some (.loadedClass name definer) := by
  refine ⟨fun start now hnew h => ?_, fun workspace commands id loader hproper hloader => ?_,
    fun system hreached arena initiating name id grown after hload => ?_⟩
  · have hkeeps := h.keeps_isFrom hnew
    refine ⟨fun name info hfound => ?_, hkeeps.tells_of_mem_caches⟩
    have hplaces (place : Place) (hplace : place.IsAmong start.path.leaves) (info : FoundClass)
        (hfound : place.find now.files name = .ok info) := hplace.isFrom_of_find hfound
    exact (ClassPath.Keeps.find now.files name hplaces now.path hkeeps).1 info hfound
  · exact workspace.history_run hproper hloader
  · exact LoaderSystem.exists_loadedClass_of_load hreached.isFaithful hload

theorem removed_class_keeps_its_origin :
    let path : ClassPath := .loader (some [])
      [.loader none [.place (.directory ['d'])], .place (.memory [['r']])]
    let start : Setting := ⟨.write .empty (Place.classFile ['d'] ['q']) ⟨#[]⟩, path⟩
    let now : Setting := ⟨.empty, (start.ask ['q']).after⟩
    let found : FoundClass := ⟨['q'], .file (Place.classFile ['d'] ['q'])⟩
    path.IsNew ∧ Setting.History start now ∧ now.path.caches = [[(['q'], found)]] ∧
      (now.ask ['q']).answer = .ok found ∧
      found.IsFrom ['q'] [.directory ['d'], .memory [['r']]] := by
  intro path start now found
  have hnew : path.IsNew := by
    refine .remembering fun below hbelow => ?_
    rcases List.mem_cons.mp hbelow with rfl | hbelow
    · refine .loader (fun _ hentries => by cases hentries) fun below hbelow => ?_
      rw [List.mem_singleton.mp hbelow]
      exact .place _
    · rw [List.mem_singleton.mp hbelow]
      exact .place _
  have hhistory : Setting.History start now :=
    .tail (.single (.step (.lookup ['q'] path))) (.setFiles _ _ _)
  have hanswer : (now.ask ['q']).answer = .ok found := rfl
  exact ⟨hnew, hhistory, rfl, hanswer,
    (found_class_is_the_one_asked_for.1 start now hnew hhistory).1 ['q'] found hanswer⟩

end MethodLinkage
