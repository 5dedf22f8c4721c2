import MethodLinkage.Proofs.InvisibleCaches
import MethodLinkage.Proofs.LastingMeanings
import MethodLinkage.Proofs.MissingTypes
import MethodLinkage.Proofs.SelfResolution

/-!
# Growing class paths

Where class paths read no files and are only added to, a loader changes an answer in one way: it
finds in memory what it did not find before. So a search that ended with a class ends with that
class again, for the loaders it passed had not failed. It ends at the same loader, or further up at
one that has got the class since. What was loaded is never missing later on.
-/

namespace MethodLinkage

namespace ClassPath

variable {path : ClassPath} {name : Text}

inductive IsUncached : ClassPath → Prop where
  | place (p : Place) : IsUncached (place p)
  | tagged {tag : Text} {path : ClassPath} : IsUncached path → IsUncached (tagged tag path)
  | loader {paths : List ClassPath} :
      (∀ path ∈ paths, IsUncached path) → IsUncached (loader none paths)

theorem IsUncached.isNew (h : path.IsUncached) : path.IsNew := by
  induction h with
  | place p => exact .place p
  | tagged _ ih => exact .tagged ih
  | loader _ ih => exact .loader (fun _ hentries => (by cases hentries)) ih

namespace Setting

variable {setting earlier middle later : Setting} {event : Event}

/-- Its answers do not depend on files or on what was asked before. -/
structure IsSteady (setting : Setting) : Prop where
  truthful : setting.path.IsTruthful setting.files
  fileless : setting.path.IsFileless

/-- The answers are the same but for names that are found in memory by now. -/
structure Gains (earlier later : Setting) : Prop where
  steady : later.IsSteady
  answer : ∀ name, (later.ask name).answer = (earlier.ask name).answer ∨
    (later.ask name).answer = .ok ⟨name, .memory⟩

theorem Gains.trans (h : Gains earlier middle) (h' : Gains middle later) : Gains earlier later where
  steady := h'.steady
  answer name := by
    rcases h'.answer name with hsame | hmore
    · rw [hsame]
      exact h.answer name
    · exact .inr hmore

theorem IsSteady.gains_of_leaves (h : setting.IsSteady) (hlater : later.IsSteady)
    (hgrown : List.Forall₂ Place.Grows setting.path.leaves later.path.leaves) :
    Gains setting later where
  steady := hlater
  answer name := by
    have hanswer := (h.truthful.find setting.files name setting.path).1
    have hlast := (hlater.truthful.find later.files name later.path).1
    rw [ask, ask, hanswer, hlast]
    exact Place.firstAnswer_eq_or hgrown h.fileless setting.files later.files name

theorem IsSteady.gains_apply (h : setting.IsSteady) (hevent : event.KeepsPaths) :
    Gains setting (setting.apply event) := by
  have hsame : List.Forall₂ Place.Grows setting.path.leaves setting.path.leaves :=
    List.forall₂_same.mpr fun place _ => .same place
  cases event with
  | ask name =>
    have hleaves : (setting.ask name).after.leaves = setting.path.leaves := leaves_find ..
    refine h.gains_of_leaves ⟨(h.truthful.find setting.files name setting.path).2, ?_⟩ ?_
    · exact fun place hplace => h.fileless place (hleaves ▸ hplace)
    · exact hleaves.symm ▸ hsame
  | insert tag name =>
    exact h.gains_of_leaves
      ⟨h.truthful.insert h.fileless setting.files tag name, h.fileless.insert tag name⟩
      (leaves_insert tag name setting.path)
  | setFiles files =>
    exact h.gains_of_leaves ⟨h.truthful.setFiles h.fileless files, h.fileless⟩ hsame
  | setPaths => cases hevent

theorem IsSteady.gains_after (h : setting.IsSteady) (events : List Event)
    (hevents : ∀ event ∈ events, event.KeepsPaths) : Gains setting (setting.after events) := by
  induction events generalizing setting with
  | nil => exact ⟨h, fun _ => .inl rfl⟩
  | cons event rest ih =>
    obtain ⟨hevent, hrest⟩ := List.forall_mem_cons.mp hevents
    have hstep := h.gains_apply hevent
    exact hstep.trans (ih hstep.steady hrest)

end Setting

end ClassPath

namespace LoaderSystem

open Arena (Placement)

variable {system later : LoaderSystem} {view : Viewpoint} {loader definer : LoaderIndex}
  {name : Text} {type : FieldType} {element : Element} {placed : Placement}

/-- A loader keeps its chain, and all loaders on it find what they found and perhaps more. -/
def SeesMore (system later : LoaderSystem) (loader : LoaderIndex) : Prop :=
  ∀ chain, system.chain? loader = some chain → later.chain? loader = some chain ∧
    ∀ id ∈ chain, ∀ name answer, system.answer? id name = some answer →
      later.answer? id name = some answer ∨ later.answer? id name = some (.ok ⟨name, .memory⟩)

theorem exists_verdict {above : List LoaderIndex} {info : FoundClass}
    (hgains : ∀ id ∈ above ++ [definer], ∀ answer, system.answer? id name = some answer →
      later.answer? id name = some answer ∨ later.answer? id name = some (.ok ⟨name, .memory⟩))
    (habove : ∀ passed ∈ above, system.answer? passed name = some (.error .notFound))
    (hanswer : system.answer? definer name = some (.ok info)) (hname : info.name = name)
    (below : List LoaderIndex) :
    ∃ seen mover, later.verdict name (above ++ definer :: below) = .ok (some (seen, mover)) ∧
      seen.name = name ∧ mover ∈ above ++ [definer] := by
  induction above with
  | nil =>
    rw [List.nil_append, verdict]
    rcases hgains definer (List.mem_singleton_self definer) _ hanswer with hsame | hmore
    · exact ⟨info, definer, by rw [hsame], hname, List.mem_singleton_self definer⟩
    · exact ⟨_, definer, by rw [hmore], rfl, List.mem_singleton_self definer⟩
  | cons first above ih =>
    obtain ⟨hfirst, hrest⟩ := List.forall_mem_cons.mp habove
    obtain ⟨hgained, hothers⟩ := List.forall_mem_cons.mp hgains
    rw [List.cons_append, verdict]
    rcases hgained _ hfirst with hsame | hmore
    · obtain ⟨seen, mover, hverdict, hseen, hmover⟩ := ih hothers hrest
      exact ⟨seen, mover, by rw [hsame]; exact hverdict, hseen, List.mem_cons_of_mem first hmover⟩
    · exact ⟨_, first, by rw [hmore], rfl, List.mem_cons_self⟩

theorem SeesMore.sight {info : FoundClass} (h : system.SeesMore later loader)
    (hrooted : system.IsRooted) (hfaithful : system.IsFaithful)
    (hfound : system.sight loader name = .ok (some (info, definer))) :
    ∃ seen mover chain, later.sight loader name = .ok (some (seen, mover)) ∧ seen.name = name ∧
      system.Delegates definer chain ∧ mover ∈ chain := by
  have hname := name_of_sight hfaithful hfound
  rw [LoaderSystem.sight] at hfound ⊢
  split at hfound
  · cases hfound
  · next chain hchain =>
    obtain ⟨above, below, hsplit, habove, hanswer⟩ := verdict_eq_found_iff.mp hfound
    obtain ⟨-, hown⟩ := hrooted.chain?_of_reverse hchain hsplit
    obtain ⟨hlater, hgains⟩ := h chain hchain
    have hasked : ∀ id ∈ above ++ [definer], id ∈ chain := by
      intro id hid
      rw [← List.mem_reverse, hsplit, List.append_cons]
      exact List.mem_append_left below hid
    obtain ⟨seen, mover, hverdict, hseen, hmover⟩ := exists_verdict
      (fun id hid => hgains id (hasked id hid) name) habove hanswer hname below
    refine ⟨seen, mover, definer :: above.reverse, ?_, hseen, (hrooted.delegates hown).1, ?_⟩
    · rw [hlater]
      dsimp only
      rw [hsplit, hverdict]
    · simpa [or_comm] using hmover

theorem SeesMore.sightType {innermost : Ty} (h : system.SeesMore later loader)
    (hrooted : system.IsRooted) (hfaithful : system.IsFaithful)
    (hname : (Element.field type).kind.name? = some name)
    (hsight : system.sightType loader type = .ok (.built type.dimensions innermost))
    (hloaded : innermost.isLoaded = true) :
    ∃ moved definer mover, later.sightType loader type = .ok (.built type.dimensions moved) ∧
      moved.isLoaded = true ∧ Arena.elementDescriptor moved = Arena.elementDescriptor innermost ∧
      Arena.elementLoader type.dimensions innermost = some definer ∧
      Arena.elementLoader type.dimensions moved = some mover ∧
      (mover = definer ∨ ∃ chain, system.Delegates definer chain ∧ mover ∈ chain) := by
  cases hbase : type.base with
  | primitive base =>
    rw [LoaderSystem.sightType, hbase] at hsight ⊢
    cases hsight
    rw [Element.name?_of_primitive hbase] at hname
    obtain ⟨n, hdimensions⟩ : ∃ n, type.dimensions = n + 1 := by
      cases hdimensions : type.dimensions with
      | zero => simp [hdimensions] at hname
      | succ n => exact ⟨n, rfl⟩
    rw [hdimensions]
    exact ⟨_, .bootstrap, .bootstrap, rfl, rfl, rfl, rfl, rfl, .inl rfl⟩
  | object className =>
    obtain ⟨found, hfound, hplaced⟩ := exists_sight_of_sightType hbase hsight
    cases found with
    | none =>
      rw [(Placement.built.inj hplaced).2] at hloaded
      cases hloaded
    | some found =>
      obtain ⟨info, definer⟩ := found
      cases hplaced
      obtain ⟨seen, mover, chain, hseen, hname, hdelegates, hmover⟩ :=
        h.sight hrooted hfaithful hfound
      refine ⟨.loadedClass seen.name mover, definer, mover, ?_, rfl, ?_, ?_, ?_,
        .inr ⟨chain, hdelegates, hmover⟩⟩
      · rw [LoaderSystem.sightType, hbase]
        dsimp only
        rw [hseen]
      · rw [hname, ← name_of_sight hfaithful hfound]
        rfl
      · cases type.dimensions <;> rfl
      · cases type.dimensions <;> rfl

theorem SeesMore.placement (h : system.SeesMore later loader) (hrooted : system.IsRooted)
    (hfaithful : system.IsFaithful)
    (hplacement : system.placement view loader element = .ok placed)
    (hfound : ∀ name, placed ≠ .built 0 (.placeholder name loader)) :
    ∃ again, later.placement view loader element = .ok again ∧
      ∀ name, again ≠ .built 0 (.placeholder name loader) := by
  cases element with
  | void => exact ⟨placed, hplacement, hfound⟩
  | field type =>
    rw [LoaderSystem.placement] at hplacement ⊢
    split
    · next hentry =>
      rw [hentry] at hplacement
      exact ⟨placed, hplacement, hfound⟩
    · next hentry =>
      rw [hentry] at hplacement
      dsimp only at hplacement
      cases hbase : type.base with
      | primitive base =>
        rw [LoaderSystem.sightType, hbase] at hplacement ⊢
        exact ⟨placed, hplacement, hfound⟩
      | object className =>
        obtain ⟨found, hsight, rfl⟩ := exists_sight_of_sightType hbase hplacement
        cases found with
        | none => exact absurd rfl (hfound type.referenceName)
        | some found =>
          obtain ⟨seen, mover, -, hseen, -⟩ := h.sight hrooted hfaithful hsight
          refine ⟨.built type.dimensions (.loadedClass seen.name mover), ?_, ?_⟩
          · rw [LoaderSystem.sightType, hbase]
            dsimp only
            rw [hseen]
          · intro name heq
            cases (Placement.built.inj heq).2

end LoaderSystem

namespace Workspace

open ClassPath (Setting)

variable {workspace after : Workspace} {commands : List Command}

theorem seesMore_run (hsteady : workspace.system.IsTruthful)
    (hcommands : ∀ command ∈ commands, IsProper command) (loader : LoaderIndex) :
    workspace.system.SeesMore (workspace.run commands).2.system loader := by
  intro chain hchain
  refine ⟨LoaderSystem.keepsChains_run workspace commands loader chain hchain, ?_⟩
  intro id _ name answer hanswer
  obtain ⟨entry, hentry, rfl⟩ := Option.map_eq_some_iff.mp hanswer
  obtain ⟨htruthful, hfileless⟩ := hsteady entry (List.mem_of_getElem? hentry)
  have hsetting : Setting.IsSteady ⟨workspace.system.files, entry.path⟩ := ⟨htruthful, hfileless⟩
  obtain ⟨later, events, hlater, hpaths, hevents⟩ :=
    keepsPaths_run workspace hcommands id entry hentry
  have hgains := (hsetting.gains_after events hpaths).answer name
  dsimp only [state] at hlater hevents
  rw [hevents] at hgains
  rw [LoaderSystem.answer?, hlater]
  exact hgains.imp (congrArg some) (congrArg some)

theorem exists_later_state {before : Arena × LoaderSystem} (hvalid : before.1.Valid)
    (hsteady : before.2.IsTruthful) (hlookups : Lookups before workspace.state)
    (hcommands : ∀ command ∈ commands, IsProper command) (loader : LoaderIndex) :
    (workspace.run commands).2.session.arena.Valid ∧
      before.1.types <+: (workspace.run commands).2.session.arena.types ∧
      before.2.SeesMore (workspace.run commands).2.system loader := by
  obtain ⟨types, hlater⟩ := run_exists_interned workspace commands
  have hbetween := (LoaderSystem.DifferInCaches.lookups hlookups hsteady).1
  refine ⟨hlater ▸ (hlookups.valid hvalid).internEach types,
    hlookups.types_prefix.trans (types_prefix_run workspace commands), ?_⟩
  intro chain hchain
  have hkept := hlookups.sameAnswers.keepsChains loader chain hchain
  obtain ⟨hlast, hgains⟩ := seesMore_run hbetween hcommands loader chain hkept
  refine ⟨hlast, fun id hid name answer hanswer => hgains id hid name answer ?_⟩
  rw [← hanswer]
  exact hlookups.sameAnswers.answer id name

end Workspace

namespace LoaderSystem

variable {arena larger : Arena} {system later : LoaderSystem} {view : Viewpoint}
  {loader : LoaderIndex} {name : Text} {type : FieldType} {id : TypeIndex}

theorem isTruthful_of_uncached
    (h : ∀ loader ∈ system.loaders, loader.path.IsUncached ∧ loader.path.IsFileless) :
    system.IsTruthful := fun loader hloader =>
  ⟨(h loader hloader).1.isNew.isTruthful system.files, (h loader hloader).2⟩

theorem SeesMore.resolve (h : system.SeesMore later loader) (hrooted : system.IsRooted)
    (hfaithful : system.IsFaithful) (hvalid : arena.Valid) (hlarger : larger.Valid)
    (hgrown : arena.types <+: larger.types)
    (hloader : arena.definingLoader view.accessing = .ok (some loader))
    (hname : (Element.field type).kind.name? = some name)
    (hentry : view.references.lookup name = none)
    (hfound : (system.resolve arena view name).answer = .ok (.found id)) :
    let outcome := system.resolve arena view name
    let again := later.resolve larger view name
    (∃ moved text definer mover, again.answer = .ok (.found moved) ∧
      outcome.arena.descriptor id = .ok text ∧ again.arena.descriptor moved = .ok text ∧
      outcome.arena.definingLoader id = .ok (some definer) ∧
      again.arena.definingLoader moved = .ok (some mover) ∧
      (mover = definer ∨ ∃ chain, system.Delegates definer chain ∧ mover ∈ chain)) ∨
    larger.RunsOut ((Target.ofName name).1 + 1) (.fault .arenaFull)
      (again.answer, again.arena) := by
  intro outcome again
  obtain ⟨innermost, hsight, hloaded, hintern⟩ :=
    exists_element_of_resolve hvalid hloader hname hentry hfound
  obtain ⟨moved, definer, mover, hagain, hmoved, htext, hdefiner, hmover, habove⟩ :=
    h.sightType hrooted hfaithful hname hsight hloaded
  have hunfolds : outcome.arena.Unfolds id type.dimensions innermost := by
    have h := Arena.unfolds_internOver (sightType_ne_array hsight) (congrArg Prod.fst hintern)
    rwa [hintern] at h
  obtain ⟨after, -, hresolve⟩ := resolve_of_sightType later hlarger
    (Arena.definingLoader_mono hgrown hloader) hname hentry
  rw [hagain] at hresolve
  dsimp only at hresolve
  rw [if_pos hmoved] at hresolve
  have hlast : again = _ := hresolve
  rw [hlast]
  rcases larger.ok_or_runsOut_internOver type.dimensions moved with ⟨last, hid⟩ | hout
  · have hunfolds' := Arena.unfolds_internOver (sightType_ne_array hagain) hid
    refine .inl ⟨last, _, definer, mover, ?_, Arena.descriptor_of_unfolds hunfolds, ?_, ?_, ?_,
      habove⟩
    · rw [Outcome.map, Outcome.ofArena, hid]
      rfl
    · rw [← htext]
      exact Arena.descriptor_of_unfolds hunfolds'
    · rw [Arena.definingLoader_of_unfolds hunfolds, hdefiner]
    · rw [← hmover]
      exact Arena.definingLoader_of_unfolds hunfolds'
  · refine .inr ⟨?_, hout.isFull, ofName_of_name? hname ▸ hout.noRoom⟩
    rw [Outcome.map, Outcome.ofArena, hout.answer]
    rfl

theorem SeesMore.build {descriptor : Descriptor} {signature : Signature}
    (h : system.SeesMore later loader) (hrooted : system.IsRooted)
    (hfaithful : system.IsFaithful) (hvalid : arena.Valid) (hlarger : larger.Valid)
    (hgrown : arena.types <+: larger.types)
    (hloader : arena.definingLoader view.accessing = .ok (some loader))
    (htable : GivesOnly (·.isLoaded) arena view.references)
    (hbuilt : (Signature.build view descriptor arena system).answer = .ok signature)
    (hnone : signature.hasPlaceholder (Signature.build view descriptor arena system).arena =
      .ok false) :
    let again := Signature.build view descriptor larger later
    (∃ rebuilt, again.answer = .ok rebuilt ∧ rebuilt.hasPlaceholder again.arena = .ok false) ∨
      larger.RunsOut descriptor.text.length (.fault .arenaFull) (again.answer, again.arena) := by
  obtain ⟨flag, hflag, hmissing⟩ :=
    hasPlaceholder_of_build hvalid hloader htable hbuilt (List.prefix_refl _)
  obtain ⟨-, hsettled, -⟩ := settle_of_build hvalid hloader htable.issued hbuilt
  cases hnone.symm.trans hflag
  have hagain : ∀ element ∈ descriptor.bare, ∃ again,
      later.placement view loader element = .ok again ∧
        ∀ name, again ≠ .built 0 (.placeholder name loader) := by
    intro element helement
    obtain ⟨placed, hplaced⟩ := exists_placement_of_settle hsettled element helement
    refine h.placement hrooted hfaithful hplaced fun name hplaceholder => ?_
    have hmisses := (misses_iff hplaced).mpr hplaceholder
    exact absurd (hmissing.mpr ⟨element, helement, name, hmisses⟩) Bool.false_ne_true
  have hlast := Arena.definingLoader_mono hgrown hloader
  have hplaced : ∀ element ∈ descriptor.bare, ∃ placement,
      later.placement view loader element = .ok placement :=
    fun element helement => (hagain element helement).imp fun _ => And.left
  refine (ok_or_runsOut_build hlarger hlast (htable.mono hgrown).issued hplaced).imp ?_
    (·.mono (Nat.le_of_lt descriptor.typeCount_bare_lt))
  rintro ⟨rebuilt, hrebuilt⟩
  obtain ⟨found, hfound, hiff⟩ :=
    hasPlaceholder_of_build hlarger hlast (htable.mono hgrown) hrebuilt (List.prefix_refl _)
  refine ⟨rebuilt, hrebuilt, ?_⟩
  cases found with
  | false => exact hfound
  | true =>
    obtain ⟨element, helement, name, hmisses⟩ := hiff.mp rfl
    obtain ⟨again, hplaced, hne⟩ := hagain element helement
    exact absurd ((misses_iff hplaced).mp hmisses) (hne name)

/-- Where class paths are in memory or fail for good, and no loader remembers what it finds, later
commands, which may insert classes, leave every class loaded that was loaded. A name that was found
is found with the same descriptor, by the loader that had it or by one above; and a signature
without placeholders can be built again, and has none then. Either fails only for want of
numbers. -/
theorem growing_paths_keep_classes (harena : arena.Reached) (hsystem : system.Reached)
    (hpaths : ∀ loader ∈ system.loaders, loader.path.IsUncached ∧ loader.path.IsFileless)
    (accessing : TypeIndex) :
    (∀ name id, (ElementKind.reference name).IsParameter →
      let outcome := system.resolve arena ⟨accessing, []⟩ name
      outcome.answer = .ok (.found id) →
      ∀ after : Workspace, after.state = outcome.left →
      ∀ commands, (∀ command ∈ commands, Workspace.IsProper command) →
        let later := (after.run commands).2
        let again := later.system.resolve later.session.arena ⟨accessing, []⟩ name
        (∃ moved text definer mover, again.answer = .ok (.found moved) ∧
          outcome.arena.descriptor id = .ok text ∧ again.arena.descriptor moved = .ok text ∧
          outcome.arena.definingLoader id = .ok (some definer) ∧
          again.arena.definingLoader moved = .ok (some mover) ∧
          (mover = definer ∨ ∃ chain, system.Delegates definer chain ∧ mover ∈ chain)) ∨
        later.session.arena.RunsOut ((Target.ofName name).1 + 1) (.fault .arenaFull)
          (again.answer, again.arena)) ∧
    ∀ descriptor signature,
      let outcome := Signature.build ⟨accessing, []⟩ descriptor arena system
      outcome.answer = .ok signature → signature.hasPlaceholder outcome.arena = .ok false →
      ∀ after : Workspace, after.state = outcome.left →
      ∀ commands, (∀ command ∈ commands, Workspace.IsProper command) →
        let later := (after.run commands).2
        let again := Signature.build ⟨accessing, []⟩ descriptor later.session.arena later.system
        (∃ rebuilt, again.answer = .ok rebuilt ∧
          rebuilt.hasPlaceholder again.arena = .ok false) ∨
        later.session.arena.RunsOut descriptor.text.length (.fault .arenaFull)
          (again.answer, again.arena) := by
  have hsteady : system.IsTruthful := isTruthful_of_uncached hpaths
  have hrooted := hsystem.isRooted
  have hfaithful := hsystem.isFaithful
  constructor
  · intro name id hparameter outcome hfound after hafter commands hcommands later again
    obtain ⟨type, htype⟩ := ElementKind.isParameter_iff.mp hparameter
    have hname : (Element.field type).kind.name? = some name := by rw [htype]; rfl
    obtain ⟨loader, hloader⟩ := definingLoader_of_resolve rfl hfound
    have hlookups : Lookups (arena, system) after.state :=
      hafter ▸ resolve_lookups system arena ⟨accessing, []⟩ name
    obtain ⟨hvalid, hgrown, hmore⟩ :=
      Workspace.exists_later_state harena.valid hsteady hlookups hcommands loader
    exact hmore.resolve hrooted hfaithful harena.valid hvalid hgrown hloader hname rfl hfound
  · intro descriptor signature outcome hbuilt hnone after hafter commands hcommands later again
    obtain ⟨loader, hloader⟩ := definingLoader_of_build hbuilt
    have hlookups : Lookups (arena, system) after.state :=
      hafter ▸ (lookups_within ⟨accessing, []⟩).build descriptor arena system
    obtain ⟨hvalid, hgrown, hmore⟩ :=
      Workspace.exists_later_state harena.valid hsteady hlookups hcommands loader
    exact hmore.build hrooted hfaithful harena.valid hvalid hgrown hloader
      (givesOnly_nil (·.isLoaded) arena) hbuilt hnone

def ascending : Workspace :=
  ((Workspace.start .empty (.tagged ['t'] (.place (.memory [])))).run
    [.addLoader (.loader none [.place (.memory [['p', '/', 'A']]),
        .place (.failing (.other none) none)]) .bootstrap,
      .intern (.loadedClass ['p', '/', 'C'] ⟨1⟩)]).2

theorem ascending_reached : ascending.Reached := by
  refine ⟨_, _, _, .tagged (.place _), ?_, rfl⟩
  simp only [List.forall_mem_cons]
  refine ⟨.loader (fun _ hentries => (by cases hentries)) ?_, trivial, List.forall_mem_nil _⟩
  simp only [List.forall_mem_cons]
  exact ⟨.place _, .place _, List.forall_mem_nil _⟩

theorem ascending_paths : ∀ loader ∈ ascending.system.loaders,
    loader.path.IsUncached ∧ loader.path.IsFileless := by
  have hloaders : ascending.system.loaders = [⟨.tagged ['t'] (.place (.memory [])), []⟩,
      ⟨.loader none [.place (.memory [['p', '/', 'A']]), .place (.failing (.other none) none)],
        [.bootstrap]⟩] := rfl
  rw [hloaders]
  simp only [List.forall_mem_cons]
  refine ⟨⟨.tagged (.place _), List.forall_mem_singleton.mpr trivial⟩, ⟨.loader ?_, ?_⟩,
    List.forall_mem_nil _⟩
  · simp only [List.forall_mem_cons]
    exact ⟨.place _, .place _, List.forall_mem_nil _⟩
  · exact List.forall_mem_cons.mpr ⟨trivial, List.forall_mem_singleton.mpr trivial⟩

theorem class_moves_up :
    let view : Viewpoint := ⟨⟨9⟩, []⟩
    let outcome := ascending.system.resolve ascending.session.arena view ['p', '/', 'A']
    let built := Signature.build view ⟨[.ofClass Workspace.shared], .void⟩
      ascending.session.arena ascending.system
    let after (left : Arena × LoaderSystem) : Workspace :=
      { ascending.withArena left.1 with system := left.2 }
    let later (left : Arena × LoaderSystem) : Workspace :=
      ((after left).run [.insertClass ['t'] ['p', '/', 'A']]).2
    let again := (later outcome.left).system.resolve (later outcome.left).session.arena view
      ['p', '/', 'A']
    let rebuilt := Signature.build view ⟨[.ofClass Workspace.shared], .void⟩
      (later built.left).session.arena (later built.left).system
    outcome.answer = .ok (.found ⟨10⟩) ∧ again.answer = .ok (.found ⟨11⟩) ∧
      outcome.arena.descriptor ⟨10⟩ = again.arena.descriptor ⟨11⟩ ∧
      outcome.arena.definingLoader ⟨10⟩ = .ok (some ⟨1⟩) ∧
      again.arena.definingLoader ⟨11⟩ = .ok (some .bootstrap) ∧
      (∃ chain, ascending.system.Delegates ⟨1⟩ chain ∧ .bootstrap ∈ chain) ∧
      ∃ signature, rebuilt.answer = .ok signature ∧
        signature.hasPlaceholder rebuilt.arena = .ok false := by
  intro view outcome built after later again rebuilt
  obtain ⟨hresolves, hbuilds⟩ := growing_paths_keep_classes ⟨_, ascending_reached, rfl⟩
    ⟨_, ascending_reached, rfl⟩ ascending_paths ⟨9⟩
  have hproper : ∀ command ∈ [Command.insertClass ['t'] ['p', '/', 'A']],
      Workspace.IsProper command := List.forall_mem_singleton.mpr trivial
  have hparameter : (ElementKind.reference ['p', '/', 'A']).IsParameter :=
    ElementKind.isParameter_iff.mpr ⟨.ofClass Workspace.shared, rfl⟩
  have hfound : outcome.answer = .ok (.found ⟨10⟩) := rfl
  have hroom : (later built.left).session.arena.HasRoom 8 :=
    (show (later built.left).session.arena.size + 8 ≤ numberLimit by decide)
  obtain ⟨moved, text, definer, mover, hagain, htext, hmoved, hdefiner, hmover, habove⟩ :=
    (hresolves _ _ hparameter hfound (after outcome.left) rfl _ hproper).resolve_right
      fun hout => hout.noRoom (show Arena.size _ + 1 ≤ numberLimit by decide)
  obtain rfl : (⟨11⟩ : TypeIndex) = moved := Resolution.found.inj (Except.ok.inj hagain)
  obtain rfl : (⟨1⟩ : LoaderIndex) = definer := Option.some.inj (Except.ok.inj hdefiner)
  obtain rfl : LoaderIndex.bootstrap = mover := Option.some.inj (Except.ok.inj hmover)
  exact ⟨hfound, hagain, htext.trans hmoved.symm, hdefiner, hmover,
    habove.resolve_left (by decide),
    (hbuilds _ _ rfl rfl (after built.left) rfl _ hproper).resolve_right
      fun hout => hout.noRoom hroom⟩

end LoaderSystem
end MethodLinkage
