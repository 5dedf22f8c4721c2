import MethodLinkage.Proofs.ResolverCorrespondence
import MethodLinkage.Proofs.TruthfulCaches

/-!
# Caches that go unnoticed

As long as class paths only grow, a session in which some loaders remember what they found gives
the answers that it would give if none did, command by command. The two differ only in how often
their class paths are asked.
-/

namespace MethodLinkage

def Loader.withoutCaches (loader : Loader) : Loader :=
  { loader with path := loader.path.withoutCaches }

namespace LoaderSystem

variable {system extended first second : LoaderSystem} {id : LoaderIndex} {loader : Loader}
  {path : ClassPath}

/-- The same loaders over the same files; what was remembered or noted is left out. -/
def withoutCaches (system : LoaderSystem) : LoaderSystem :=
  ⟨system.files, system.loaders.map Loader.withoutCaches, []⟩

/-- Class paths read no files, and their caches are truthful. -/
def IsTruthful (system : LoaderSystem) : Prop :=
  ∀ loader ∈ system.loaders, loader.path.IsTruthful system.files ∧ loader.path.IsFileless

theorem loader?_withoutCaches (system : LoaderSystem) (id : LoaderIndex) :
    system.withoutCaches.loader? id = (system.loader? id).map Loader.withoutCaches :=
  List.getElem?_map

theorem chain?_withoutCaches (system : LoaderSystem) (id : LoaderIndex) :
    system.withoutCaches.chain? id = system.chain? id := by
  rw [chain?, chain?, loader?_withoutCaches, Option.map_map]
  rfl

theorem IsTruthful.answer? (h : system.IsTruthful) (id : LoaderIndex) (name : Text) :
    system.answer? id name = (system.withoutCaches.loader? id).map fun loader =>
      Place.firstAnswer system.withoutCaches.files name loader.path.leaves := by
  rw [LoaderSystem.answer?, loader?_withoutCaches, Option.map_map]
  cases hloader : system.loader? id with
  | none => rfl
  | some loader =>
    have hpath := (h loader (List.mem_of_getElem? hloader)).1
    refine congrArg some ((hpath.find system.files name loader.path).1.trans ?_)
    rw [← ClassPath.leaves_withoutCaches]
    rfl

theorem withoutCaches_ask (hloader : system.loader? id = some loader) (name : Text) :
    (system.ask id loader name).2.withoutCaches = system.withoutCaches := by
  obtain ⟨_, hget⟩ := List.getElem?_eq_some_iff.mp hloader
  have hset : system.loaders.set id.toNat loader = system.loaders := by
    rw [← hget, List.set_getElem_self]
  have hsame : Loader.withoutCaches
      { loader with path := (loader.path.find system.files name).after } =
      loader.withoutCaches := by
    rw [Loader.withoutCaches, ClassPath.withoutCaches_find]
    rfl
  rw [withoutCaches, ask, List.map_set, hsame, ← List.map_set, hset, withoutCaches]

theorem IsTruthful.ask (h : system.IsTruthful) (hloader : system.loader? id = some loader)
    (name : Text) : (system.ask id loader name).2.IsTruthful := by
  obtain ⟨htruthful, hfileless⟩ := h loader (List.mem_of_getElem? hloader)
  intro other hother
  rcases List.mem_or_eq_of_mem_set hother with hother | rfl
  · exact h other hother
  · refine ⟨(htruthful.find system.files name loader.path).2, ?_⟩
    rw [ClassPath.IsFileless, ClassPath.leaves_find]
    exact hfileless

theorem isTruthful_start (files : FileTree) (hnew : path.IsNew) (hfileless : path.IsFileless) :
    (start files path).IsTruthful :=
  List.forall_mem_singleton.mpr ⟨hnew.isTruthful files, hfileless⟩

theorem withoutCaches_insertClass (system : LoaderSystem) (tag name : Text) :
    (system.insertClass tag name).withoutCaches = system.withoutCaches.insertClass tag name := by
  simp only [withoutCaches, insertClass, List.map_map, LoaderSystem.mk.injEq, true_and, and_true]
  congr 1
  funext loader
  exact congrArg (Loader.mk · loader.ancestors)
    (ClassPath.withoutCaches_insert tag name loader.path)

theorem IsTruthful.insertClass (h : system.IsTruthful) (tag name : Text) :
    (system.insertClass tag name).IsTruthful := by
  refine List.forall_mem_map.mpr fun loader hloader => ?_
  obtain ⟨htruthful, hfileless⟩ := h loader hloader
  exact ⟨htruthful.insert hfileless system.files tag name, hfileless.insert tag name⟩

theorem IsTruthful.setFiles (h : system.IsTruthful) (files : FileTree) :
    IsTruthful { system with files := files } := by
  intro loader hloader
  obtain ⟨htruthful, hfileless⟩ := h loader hloader
  exact ⟨htruthful.setFiles hfileless files, hfileless⟩

theorem IsTruthful.extend (h : system.IsTruthful) (hnew : path.IsNew)
    (hfileless : path.IsFileless) (ancestors : List LoaderIndex) :
    IsTruthful { system with loaders := system.loaders ++ [⟨path, ancestors⟩] } :=
  List.forall_mem_append.mpr
    ⟨h, List.forall_mem_singleton.mpr ⟨hnew.isTruthful system.files, hfileless⟩⟩

/-- Two systems that are one once what they remember and note is left out. -/
structure DifferInCaches (first second : LoaderSystem) : Prop where
  first_truthful : first.IsTruthful
  second_truthful : second.IsTruthful
  same : second.withoutCaches = first.withoutCaches

namespace DifferInCaches

theorem sameAnswers (h : DifferInCaches first second) : SameAnswers first second where
  chain id := by rw [← chain?_withoutCaches second, h.same, chain?_withoutCaches]
  answer id name := by rw [h.first_truthful.answer?, h.second_truthful.answer?, h.same]

theorem lookups {before after : Arena × LoaderSystem} (h : Lookups before after)
    (htruthful : before.2.IsTruthful) :
    after.2.IsTruthful ∧ after.2.withoutCaches = before.2.withoutCaches := by
  induction h with
  | refl => exact ⟨htruthful, rfl⟩
  | tail _ step ih =>
    cases step with
    | intern _ => exact ih
    | ask name hloader =>
      exact ⟨ih.1.ask hloader name, (withoutCaches_ask hloader name).trans ih.2⟩

theorem after_lookups {arena larger arena' larger' : Arena} {first' second' : LoaderSystem}
    (h : DifferInCaches first second) (hfirst : Lookups (arena, first) (larger, first'))
    (hsecond : Lookups (arena', second) (larger', second')) : DifferInCaches first' second' := by
  obtain ⟨htruthful, hsame⟩ := lookups hfirst h.first_truthful
  obtain ⟨htruthful', hsame'⟩ := lookups hsecond h.second_truthful
  exact ⟨htruthful, htruthful', hsame'.trans (h.same.trans hsame.symm)⟩

theorem corresponds (view : Viewpoint) :
    Resolver.Corresponds LoaderSystem LoaderSystem view view (fun _ => True)
      fun _ => DifferInCaches where
  resolve {arena first second} h name _ := by
    obtain ⟨hanswer, harena⟩ : (second.resolve arena view name).answer =
          (first.resolve arena view name).answer ∧
        (second.resolve arena view name).arena = (first.resolve arena view name).arena :=
      resolve_congr rfl rfl fun loader _ className => sight_congr h.sameAnswers loader className
    refine ⟨?_, harena, h.after_lookups (resolve_lookups first arena view name)
      (resolve_lookups second arena view name)⟩
    rw [Except.map_id]
    exact hanswer
  placeholder h _ _ := h

theorem ask {other : Loader} (h : DifferInCaches first second)
    (hfirst : first.loader? id = some loader) (hsecond : second.loader? id = some other)
    (name : Text) :
    (second.ask id other name).1 = (first.ask id loader name).1 ∧
      DifferInCaches (first.ask id loader name).2 (second.ask id other name).2 := by
  have hanswer := h.sameAnswers.answer id name
  rw [LoaderSystem.answer?, LoaderSystem.answer?, hfirst, hsecond] at hanswer
  refine ⟨Option.some.inj hanswer, h.first_truthful.ask hfirst name,
    h.second_truthful.ask hsecond name, ?_⟩
  rw [withoutCaches_ask hfirst, withoutCaches_ask hsecond, h.same]

theorem map_loader? (h : DifferInCaches first second) (id : LoaderIndex) :
    (second.loader? id).map Loader.withoutCaches = (first.loader? id).map Loader.withoutCaches := by
  rw [← loader?_withoutCaches, ← loader?_withoutCaches, h.same]

theorem forgetProbes (h : DifferInCaches first second) :
    DifferInCaches { first with probes := [] } { second with probes := [] } :=
  ⟨h.first_truthful, h.second_truthful, h.same⟩

theorem files (h : DifferInCaches first second) : second.files = first.files := by
  have hfiles := congrArg LoaderSystem.files h.same
  exact hfiles

theorem setFiles (h : DifferInCaches first second) (files : FileTree) :
    DifferInCaches { first with files := files } { second with files := files } :=
  ⟨h.first_truthful.setFiles files, h.second_truthful.setFiles files,
    congrArg ({ · with files := files }) h.same⟩

theorem insertClass (h : DifferInCaches first second) (tag name : Text) :
    DifferInCaches (first.insertClass tag name) (second.insertClass tag name) := by
  refine ⟨h.first_truthful.insertClass tag name, h.second_truthful.insertClass tag name, ?_⟩
  rw [withoutCaches_insertClass, withoutCaches_insertClass, h.same]

theorem extend (h : DifferInCaches first second) (hnew : path.IsNew) (hfileless : path.IsFileless)
    (ancestors : List LoaderIndex) :
    DifferInCaches { first with loaders := first.loaders ++ [⟨path, ancestors⟩] }
      { second with loaders := second.loaders ++ [⟨path.withoutCaches, ancestors⟩] } := by
  refine ⟨h.first_truthful.extend hnew hfileless ancestors,
    h.second_truthful.extend hnew.withoutCaches hfileless.withoutCaches ancestors, ?_⟩
  have hloaders : second.loaders.map Loader.withoutCaches =
      first.loaders.map Loader.withoutCaches := congrArg LoaderSystem.loaders h.same
  simp only [withoutCaches, h.files, List.map_append, hloaders, List.map_singleton,
    Loader.withoutCaches, ClassPath.withoutCaches_withoutCaches]

theorem length_loaders (h : DifferInCaches first second) :
    second.loaders.length = first.loaders.length := by
  have hlength := congrArg (·.loaders.length) h.same
  simpa [withoutCaches] using hlength

end DifferInCaches

end LoaderSystem

/-- The same command; a loader that is added remembers nothing. -/
def Command.withoutCaches : Command → Command
  | addLoader path parent => addLoader path.withoutCaches parent
  | command => command

def Report.withoutProbes (report : Report) : Report := { report with probes := [] }

namespace Workspace

/-- A class path that is added has empty caches and reads no files, so from then on it can only
grow. -/
def OnlyGrows : Command → Prop
  | .addLoader path _ => path.IsNew ∧ path.IsFileless
  | _ => True

/-- Two workspaces that differ only in what their loaders remember and note. -/
structure DifferInCaches (first second : Workspace) : Prop where
  session : second.session = first.session
  tables : second.tables = first.tables
  signatures : second.signatures = first.signatures
  system : LoaderSystem.DifferInCaches first.system second.system

structure Performed.Alike (first second : Performed) : Prop where
  answer : second.answer = first.answer
  asked : second.asked = first.asked
  after : DifferInCaches first.after second.after

namespace DifferInCaches

variable {first second : Workspace}

theorem answer (h : DifferInCaches first second) (answer : Answer) :
    (first.answer answer).Alike (second.answer answer) :=
  ⟨rfl, rfl, h⟩

theorem refuse (h : DifferInCaches first second) (refusal : Refusal) :
    (first.refuse refusal).Alike (second.refuse refusal) :=
  ⟨rfl, rfl, h⟩

theorem ofFault (h : DifferInCaches first second) (result : Except Fault Answer) :
    (first.ofFault result).Alike (second.ofFault result) :=
  ⟨rfl, rfl, h⟩

theorem withSystem {system other : LoaderSystem} (h : DifferInCaches first second)
    (hsystem : LoaderSystem.DifferInCaches system other) :
    DifferInCaches { first with system := system } { second with system := other } :=
  ⟨h.session, h.tables, h.signatures, hsystem⟩

theorem withArena (h : DifferInCaches first second) (arena : Arena) :
    DifferInCaches (first.withArena arena) (second.withArena arena) :=
  ⟨congrArg ({ · with arena := arena }) h.session, h.tables, h.signatures, h.system⟩

theorem viewpoint (h : DifferInCaches first second) (form : ViewpointForm) :
    second.viewpoint form = first.viewpoint form := by
  rw [Workspace.viewpoint, Workspace.viewpoint, table, table, h.tables]

theorem summarize (h : DifferInCaches first second) (signature : Signature) :
    second.summarize signature = first.summarize signature := by
  rw [Workspace.summarize, Workspace.summarize, h.session]

theorem keep (h : DifferInCaches first second) (name : Text) (signature : Signature) :
    (keep name second signature).1 = (keep name first signature).1 ∧
      DifferInCaches (keep name first signature).2 (keep name second signature).2 := by
  unfold Workspace.keep
  rw [h.summarize]
  split
  · exact ⟨rfl, h.session, h.tables, congrArg ((name, signature) :: ·) h.signatures, h.system⟩
  · exact ⟨rfl, h⟩

theorem withSignature (h : DifferInCaches first second) (name : Text)
    {next next' : Signature → Performed}
    (hnext : ∀ signature, (next signature).Alike (next' signature)) :
    (first.withSignature name next).Alike (second.withSignature name next') := by
  unfold Workspace.withSignature
  rw [h.signatures]
  split
  · exact h.refuse _
  · exact hnext _

theorem withDescriptor (h : DifferInCaches first second) (form : DescriptorForm)
    {next : Workspace → Descriptor → Performed}
    (hnext : ∀ {first second}, DifferInCaches first second → ∀ descriptor,
      (next first descriptor).Alike (next second descriptor)) :
    (first.withDescriptor form next).Alike (second.withDescriptor form next) := by
  unfold Workspace.withDescriptor
  rw [h.session]
  cases form.isPooled with
  | true =>
    cases first.session.descriptor? form.text with
    | none => exact h.refuse _
    | some read =>
      have hpooled : DifferInCaches { first with session := read.2 }
          { second with session := read.2 } := ⟨rfl, h.tables, h.signatures, h.system⟩
      exact hnext hpooled read.1
  | false =>
    cases Descriptor.ofText? form.text with
    | none => exact h.refuse _
    | some descriptor => exact hnext h descriptor

theorem resolving {α : Type} (h : DifferInCaches first second)
    {call call' : Arena → Recorded LoaderSystem → Outcome (Recorded LoaderSystem) α}
    {finish : Workspace → α → Except Refusal Answer × Workspace}
    (hcall : ∀ {arena resolver resolver'},
      Recorded.AskedAlike (fun _ => LoaderSystem.DifferInCaches) arena resolver resolver' →
      Outcome.Corresponds (Recorded.AskedAlike fun _ => LoaderSystem.DifferInCaches) id
        (call arena resolver) (call' arena resolver'))
    (hfinish : ∀ {first second}, DifferInCaches first second → ∀ value,
      (finish second value).1 = (finish first value).1 ∧
        DifferInCaches (finish first value).2 (finish second value).2) :
    (first.resolving call finish).Alike (second.resolving call' finish) := by
  have houtcome := @hcall first.session.arena ⟨first.system, []⟩ ⟨second.system, []⟩
    ⟨h.system, rfl⟩
  unfold Workspace.resolving
  rw [h.session]
  generalize call first.session.arena ⟨first.system, []⟩ = outcome at houtcome
  generalize call' first.session.arena ⟨second.system, []⟩ = outcome' at houtcome
  obtain ⟨answer, arena, resolver⟩ := outcome
  obtain ⟨answer', arena', resolver'⟩ := outcome'
  obtain ⟨hanswer, harena, hsystem, hasked⟩ := houtcome
  rw [Except.map_id] at hanswer
  dsimp only [id] at hanswer harena hsystem hasked
  subst hanswer harena
  have hafter := (h.withArena arena').withSystem hsystem
  cases answer' with
  | error failure => exact ⟨rfl, hasked, hafter⟩
  | ok value =>
    obtain ⟨hsame, hfinal⟩ := hfinish hafter value
    exact ⟨hsame, hasked, hfinal⟩

theorem perform (h : DifferInCaches first second) {command : Command} (hgrows : OnlyGrows command) :
    (first.perform command).Alike (second.perform command.withoutCaches) := by
  cases command with
  | primitive letter =>
    dsimp only [Workspace.perform, Command.withoutCaches]
    split
    · exact h.answer _
    · exact h.refuse _
  | void => exact h.answer _
  | intern form =>
    dsimp only [Workspace.perform, Command.withoutCaches]
    rw [h.session]
    split
    · exact h.refuse _
    · exact (h.withArena _).ofFault _
  | arrayOver element dimensions =>
    dsimp only [Workspace.perform, Command.withoutCaches]
    rw [h.session]
    exact (h.withArena _).ofFault _
  | describe id =>
    dsimp only [Workspace.perform, Command.withoutCaches]
    rw [h.session]
    exact h.ofFault _
  | descriptor id =>
    dsimp only [Workspace.perform, Command.withoutCaches]
    rw [h.session]
    exact h.ofFault _
  | definingLoader id =>
    dsimp only [Workspace.perform, Command.withoutCaches]
    rw [h.session]
    exact h.ofFault _
  | symbol text => exact h.withDescriptor _ fun hafter descriptor => hafter.answer _
  | addLoader path parent =>
    obtain ⟨hnew, hfileless⟩ := hgrows
    dsimp only [Workspace.perform, Command.withoutCaches, LoaderSystem.addLoader]
    rw [h.system.sameAnswers.chain, h.system.length_loaders]
    cases first.system.chain? parent with
    | none => exact h.refuse _
    | some ancestors =>
      dsimp only
      by_cases hroom : first.system.loaders.length < numberLimit
      · rw [if_pos hroom, if_pos hroom]
        exact (h.withSystem (h.system.extend hnew hfileless ancestors)).answer _
      · rw [if_neg hroom, if_neg hroom]
        exact h.refuse _
  | insertClass tag name => exact (h.withSystem (h.system.insertClass tag name)).answer _
  | writeFile path content =>
    dsimp only [Workspace.perform, Command.withoutCaches]
    rw [h.system.files]
    exact (h.withSystem (h.system.setFiles _)).answer _
  | removeFile path =>
    dsimp only [Workspace.perform, Command.withoutCaches]
    rw [h.system.files]
    exact (h.withSystem (h.system.setFiles _)).answer _
  | findClass id name =>
    dsimp only [Workspace.perform, Command.withoutCaches]
    have hloader := h.system.map_loader? id
    cases hfirst : first.system.loader? id with
    | none =>
      rw [hfirst, Option.map_none, Option.map_eq_none_iff] at hloader
      rw [hloader]
      exact h.refuse _
    | some loader =>
      rw [hfirst] at hloader
      obtain ⟨other, hsecond, -⟩ := Option.map_eq_some_iff.mp hloader
      obtain ⟨hanswer, hsystem⟩ := h.system.ask hfirst hsecond name
      rw [hsecond]
      refine ⟨?_, rfl, h.withSystem hsystem⟩
      dsimp only
      rw [hanswer]
  | newTable table =>
    exact ⟨rfl, rfl, h.session, congrArg ((table, []) :: ·) h.tables, h.signatures, h.system⟩
  | addReference table name id =>
    dsimp only [Workspace.perform, Command.withoutCaches]
    rw [h.tables]
    split
    · exact h.refuse _
    · exact ⟨rfl, rfl, h.session, rfl, h.signatures, h.system⟩
  | lookUp table name =>
    dsimp only [Workspace.perform, Command.withoutCaches]
    rw [Workspace.table, Workspace.table, h.tables]
    exact h.answer _
  | resolve view name =>
    dsimp only [Workspace.perform, Command.withoutCaches]
    rw [h.viewpoint]
    refine h.resolving (fun hresolver => ?_) fun hafter _ => ⟨rfl, hafter⟩
    exact (Recorded.corresponds_recorded (LoaderSystem.DifferInCaches.corresponds _)).resolve
      hresolver name trivial
  | build name view form =>
    refine h.withDescriptor form fun hafter descriptor => ?_
    rw [hafter.viewpoint]
    refine hafter.resolving (fun hresolver => ?_) fun hlast signature => hlast.keep name signature
    apply (Recorded.corresponds_recorded (LoaderSystem.DifferInCaches.corresponds _)).build
      (fun _ _ _ => rfl) rfl
    · exact fun _ _ _ _ => trivial
    · exact fun _ _ => trivial
    · exact hresolver
  | summarize name =>
    refine h.withSignature name fun signature => ?_
    rw [h.summarize]
    exact ⟨rfl, rfl, h⟩
  | parameterAt name index => exact h.withSignature name fun _ => h.ofFault _
  | compare a b => exact h.withSignature a fun _ => h.withSignature b fun _ => h.answer _
  | distinct names =>
    dsimp only [Workspace.perform, Command.withoutCaches]
    rw [h.signatures]
    split
    · exact h.refuse _
    · exact h.answer _
  | matchDescriptor name view form skipped =>
    refine h.withSignature name fun signature => h.withDescriptor form fun hafter descriptor => ?_
    rw [hafter.viewpoint]
    refine hafter.resolving (fun hresolver => ?_) fun hlast _ => ⟨rfl, hlast⟩
    exact Resolver.Corresponds.matchDescriptor
      (fun _ => Recorded.corresponds_recorded (LoaderSystem.DifferInCaches.corresponds _))
      signature _ descriptor skipped hresolver
  | walkSignature name calls => exact h.withSignature name fun _ => h.answer _
  | walkDescriptor view form calls =>
    refine h.withDescriptor form fun hafter descriptor => ?_
    rw [hafter.viewpoint]
    refine hafter.resolving (fun hresolver => ?_) fun hlast _ => ⟨rfl, hlast⟩
    exact Recorded.walk_corresponds LoaderSystem.DifferInCaches.corresponds _ descriptor calls
      hresolver

theorem step (h : DifferInCaches first second) {command : Command} (hgrows : OnlyGrows command) :
    (second.step command.withoutCaches).1.withoutProbes =
        (first.step command).1.withoutProbes ∧
      DifferInCaches (first.step command).2 (second.step command.withoutCaches).2 := by
  obtain ⟨hanswer, hasked, hafter⟩ := (h.withSystem h.system.forgetProbes).perform hgrows
  refine ⟨?_, hafter⟩
  simp only [Workspace.step, Report.withoutProbes, hanswer, hasked, hafter.session]

theorem run (h : DifferInCaches first second) {commands : List Command}
    (hgrows : ∀ command ∈ commands, OnlyGrows command) :
    (second.run (commands.map Command.withoutCaches)).1.map Report.withoutProbes =
        (first.run commands).1.map Report.withoutProbes ∧
      DifferInCaches (first.run commands).2
        (second.run (commands.map Command.withoutCaches)).2 := by
  induction commands generalizing first second with
  | nil => exact ⟨rfl, h⟩
  | cons command rest ih =>
    obtain ⟨hcommand, hrest⟩ := List.forall_mem_cons.mp hgrows
    obtain ⟨hreport, hafter⟩ := h.step hcommand
    obtain ⟨hreports, hlast⟩ := ih hafter hrest
    refine ⟨?_, hlast⟩
    simp only [List.map_cons, Workspace.run, hreport, hreports]

end DifferInCaches

/-- Whichever loaders remember what they found, every command of a run gives the same answer, asks
for the same names and leaves the same number of types as if none did, and so the run leaves the
same session, tables, signatures and class paths. The run may be the first part of a longer one. -/
theorem caching_goes_unnoticed (files : FileTree) {bootstrap : ClassPath} {commands : List Command}
    (hnew : bootstrap.IsNew) (hfileless : bootstrap.IsFileless)
    (hgrows : ∀ command ∈ commands, OnlyGrows command) :
    let cached := (start files bootstrap).run commands
    let uncached := (start files bootstrap.withoutCaches).run
      (commands.map Command.withoutCaches)
    uncached.1.map Report.withoutProbes = cached.1.map Report.withoutProbes ∧
      uncached.2.session = cached.2.session ∧ uncached.2.tables = cached.2.tables ∧
      uncached.2.signatures = cached.2.signatures ∧
      uncached.2.system.withoutCaches = cached.2.system.withoutCaches := by
  intro cached uncached
  have hsystem : LoaderSystem.DifferInCaches (.start files bootstrap)
      (.start files bootstrap.withoutCaches) := by
    refine ⟨LoaderSystem.isTruthful_start files hnew hfileless,
      LoaderSystem.isTruthful_start files hnew.withoutCaches hfileless.withoutCaches, ?_⟩
    simp only [LoaderSystem.withoutCaches, LoaderSystem.start, List.map_singleton,
      Loader.withoutCaches, ClassPath.withoutCaches_withoutCaches]
  have hstart : DifferInCaches (start files bootstrap) (start files bootstrap.withoutCaches) :=
    ⟨rfl, rfl, rfl, hsystem⟩
  obtain ⟨hreports, hlast⟩ := hstart.run hgrows
  exact ⟨hreports, hlast.session, hlast.tables, hlast.signatures, hlast.system.same⟩

def remembering : ClassPath := .loader (some []) [.tagged ['t'] (.place (.memory []))]

def failingBelow : ClassPath :=
  .loader (some []) [.loader (some []) [.tagged ['u']
    (.place (.failing (.other none) (some [['r']])))]]

def growing : List Command :=
  [.addLoader failingBelow .bootstrap, .intern (.loadedClass ['c'] ⟨1⟩),
    .resolve ⟨⟨9⟩, none⟩ ['q'], .insertClass ['t'] ['q'], .resolve ⟨⟨9⟩, none⟩ ['q'],
    .resolve ⟨⟨9⟩, none⟩ ['q'], .resolve ⟨⟨9⟩, none⟩ ['r']]

theorem second_lookup_stays_in_cache :
    let cached := (start .empty remembering).run growing
    let uncached := (start .empty remembering.withoutCaches).run
      (growing.map Command.withoutCaches)
    uncached.1.map Report.withoutProbes = cached.1.map Report.withoutProbes ∧
      uncached.2.session = cached.2.session ∧
      cached.2.session.arena.get? ⟨10⟩ = some (.loadedClass ['q'] .bootstrap) ∧
      cached.1.map (·.probes.length) = [0, 0, 2, 0, 1, 0, 2] ∧
      uncached.1.map (·.probes.length) = [0, 0, 2, 0, 1, 1, 2] := by
  intro cached uncached
  have hnew : remembering.IsNew := .remembering (List.forall_mem_singleton.mpr (.tagged (.place _)))
  have hadded : failingBelow.IsNew := by
    refine .remembering (List.forall_mem_singleton.mpr (.remembering ?_))
    exact List.forall_mem_singleton.mpr (.tagged (.place _))
  have hgrows : ∀ command ∈ growing, OnlyGrows command := by
    simp only [growing, List.forall_mem_cons]
    exact ⟨⟨hadded, List.forall_mem_singleton.mpr trivial⟩, trivial, trivial, trivial, trivial,
      trivial, trivial, List.forall_mem_nil _⟩
  obtain ⟨hreports, hsession, -⟩ := caching_goes_unnoticed .empty hnew
    (List.forall_mem_singleton.mpr trivial) hgrows
  exact ⟨hreports, hsession, rfl, rfl, rfl⟩

end Workspace
end MethodLinkage
