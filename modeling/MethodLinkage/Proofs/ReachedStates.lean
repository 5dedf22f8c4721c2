import MethodLinkage.Proofs.ResolutionSteps
import MethodLinkage.Workspace

/-!
# Reached states

A workspace is reached by any commands from a start; class paths come with empty
caches. Each command takes the arena and the loader system through elementary
changes, and what every change keeps holds of every reached workspace: arenas are
valid, ancestors are registered before their descendants, and caches hold only
classes of the names they are kept under.
-/

namespace MethodLinkage

namespace LoaderSystem

def IsLinked (system : LoaderSystem) : Prop :=
  ∀ id loader, system.loader? id = some loader →
    ∀ ancestor ∈ loader.ancestors, ancestor.toNat < id.toNat

def IsFaithful (system : LoaderSystem) : Prop :=
  ∀ loader ∈ system.loaders, loader.path.IsFaithful

end LoaderSystem

namespace Workspace

def state (workspace : Workspace) : Arena × LoaderSystem :=
  (workspace.session.arena, workspace.system)

inductive Change : Arena × LoaderSystem → Arena × LoaderSystem → Prop where
  | lookup {before after : Arena × LoaderSystem} : LookupStep before after → Change before after
  | intern (arena : Arena) (system : LoaderSystem) (type : Ty) :
      Change (arena, system) ((arena.intern type).2, system)
  | addLoader {arena : Arena} {system extended : LoaderSystem} {path : ClassPath}
      {parent id : LoaderIndex} : path.IsNew → system.addLoader path parent = .ok (id, extended) →
      Change (arena, system) (arena, extended)
  | insertClass (arena : Arena) (system : LoaderSystem) (tag name : Text) :
      Change (arena, system) (arena, system.insertClass tag name)
  | setFiles (arena : Arena) (system : LoaderSystem) (files : FileTree) :
      Change (arena, system) (arena, { system with files := files })
  | forgetProbes (arena : Arena) (system : LoaderSystem) :
      Change (arena, system) (arena, { system with probes := [] })

abbrev Changes : Arena × LoaderSystem → Arena × LoaderSystem → Prop :=
  Relation.ReflTransGen Change

/-- A class path that is added comes with empty caches. -/
def IsProper : Command → Prop
  | .addLoader path _ => path.IsNew
  | _ => True

def Reached (workspace : Workspace) : Prop :=
  ∃ files bootstrap commands, ClassPath.IsNew bootstrap ∧
    (∀ command ∈ commands, IsProper command) ∧
    ((start files bootstrap).run commands).2 = workspace

theorem changes_of_lookups {before after : Arena × LoaderSystem} (h : Lookups before after) :
    Changes before after :=
  Relation.ReflTransGen.mono (fun _ _ step => .lookup step) _ _ h

variable {workspace : Workspace}

theorem withDescriptor_of_text {text : Text} {descriptor : Descriptor}
    (h : Descriptor.ofText? text = some descriptor) (workspace : Workspace)
    (next : Workspace → Descriptor → Performed) :
    workspace.withDescriptor ⟨text, false⟩ next = next workspace descriptor := by
  simp [withDescriptor, h]

theorem withDescriptor_cases (workspace : Workspace) (form : DescriptorForm)
    (next : Workspace → Descriptor → Performed) :
    workspace.withDescriptor form next = workspace.refuse .invalidDescriptor ∨
      ∃ after descriptor, after.state = workspace.state ∧ after.tables = workspace.tables ∧
        after.signatures = workspace.signatures ∧
        workspace.withDescriptor form next = next after descriptor := by
  have hpool : ∀ descriptor session, workspace.session.descriptor? form.text =
      some (descriptor, session) → session.arena = workspace.session.arena := by
    intro descriptor session h
    unfold Session.descriptor? at h
    split at h
    · cases h
      rfl
    · obtain ⟨_, -, heq⟩ := Option.map_eq_some_iff.mp h
      cases heq
      rfl
  unfold withDescriptor
  dsimp only
  split
  · exact .inl rfl
  · next descriptor after hread =>
    refine .inr ⟨after, descriptor, ?_⟩
    split at hread
    · obtain ⟨⟨found, session⟩, hfound, heq⟩ := Option.map_eq_some_iff.mp hread
      cases heq
      exact ⟨congrArg (·, workspace.system) (hpool found session hfound), rfl, rfl, rfl⟩
    · obtain ⟨_, -, heq⟩ := Option.map_eq_some_iff.mp hread
      cases heq
      exact ⟨rfl, rfl, rfl, rfl⟩

theorem keep_state (name : Text) (workspace : Workspace) (signature : Signature) :
    (keep name workspace signature).2.state = workspace.state := by
  unfold keep
  split <;> rfl

/-- A relation of states along which the allowed commands lead, answered or refused. Changes that
leave the arena alone stay within it, and so does all that such commands resolve or intern. -/
structure Spans (allowed : Command → Prop)
    (reaches : Arena × LoaderSystem → Arena × LoaderSystem → Prop) : Prop where
  within : ∀ view, Resolver.Within LoaderSystem view reaches
  still : ∀ {before after}, Change before after → after.1 = before.1 → reaches before after
  addLoader : ∀ {path parent id} {system extended : LoaderSystem},
    allowed (.addLoader path parent) → system.addLoader path parent = .ok (id, extended) →
    ∀ arena, reaches (arena, system) (arena, extended)
  intern : ∀ {form type}, allowed (.intern form) → form.type? = some type → ∀ arena system,
    reaches (arena, system) ((arena.intern type).2, system)
  arrayOver : ∀ (arena : Arena) element dimensions system,
    reaches (arena, system) ((arena.arrayOver element dimensions).2, system)
  resolve : ∀ {form name}, allowed (.resolve form name) → ∀ view arena (system : LoaderSystem),
    reaches (arena, system) (system.resolve arena view name).left

namespace Spans

variable {allowed : Command → Prop} {reaches : Arena × LoaderSystem → Arena × LoaderSystem → Prop}

theorem refl (h : Spans allowed reaches) (state : Arena × LoaderSystem) : reaches state state :=
  (h.within ⟨.void, []⟩).refl state

theorem trans (h : Spans allowed reaches) {first second third : Arena × LoaderSystem}
    (hfirst : reaches first second) (hsecond : reaches second third) : reaches first third :=
  (h.within ⟨.void, []⟩).trans hfirst hsecond

theorem recorded (h : Spans allowed reaches) (view : Viewpoint) :
    Resolver.Within (Recorded LoaderSystem) view fun before after =>
      reaches (before.1, before.2.inner) (after.1, after.2.inner) :=
  (h.within view).recorded

theorem withDescriptor (h : Spans allowed reaches) {form : DescriptorForm}
    {next : Workspace → Descriptor → Performed}
    (hnext : ∀ after descriptor, after.state = workspace.state →
      reaches workspace.state (next after descriptor).after.state) :
    reaches workspace.state (workspace.withDescriptor form next).after.state := by
  rcases withDescriptor_cases workspace form next with heq | ⟨after, descriptor, hsame, -, -, heq⟩
  · rw [heq]
    exact h.refl _
  · rw [heq]
    exact hnext after descriptor hsame

theorem withSignature (h : Spans allowed reaches) {name : Text} {next : Signature → Performed}
    (hnext : ∀ signature, reaches workspace.state (next signature).after.state) :
    reaches workspace.state (workspace.withSignature name next).after.state := by
  unfold Workspace.withSignature
  split
  · exact h.refl _
  · exact hnext _

theorem resolving {α : Type}
    {call : Arena → Recorded LoaderSystem → Outcome (Recorded LoaderSystem) α}
    {finish : Workspace → α → Except Refusal Answer × Workspace}
    (hcall : ∀ arena resolver, reaches (arena, resolver.inner)
      ((call arena resolver).arena, (call arena resolver).resolver.inner))
    (hfinish : ∀ after value, (finish after value).2.state = after.state) :
    reaches workspace.state (workspace.resolving call finish).after.state := by
  have hleft := hcall workspace.session.arena ⟨workspace.system, []⟩
  unfold Workspace.resolving
  dsimp only
  split
  · exact hleft
  · rw [hfinish]
    exact hleft

theorem perform (h : Spans allowed reaches) (workspace : Workspace) {command : Command}
    (hallowed : allowed command) :
    reaches workspace.state (workspace.perform command).after.state := by
  cases command with
  | primitive letter =>
    dsimp only [Workspace.perform]
    split <;> exact h.refl _
  | intern form =>
    dsimp only [Workspace.perform]
    split
    · exact h.refl _
    · next htype => exact h.intern hallowed htype _ _
  | arrayOver element dimensions => exact h.arrayOver ..
  | symbol text =>
    apply h.withDescriptor
    intro after descriptor hafter
    rw [← hafter]
    exact h.refl _
  | addLoader path parent =>
    dsimp only [Workspace.perform]
    split
    · exact h.refl _
    · next hadd => exact h.addLoader hallowed hadd _
  | insertClass tag name => exact h.still (.insertClass ..) rfl
  | writeFile path content => exact h.still (.setFiles ..) rfl
  | removeFile path => exact h.still (.setFiles ..) rfl
  | findClass id name =>
    dsimp only [Workspace.perform]
    split
    · exact h.refl _
    · next hloader => exact h.still (.lookup (.ask name hloader)) rfl
  | addReference table name id =>
    dsimp only [Workspace.perform]
    split <;> exact h.refl _
  | resolve view name =>
    exact resolving (fun arena resolver => h.resolve hallowed _ arena resolver.inner)
      fun _ _ => rfl
  | build name view form =>
    apply h.withDescriptor
    intro after descriptor hafter
    rw [← hafter]
    exact resolving (fun arena resolver => (h.recorded _).build descriptor arena resolver)
      (keep_state name)
  | summarize name => exact h.withSignature fun _ => h.refl _
  | parameterAt name index => exact h.withSignature fun _ => h.refl _
  | compare first second => exact h.withSignature fun _ => h.withSignature fun _ => h.refl _
  | distinct names =>
    dsimp only [Workspace.perform]
    split <;> exact h.refl _
  | matchDescriptor name view form skipped =>
    refine h.withSignature fun signature => ?_
    apply h.withDescriptor
    intro after descriptor hafter
    rw [← hafter]
    exact resolving (fun arena resolver => Resolver.Within.matchDescriptor h.recorded signature _
      descriptor skipped arena resolver) fun _ _ => rfl
  | walkSignature name calls => exact h.withSignature fun _ => h.refl _
  | walkDescriptor view form calls =>
    apply h.withDescriptor
    intro after descriptor hafter
    rw [← hafter]
    exact resolving (fun arena resolver => Resolver.Within.walk h.recorded _ descriptor calls arena
      resolver) fun _ _ => rfl
  | void | describe | descriptor | definingLoader | newTable | lookUp => exact h.refl _

theorem step (h : Spans allowed reaches) (workspace : Workspace) {command : Command}
    (hallowed : allowed command) : reaches workspace.state (workspace.step command).2.state := by
  let quiet : Workspace := { workspace with system := { workspace.system with probes := [] } }
  have hquiet : reaches workspace.state quiet.state := h.still (.forgetProbes _ _) rfl
  exact h.trans hquiet (h.perform quiet hallowed)

theorem run (h : Spans allowed reaches) (workspace : Workspace) {commands : List Command}
    (hallowed : ∀ command ∈ commands, allowed command) :
    reaches workspace.state (workspace.run commands).2.state := by
  induction commands generalizing workspace with
  | nil => exact h.refl _
  | cons command rest ih =>
    obtain ⟨hcommand, hrest⟩ := List.forall_mem_cons.mp hallowed
    exact h.trans (h.step workspace hcommand) (ih _ hrest)

end Spans

theorem spans_changes : Spans IsProper Changes where
  within view :=
    { refl := fun _ => .refl
      trans := .trans
      resolve := fun arena system _ name _ =>
        changes_of_lookups (LoaderSystem.resolve_lookups system arena view name)
      placeholder := fun _ _ _ _ => .single (.intern ..) }
  still change _ := .single change
  addLoader hproper hadd _ := .single (.addLoader hproper hadd)
  intern _ _ _ _ := .single (.intern ..)
  arrayOver arena element dimensions system :=
    changes_of_lookups (LoaderSystem.arrayOver_lookups system arena element dimensions)
  resolve _ view arena system :=
    changes_of_lookups (LoaderSystem.resolve_lookups system arena view _)

theorem run_changes (workspace : Workspace) (commands : List Command)
    (h : ∀ command ∈ commands, IsProper command) :
    Changes workspace.state (workspace.run commands).2.state :=
  spans_changes.run workspace h

/-- What holds at the start and is kept by every change holds of every reached workspace. -/
theorem Reached.invariant (holds : Arena × LoaderSystem → Prop)
    (hstart : ∀ files bootstrap, ClassPath.IsNew bootstrap →
      holds (start files bootstrap).state)
    (hchange : ∀ before after, Change before after → holds before → holds after)
    (h : workspace.Reached) : holds workspace.state := by
  obtain ⟨files, bootstrap, commands, hbootstrap, hcommands, rfl⟩ := h
  have hrun := run_changes (start files bootstrap) commands hcommands
  generalize ((start files bootstrap).run commands).2.state = last at hrun
  induction hrun with
  | refl => exact hstart files bootstrap hbootstrap
  | tail _ change ih => exact hchange _ _ change ih

theorem run_append (workspace : Workspace) (commands later : List Command) :
    (workspace.run (commands ++ later)).2 = ((workspace.run commands).2.run later).2 := by
  induction commands generalizing workspace with
  | nil => rfl
  | cons command rest ih => exact ih (workspace.step command).2

theorem Reached.run {commands : List Command} (h : workspace.Reached)
    (hproper : ∀ command ∈ commands, IsProper command) : (workspace.run commands).2.Reached := by
  obtain ⟨files, bootstrap, earlier, hbootstrap, hearlier, rfl⟩ := h
  refine ⟨files, bootstrap, earlier ++ commands, hbootstrap, ?_, run_append ..⟩
  exact List.forall_mem_append.mpr ⟨hearlier, hproper⟩

/-- Two loaders under a bootstrap loader that has `p/A`. Both have `p/C`, which is interned
through each; only the first remembers what it finds, only the second fails for `p/F`. -/
def siblings : Workspace :=
  ((start .empty (.place (.memory [['p', '/', 'A']]))).run
    [.addLoader (.loader (some []) [.place (.memory [['p', '/', 'C']])]) .bootstrap,
      .addLoader (.loader none [.place (.failing (.other none) (some [['p', '/', 'F']])),
        .place (.memory [['p', '/', 'C']])]) .bootstrap,
      .intern (.loadedClass ['p', '/', 'C'] ⟨1⟩), .intern (.loadedClass ['p', '/', 'C'] ⟨2⟩),
      .intern (.placeholder ['p', '/', 'D'] ⟨2⟩)]).2

theorem siblings_reached : siblings.Reached := by
  refine ⟨_, _, _, .place _, ?_, rfl⟩
  simp only [List.forall_mem_cons]
  refine ⟨?_, ?_, trivial, trivial, trivial, List.forall_mem_nil _⟩
  · apply ClassPath.IsNew.remembering
    simp only [List.forall_mem_cons]
    exact ⟨.place _, List.forall_mem_nil _⟩
  · refine .loader (fun entries h => nomatch h) ?_
    simp only [List.forall_mem_cons]
    exact ⟨.place _, .place _, List.forall_mem_nil _⟩

/-- A method of `p/D`, longs, and arrays of `p/A` and of `p/F`, which gives a `q`. -/
def mixed : Descriptor :=
  ⟨[⟨0, .object ⟨['p', '/', 'D'], by decide⟩, by decide⟩, ⟨2, .primitive .long, by decide⟩,
      ⟨1, .object ⟨['p', '/', 'A'], by decide⟩, by decide⟩,
      ⟨1, .object ⟨['p', '/', 'F'], by decide⟩, by decide⟩],
    .field ⟨0, .object ⟨['q'], by decide⟩, by decide⟩⟩

/-- An array of a class that both siblings see above them, longs, and an array of a `q` that neither
has. -/
def halfMissing : Descriptor :=
  ⟨[⟨1, .object ⟨['p', '/', 'A'], by decide⟩, by decide⟩, ⟨2, .primitive .long, by decide⟩],
    .field ⟨1, .object ⟨['q'], by decide⟩, by decide⟩⟩

theorem isBinaryName_shared : IsBinaryName ['p', '/', 'A'] := by decide

def shared : ClassName := ⟨['p', '/', 'A'], isBinaryName_shared⟩

end Workspace

def Arena.Reached (arena : Arena) : Prop :=
  ∃ workspace : Workspace, workspace.Reached ∧ workspace.session.arena = arena

def LoaderSystem.Reached (system : LoaderSystem) : Prop :=
  ∃ workspace : Workspace, workspace.Reached ∧ workspace.system = system

theorem Arena.Reached.valid {arena : Arena} (h : arena.Reached) : arena.Valid := by
  obtain ⟨workspace, hworkspace, rfl⟩ := h
  refine hworkspace.invariant (fun state => state.1.Valid)
    (fun _ _ _ => Arena.valid_fresh) fun before after change hvalid => ?_
  cases change with
  | lookup step =>
    cases step with
    | intern _ => exact hvalid.intern _
    | ask _ _ => exact hvalid
  | intern => exact hvalid.intern _
  | addLoader | insertClass | setFiles | forgetProbes => exact hvalid

namespace LoaderSystem

variable {system : LoaderSystem}

theorem isLinked_ask {id : LoaderIndex} {loader : Loader} (name : Text)
    (hloader : system.loader? id = some loader) (h : system.IsLinked) :
    (system.ask id loader name).2.IsLinked := by
  intro other found hfound
  rw [loader?_ask hloader] at hfound
  split at hfound
  · next heq =>
    cases hfound
    rw [heq]
    exact h id loader hloader
  · exact h other found hfound

theorem isLinked_addLoader {extended : LoaderSystem} {path : ClassPath} {parent id : LoaderIndex}
    (hadd : system.addLoader path parent = .ok (id, extended)) (h : system.IsLinked) :
    extended.IsLinked := by
  obtain ⟨ancestors, hchain, -, rfl, rfl⟩ := exists_of_addLoader hadd
  obtain ⟨entry, hentry, rfl⟩ := Option.map_eq_some_iff.mp hchain
  have hparent : parent.toNat < system.loaders.length := (List.getElem?_eq_some_iff.mp hentry).1
  intro other found hfound
  simp only [loader?, List.getElem?_append] at hfound
  split at hfound
  · exact h other found hfound
  · next hge =>
    obtain ⟨hlt, rfl⟩ := List.getElem?_eq_some_iff.mp hfound
    simp only [List.getElem_singleton, List.forall_mem_cons]
    refine ⟨by omega, fun ancestor hmem => ?_⟩
    have := h parent entry hentry ancestor hmem
    omega

theorem isLinked_insertClass (tag name : Text) (h : system.IsLinked) :
    (system.insertClass tag name).IsLinked := by
  intro other found hfound
  simp only [loader?, insertClass, List.getElem?_map] at hfound
  obtain ⟨entry, hentry, rfl⟩ := Option.map_eq_some_iff.mp hfound
  exact h other entry hentry

theorem isLinked_start (files : FileTree) (bootstrap : ClassPath) :
    (start files bootstrap).IsLinked := by
  intro id loader h
  obtain ⟨hlt, rfl⟩ := List.getElem?_eq_some_iff.mp h
  simp [start]

theorem Reached.isLinked (h : system.Reached) : system.IsLinked := by
  obtain ⟨workspace, hworkspace, rfl⟩ := h
  refine hworkspace.invariant (fun state => state.2.IsLinked)
    (fun files bootstrap _ => isLinked_start files bootstrap) fun before after change hlinked => ?_
  cases change with
  | lookup step =>
    cases step with
    | intern _ => exact hlinked
    | ask name hloader => exact isLinked_ask name hloader hlinked
  | addLoader _ hadd => exact isLinked_addLoader hadd hlinked
  | insertClass => exact isLinked_insertClass _ _ hlinked
  | intern | setFiles | forgetProbes => exact hlinked

theorem isFaithful_ask {id : LoaderIndex} {loader : Loader} (name : Text)
    (hloader : system.loader? id = some loader) (h : system.IsFaithful) :
    (system.ask id loader name).2.IsFaithful := by
  have hmem : loader ∈ system.loaders := List.mem_of_getElem? hloader
  intro other hother
  rcases List.mem_or_eq_of_mem_set hother with hother | rfl
  · exact h other hother
  · exact (ClassPath.IsFaithful.find system.files name loader.path (h loader hmem)).2

theorem isFaithful_addLoader {extended : LoaderSystem} {path : ClassPath}
    {parent id : LoaderIndex} (hpath : path.IsNew)
    (hadd : system.addLoader path parent = .ok (id, extended)) (h : system.IsFaithful) :
    extended.IsFaithful := by
  obtain ⟨ancestors, -, -, -, rfl⟩ := exists_of_addLoader hadd
  intro loader hloader
  rcases List.mem_append.mp hloader with hloader | hloader
  · exact h loader hloader
  · rw [List.mem_singleton.mp hloader]
    exact hpath.isFaithful

theorem isFaithful_insertClass (tag name : Text) (h : system.IsFaithful) :
    (system.insertClass tag name).IsFaithful := by
  intro loader hloader
  obtain ⟨before, hmem, rfl⟩ := List.mem_map.mp hloader
  exact (h before hmem).insert tag name

theorem isFaithful_of_change {before after : Arena × LoaderSystem}
    (change : Workspace.Change before after) (h : before.2.IsFaithful) : after.2.IsFaithful := by
  cases change with
  | lookup step =>
    cases step with
    | intern _ => exact h
    | ask name hloader => exact isFaithful_ask name hloader h
  | addLoader hnew hadd => exact isFaithful_addLoader hnew hadd h
  | insertClass => exact isFaithful_insertClass _ _ h
  | intern | setFiles | forgetProbes => exact h

theorem isFaithful_start (files : FileTree) {bootstrap : ClassPath} (hnew : bootstrap.IsNew) :
    (start files bootstrap).IsFaithful := by
  intro loader hloader
  rw [List.mem_singleton.mp hloader]
  exact hnew.isFaithful

theorem Reached.isFaithful (h : system.Reached) : system.IsFaithful := by
  obtain ⟨workspace, hworkspace, rfl⟩ := h
  exact hworkspace.invariant (fun state => state.2.IsFaithful)
    (fun files _ hnew => isFaithful_start files hnew) fun _ _ => isFaithful_of_change

end LoaderSystem
end MethodLinkage
