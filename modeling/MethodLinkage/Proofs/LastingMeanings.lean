import MethodLinkage.Proofs.ArenaBijection
import MethodLinkage.Proofs.ArenaGrowth

/-!
# Meanings that last

Types and signatures are only ever added. So what a question about them is answered
stays its answer, whatever is done in between: a command that builds puts one
signature in front, of which it could tell whether there is a placeholder among its
types, and all others leave the signatures alone. A placeholder stays one when its
class can be loaded later.

An array may be interned over a number that is not issued yet. It has no descriptor
until that number is, and gets one then.
-/

namespace MethodLinkage

namespace Signature

variable {arena larger : Arena} {ids : List TypeIndex} {signature : Signature} {flag : Bool}

theorem anyPlaceholder_mono (hgrown : arena.types <+: larger.types)
    (h : anyPlaceholder arena ids = .ok flag) : anyPlaceholder larger ids = .ok flag := by
  induction ids with
  | nil => exact h
  | cons id rest ih =>
    rw [anyPlaceholder] at h ⊢
    cases hid : arena.get? id with
    | none =>
      rw [hid] at h
      cases h
    | some type =>
      rw [hid] at h
      rw [Arena.get?_mono hgrown hid]
      dsimp only at h ⊢
      split
      · next hloaded =>
        rw [if_pos hloaded] at h
        exact ih h
      · next hmissing => rwa [if_neg hmissing] at h

theorem hasPlaceholder_mono (hgrown : arena.types <+: larger.types)
    (h : signature.hasPlaceholder arena = .ok flag) :
    signature.hasPlaceholder larger = .ok flag := by
  rw [hasPlaceholder_eq] at h ⊢
  exact anyPlaceholder_mono hgrown h

end Signature

namespace Command

def builds? : Command → Option Text
  | .build name _ _ => some name
  | _ => none

/-- A question about types and signatures among the given ones. -/
inductive AsksAbout (types : TypeIndex → Prop) (names : Text → Prop) : Command → Prop where
  | describe {id : TypeIndex} : types id → AsksAbout types names (.describe id)
  | descriptor {id : TypeIndex} : types id → AsksAbout types names (.descriptor id)
  | definingLoader {id : TypeIndex} : types id → AsksAbout types names (.definingLoader id)
  | summarize {name : Text} : names name → AsksAbout types names (.summarize name)
  | parameterAt {name : Text} (index : Nat) : names name →
      AsksAbout types names (.parameterAt name index)
  | compare {first second : Text} : names first → names second →
      AsksAbout types names (.compare first second)
  | distinct {listed : List Text} : (∀ name ∈ listed, names name) →
      AsksAbout types names (.distinct listed)
  | walkSignature {name : Text} (calls : List SignatureCursor.Call) : names name →
      AsksAbout types names (.walkSignature name calls)

end Command

namespace Workspace

variable {workspace after : Workspace} {command : Command}

/-- A signature is put in front by the command that builds it, which could summarize it. -/
def Keeps (workspace : Workspace) (command : Command) (after : Workspace) : Prop :=
  after.signatures = workspace.signatures ∨
    ∃ name signature flag, command.builds? = some name ∧
      after.signatures = (name, signature) :: workspace.signatures ∧
      signature.hasPlaceholder after.session.arena = .ok flag

theorem keeps_withDescriptor {form : DescriptorForm} {next : Workspace → Descriptor → Performed}
    (hnext : ∀ after descriptor, after.signatures = workspace.signatures →
      workspace.Keeps command (next after descriptor).after) :
    workspace.Keeps command (workspace.withDescriptor form next).after := by
  rcases withDescriptor_cases workspace form next with
    heq | ⟨after, descriptor, -, -, hsignatures, heq⟩
  · rw [heq]
    exact .inl rfl
  · rw [heq]
    exact hnext after descriptor hsignatures

theorem keeps_withSignature {name : Text} {next : Signature → Performed}
    (hnext : ∀ signature, workspace.Keeps command (next signature).after) :
    workspace.Keeps command (workspace.withSignature name next).after := by
  unfold withSignature
  split
  · exact .inl rfl
  · exact hnext _

theorem keeps_resolving {α : Type}
    {call : Arena → Recorded LoaderSystem → Outcome (Recorded LoaderSystem) α}
    {finish : Workspace → α → Except Refusal Answer × Workspace}
    (hfinish : ∀ after value, after.signatures = workspace.signatures →
      workspace.Keeps command (finish after value).2) :
    workspace.Keeps command (workspace.resolving call finish).after := by
  unfold resolving
  dsimp only
  split
  · exact .inl rfl
  · apply hfinish
    rfl

theorem keeps_keep {name : Text} (hbuilds : command.builds? = some name)
    (hsame : after.signatures = workspace.signatures) (signature : Signature) :
    workspace.Keeps command (keep name after signature).2 := by
  unfold keep summarize
  cases hflag : signature.hasPlaceholder after.session.arena with
  | error fault => exact .inl hsame
  | ok flag => exact .inr ⟨name, signature, flag, hbuilds, by rw [← hsame], hflag⟩

theorem keeps_perform (workspace : Workspace) (command : Command) :
    workspace.Keeps command (workspace.perform command).after := by
  cases command with
  | symbol text => exact keeps_withDescriptor fun _ _ => .inl
  | resolve view name => exact keeps_resolving fun _ _ => .inl
  | build name view form =>
    apply keeps_withDescriptor
    intro before descriptor hbefore
    have hkeeps := @keeps_resolving before (.build name view form) Signature
      (Signature.build (before.viewpoint view) descriptor) (keep name)
      fun _ signature hsame => keeps_keep rfl hsame signature
    rwa [Keeps, hbefore] at hkeeps
  | summarize | parameterAt | walkSignature => exact keeps_withSignature fun _ => .inl rfl
  | compare first second =>
    exact keeps_withSignature fun _ => keeps_withSignature fun _ => .inl rfl
  | matchDescriptor name view form skipped =>
    apply keeps_withSignature
    intro signature
    apply keeps_withDescriptor
    intro before descriptor hbefore
    rw [Keeps, ← hbefore]
    exact keeps_resolving fun _ _ => .inl
  | walkDescriptor view form calls =>
    apply keeps_withDescriptor
    intro before descriptor hbefore
    rw [Keeps, ← hbefore]
    exact keeps_resolving fun _ _ => .inl
  | primitive | intern | addLoader | findClass | addReference | distinct =>
    dsimp only [perform]
    split <;> exact .inl rfl
  | void | arrayOver | describe | descriptor | definingLoader | insertClass | writeFile | removeFile | newTable
  | lookUp => exact .inl rfl

def IsSummarized (workspace : Workspace) : Prop :=
  ∀ kept ∈ workspace.signatures, ∃ flag,
    kept.2.hasPlaceholder workspace.session.arena = .ok flag

theorem step_keeps (workspace : Workspace) (command : Command) :
    workspace.Keeps command (workspace.step command).2 :=
  keeps_perform { workspace with system := { workspace.system with probes := [] } } command

theorem types_prefix_step (workspace : Workspace) (command : Command) :
    workspace.session.arena.types <+: (workspace.step command).2.session.arena.types := by
  obtain ⟨types, hstep⟩ := step_exists_interned workspace command
  rw [hstep]
  exact workspace.session.arena.types_prefix_internEach types

theorem IsSummarized.step (h : workspace.IsSummarized) (command : Command) :
    (workspace.step command).2.IsSummarized := by
  have hgrown := types_prefix_step workspace command
  intro kept hkept
  have hearlier : ∀ earlier ∈ workspace.signatures, ∃ flag,
      earlier.2.hasPlaceholder (workspace.step command).2.session.arena = .ok flag :=
    fun earlier hmem => (h earlier hmem).imp fun _ => Signature.hasPlaceholder_mono hgrown
  rcases step_keeps workspace command with hsame | ⟨name, signature, flag, -, hmore, hflag⟩
  · rw [hsame] at hkept
    exact hearlier kept hkept
  · rw [hmore] at hkept
    rcases List.mem_cons.mp hkept with rfl | hold
    · exact ⟨flag, hflag⟩
    · exact hearlier kept hold

theorem IsSummarized.run (h : workspace.IsSummarized) (commands : List Command) :
    (workspace.run commands).2.IsSummarized := by
  induction commands generalizing workspace with
  | nil => exact h
  | cons command rest ih => exact ih (h.step command)

theorem types_prefix_run (workspace : Workspace) (commands : List Command) :
    workspace.session.arena.types <+: (workspace.run commands).2.session.arena.types := by
  obtain ⟨types, hrun⟩ := run_exists_interned workspace commands
  rw [hrun]
  exact workspace.session.arena.types_prefix_internEach types

theorem signatures_suffix_run (workspace : Workspace) (commands : List Command) :
    workspace.signatures <:+ (workspace.run commands).2.signatures := by
  induction commands generalizing workspace with
  | nil => exact List.suffix_refl _
  | cons command rest ih =>
    refine List.IsSuffix.trans ?_ (ih (workspace.step command).2)
    rcases step_keeps workspace command with hsame | ⟨_, _, _, -, hmore, -⟩
    · exact hsame ▸ List.suffix_refl _
    · exact hmore ▸ List.suffix_cons _ _

theorem lookup_run {name : Text} (workspace : Workspace) {commands : List Command}
    (h : ∀ command ∈ commands, command.builds? ≠ some name) :
    (workspace.run commands).2.signatures.lookup name = workspace.signatures.lookup name := by
  induction commands generalizing workspace with
  | nil => rfl
  | cons command rest ih =>
    obtain ⟨hcommand, hrest⟩ := List.forall_mem_cons.mp h
    rw [run]
    dsimp only
    rw [ih (workspace.step command).2 hrest]
    rcases step_keeps workspace command with hsame | ⟨other, signature, _, hbuilds, hmore, -⟩
    · rw [hsame]
    · have hne : name ≠ other := fun heq => hcommand (heq ▸ hbuilds)
      rw [hmore, List.lookup_cons, beq_false_of_ne hne]

theorem mapM_lookup_congr {listed : List Text}
    (h : ∀ name ∈ listed, after.signatures.lookup name = workspace.signatures.lookup name) :
    (listed.mapM fun name => after.signatures.lookup name) =
      listed.mapM fun name => workspace.signatures.lookup name := by
  induction listed with
  | nil => rfl
  | cons name rest ih =>
    obtain ⟨hname, hrest⟩ := List.forall_mem_cons.mp h
    rw [List.mapM_cons, List.mapM_cons, hname, ih hrest]

theorem summarize_eq {signature : Signature} (h : workspace.IsSummarized) {name : Text}
    (hgrown : workspace.session.arena.types <+: after.session.arena.types)
    (hkept : workspace.signatures.lookup name = some signature) :
    after.summarize signature = workspace.summarize signature := by
  obtain ⟨flag, hflag⟩ := h _ (LoaderSystem.mem_of_lookup hkept)
  rw [summarize, summarize, hflag, Signature.hasPlaceholder_mono hgrown hflag]

theorem answer_of_asksAbout {names : Text → Prop} {question : Command}
    (hquestion : question.AsksAbout workspace.session.arena.IsGrounded names)
    (hsummarized : workspace.IsSummarized)
    (hgrown : workspace.session.arena.types <+: after.session.arena.types)
    (hnames : ∀ name, names name →
      after.signatures.lookup name = workspace.signatures.lookup name) :
    (after.perform question).answer = (workspace.perform question).answer := by
  cases hquestion with
  | describe hid =>
    dsimp only [perform, ofFault, Workspace.describe]
    rw [Arena.get?_of_issues hgrown hid.issues, hid.descriptor_grown hgrown,
      hid.definingLoader_grown hgrown]
  | descriptor hid =>
    dsimp only [perform, ofFault]
    rw [hid.descriptor_grown hgrown]
  | definingLoader hid =>
    dsimp only [perform, ofFault]
    rw [hid.definingLoader_grown hgrown]
  | summarize hname =>
    dsimp only [perform, withSignature]
    rw [hnames _ hname]
    split
    · rfl
    · next hkept => exact summarize_eq hsummarized hgrown hkept
  | parameterAt index hname =>
    dsimp only [perform, withSignature]
    rw [hnames _ hname]
    split <;> rfl
  | compare hfirst hsecond =>
    dsimp only [perform, withSignature]
    rw [hnames _ hfirst, hnames _ hsecond]
    split
    · rfl
    · split <;> rfl
  | distinct hlisted =>
    dsimp only [perform]
    rw [mapM_lookup_congr fun name hname => hnames name (hlisted name hname)]
    split <;> rfl
  | walkSignature calls hname =>
    dsimp only [perform, withSignature]
    rw [hnames _ hname]
    split <;> rfl

/-- Whatever commands follow, refused ones among them, issued numbers keep their types and, if all
numbers below them are issued, their descriptors and defining loaders. What has been told of a
descriptor, a loader or a placeholder stays so for any number and any signature. Signatures that
are kept can all be summarized, and questions about them are answered as they were. -/
theorem meanings_last (files : FileTree) (bootstrap : ClassPath) (earlier later : List Command) :
    let workspace := ((start files bootstrap).run earlier).2
    let arena := workspace.session.arena
    let after := (workspace.run later).2
    let larger := after.session.arena
    arena.types <+: larger.types ∧
    (∀ id, arena.Issues id → larger.get? id = arena.get? id) ∧
    (∀ id, arena.IsGrounded id → larger.descriptor id = arena.descriptor id ∧
      larger.definingLoader id = arena.definingLoader id) ∧
    (∀ id text, arena.descriptor id = .ok text → larger.descriptor id = .ok text) ∧
    (∀ id loader, arena.definingLoader id = .ok loader → larger.definingLoader id = .ok loader) ∧
    (∀ signature flag, Signature.hasPlaceholder signature arena = .ok flag →
      Signature.hasPlaceholder signature larger = .ok flag) ∧
    workspace.signatures <:+ after.signatures ∧
    (∀ kept ∈ workspace.signatures, ∃ flag, kept.2.hasPlaceholder arena = .ok flag) ∧
    ∀ question, Command.AsksAbout arena.IsGrounded
        (fun name => ∀ command ∈ later, command.builds? ≠ some name) question →
      (after.perform question).answer = (workspace.perform question).answer := by
  intro workspace arena after larger
  have hgrown : arena.types <+: larger.types := types_prefix_run workspace later
  have hstart : (start files bootstrap).IsSummarized := List.forall_mem_nil _
  have hsummarized : workspace.IsSummarized := hstart.run earlier
  refine ⟨hgrown, fun id => Arena.get?_of_issues hgrown, fun id hid => ?_,
    fun id text => Arena.descriptor_mono hgrown, fun id loader => Arena.definingLoader_mono hgrown,
    fun signature flag => Signature.hasPlaceholder_mono hgrown,
    signatures_suffix_run workspace later, hsummarized, fun question hquestion => ?_⟩
  · exact ⟨hid.descriptor_grown hgrown, hid.definingLoader_grown hgrown⟩
  · apply answer_of_asksAbout hquestion hsummarized hgrown
    intro name hname
    exact lookup_run workspace hname

def hopeful : Workspace :=
  ((start .empty (.tagged ['t'] (.place (.memory [])))).run
    [.intern (.loadedClass ['p', '/', 'C'] .bootstrap),
      .build ['s'] ⟨⟨9⟩, none⟩ ⟨['(', 'L', 'q', ';', ')', 'V'], false⟩]).2

def fulfilled : List Command :=
  [.insertClass ['t'] ['q'], .build ['r'] ⟨⟨9⟩, none⟩ ⟨['(', 'L', 'q', ';', ')', 'V'], false⟩]

/-- The method keeps its placeholder, and so differs from the one that is built afterwards. -/
theorem placeholder_outlasts_its_class :
    let after := (hopeful.run fulfilled).2
    (after.perform (.resolve ⟨⟨9⟩, none⟩ ['q'])).answer = .ok (.resolution (.found ⟨11⟩)) ∧
      (after.perform (.compare ['s'] ['r'])).answer = .ok (.flag false) ∧
      ∃ signature, (hopeful.perform (.summarize ['s'])).answer = .ok (.summary ⟨signature, true⟩) ∧
        (after.perform (.summarize ['s'])).answer = .ok (.summary ⟨signature, true⟩) := by
  have hread : Descriptor.ofText? ['(', 'L', 'q', ';', ')', 'V'] =
      some ⟨[.ofClass ⟨['q'], by decide⟩], .void⟩ := Descriptor.ofText?_eq_some_iff.mpr rfl
  obtain ⟨hfound, hdiffers, hsummary⟩ :
      ((hopeful.run fulfilled).2.perform (.resolve ⟨⟨9⟩, none⟩ ['q'])).answer =
          .ok (.resolution (.found ⟨11⟩)) ∧
        ((hopeful.run fulfilled).2.perform (.compare ['s'] ['r'])).answer =
          .ok (.flag false) ∧
        (hopeful.perform (.summarize ['s'])).answer = .ok (.summary
          ⟨⟨⟨[.ofClass ⟨['q'], by decide⟩], .void⟩, ⟨9⟩, [⟨10⟩], .void, 1⟩, true⟩) := by
    simp only [hopeful, fulfilled, run, step, perform, withDescriptor_of_text hread]
    exact ⟨rfl, rfl, rfl⟩
  have hlasts := meanings_last .empty (.tagged ['t'] (.place (.memory [])))
    [.intern (.loadedClass ['p', '/', 'C'] .bootstrap),
      .build ['s'] ⟨⟨9⟩, none⟩ ⟨['(', 'L', 'q', ';', ')', 'V'], false⟩] fulfilled
  obtain ⟨-, -, -, -, -, -, -, -, hanswers⟩ := hlasts
  have hsame := hanswers (.summarize ['s']) (.summarize (by simp [fulfilled, Command.builds?]))
  exact ⟨hfound, hdiffers, _, hsummary, hsame.trans hsummary⟩

/-- An array over the next number has neither descriptor nor loader until that number is issued.
Nor can it be told of a method that returns that number whether there is a placeholder. -/
theorem meaning_comes_with_number :
    let workspace := ((start .empty (.place (.memory []))).run
      [.intern (.loadedClass ['p', '/', 'C'] .bootstrap), .intern (.array ⟨11⟩)]).2
    let after := (workspace.run [.intern (.loadedClass ['x'] .bootstrap)]).2
    let returning : Descriptor := ⟨[], .field (.ofClass ⟨['x'], by decide⟩)⟩
    workspace.session.arena.Issues ⟨10⟩ ∧
      after.session.arena.descriptor ⟨10⟩ ≠ workspace.session.arena.descriptor ⟨10⟩ ∧
      after.session.arena.definingLoader ⟨10⟩ ≠ workspace.session.arena.definingLoader ⟨10⟩ ∧
      ∃ signature, (Signature.build ⟨⟨9⟩, [(['x'], ⟨11⟩)]⟩ returning workspace.session.arena
          workspace.system).answer = .ok signature ∧
        signature.hasPlaceholder after.session.arena ≠
          signature.hasPlaceholder workspace.session.arena := by
  intro workspace after returning
  have hearlier : workspace.session.arena.descriptor ⟨10⟩ = .error (.unissuedType ⟨11⟩) := rfl
  have hlater : after.session.arena.descriptor ⟨10⟩ = .ok ['[', 'L', 'x', ';'] := rfl
  have hnone : workspace.session.arena.definingLoader ⟨10⟩ = .error (.unissuedType ⟨11⟩) := rfl
  have hloader : after.session.arena.definingLoader ⟨10⟩ = .ok (some .bootstrap) := rfl
  refine ⟨⟨.array ⟨11⟩, rfl⟩, ?_, ?_, ⟨returning, ⟨9⟩, [], ⟨11⟩, 0⟩, rfl, ?_⟩
  · rw [hearlier, hlater]
    exact nofun
  · rw [hnone, hloader]
    exact nofun
  · exact nofun

end Workspace
end MethodLinkage
