import MethodLinkage.Session
import MethodLinkage.Resolution.LoaderSystem
import MethodLinkage.Signature.Building
import MethodLinkage.Signature.Matching
import MethodLinkage.Workspace.Command

/-!
# Workspaces

A workspace is a session with a loader system, named reference tables and named
signatures. It performs commands one after another. A refused command keeps
whatever it had changed by then, and the next command goes on from there.
-/

namespace MethodLinkage

structure Workspace where
  session : Session
  system : LoaderSystem
  tables : List (Text × References)
  signatures : List (Text × Signature)

/-- What one command leaves behind: its answer, the number of types, the names
that were given to the resolver and the lookups noted at tagged class paths. -/
structure Report where
  answer : Except Refusal Answer
  typeCount : Nat
  asked : List Text
  probes : List Probe

namespace Workspace

def start (files : FileTree) (bootstrap : ClassPath) : Workspace :=
  ⟨.fresh, .start files bootstrap, [], []⟩

def withArena (workspace : Workspace) (arena : Arena) : Workspace :=
  { workspace with session := { workspace.session with arena := arena } }

def withFiles (workspace : Workspace) (files : FileTree) : Workspace :=
  { workspace with system := { workspace.system with files := files } }

structure Performed where
  answer : Except Refusal Answer
  after : Workspace
  asked : List Text

def answer (workspace : Workspace) (answer : Answer) : Performed := ⟨.ok answer, workspace, []⟩

def refuse (workspace : Workspace) (refusal : Refusal) : Performed :=
  ⟨.error refusal, workspace, []⟩

def ofFault (workspace : Workspace) (result : Except Fault Answer) : Performed :=
  ⟨result.mapError fun fault => .failure (.fault fault), workspace, []⟩

def resolving {α : Type} (workspace : Workspace)
    (call : Arena → Recorded LoaderSystem → Outcome (Recorded LoaderSystem) α)
    (finish : Workspace → α → Except Refusal Answer × Workspace) : Performed :=
  let outcome := call workspace.session.arena ⟨workspace.system, []⟩
  let after := { workspace.withArena outcome.arena with system := outcome.resolver.inner }
  match outcome.answer with
  | .error failure => ⟨.error (.failure failure), after, outcome.resolver.asked⟩
  | .ok value =>
    let (answer, final) := finish after value
    ⟨answer, final, outcome.resolver.asked⟩

def table (workspace : Workspace) (name : Option Text) : References :=
  (name.bind fun name => workspace.tables.lookup name).getD []

def viewpoint (workspace : Workspace) (form : ViewpointForm) : Viewpoint :=
  ⟨form.accessing, workspace.table form.table⟩

def withSignature (workspace : Workspace) (name : Text)
    (next : Signature → Performed) : Performed :=
  match workspace.signatures.lookup name with
  | none => workspace.refuse (.unknownName name)
  | some signature => next signature

/-- Nothing else happens when a descriptor is malformed. -/
def withDescriptor (workspace : Workspace) (form : DescriptorForm)
    (next : Workspace → Descriptor → Performed) : Performed :=
  let read :=
    if form.isPooled then
      (workspace.session.descriptor? form.text).map fun (descriptor, session) =>
        (descriptor, { workspace with session := session })
    else (Descriptor.ofText? form.text).map fun descriptor => (descriptor, workspace)
  match read with
  | none => workspace.refuse .invalidDescriptor
  | some (descriptor, after) => next after descriptor

def summarize (workspace : Workspace) (signature : Signature) : Except Refusal Answer :=
  match signature.hasPlaceholder workspace.session.arena with
  | .ok hasPlaceholder => .ok (.summary ⟨signature, hasPlaceholder⟩)
  | .error fault => .error (.failure (.fault fault))

/-- A signature whose summary cannot be given is not kept. -/
def keep (name : Text) (workspace : Workspace) (signature : Signature) :
    Except Refusal Answer × Workspace :=
  match workspace.summarize signature with
  | .ok answer =>
    (.ok answer, { workspace with signatures := (name, signature) :: workspace.signatures })
  | .error refusal => (.error refusal, workspace)

def describe (arena : Arena) (id : TypeIndex) : Except Fault Answer :=
  match arena.get? id, arena.descriptor id, arena.definingLoader id with
  | some type, .ok descriptor, .ok loader => .ok (.description ⟨type, descriptor, loader⟩)
  | none, _, _ => .error (.unissuedType id)
  | _, .error fault, _ | _, _, .error fault => .error fault

def perform (workspace : Workspace) : Command → Performed
  | .primitive letter =>
    match Primitive.ofLetter? letter with
    | some type => workspace.answer (.type (.ofPrimitive type))
    | none => workspace.refuse .invalidDescriptor
  | .void => workspace.answer (.type .void)
  | .intern form =>
    match form.type? with
    | none => workspace.refuse .invalidDescriptor
    | some type =>
      let (id, arena) := workspace.session.arena.intern type
      (workspace.withArena arena).ofFault (id.map .type)
  | .arrayOver element dimensions =>
    let (id, arena) := workspace.session.arena.arrayOver element dimensions
    (workspace.withArena arena).ofFault (id.map .type)
  | .describe id => workspace.ofFault (describe workspace.session.arena id)
  | .descriptor id => workspace.ofFault ((workspace.session.arena.descriptor id).map .text)
  | .definingLoader id =>
    workspace.ofFault ((workspace.session.arena.definingLoader id).map .loaderOrNone)
  | .symbol text =>
    workspace.withDescriptor ⟨text, true⟩ fun after descriptor =>
      after.answer (.text descriptor.text)
  | .addLoader path parent =>
    match workspace.system.addLoader path parent with
    | .error fault => workspace.refuse (.failure (.fault fault))
    | .ok (id, system) => { workspace with system := system }.answer (.loader id)
  | .insertClass tag name =>
    { workspace with system := workspace.system.insertClass tag name }.answer .done
  | .writeFile path content =>
    (workspace.withFiles (workspace.system.files.write path content)).answer .done
  | .removeFile path => (workspace.withFiles (workspace.system.files.remove path)).answer .done
  | .findClass id name =>
    match workspace.system.loader? id with
    | none => workspace.refuse (.failure (.fault (.missingLoader id)))
    | some loader =>
      let (result, system) := workspace.system.ask id loader name
      ⟨(result.map .classInfo).mapError .lookup, { workspace with system := system }, []⟩
  | .newTable table => { workspace with tables := (table, []) :: workspace.tables }.answer .done
  | .addReference table name id =>
    match workspace.tables.lookup table with
    | none => workspace.refuse (.unknownName table)
    | some references =>
      let entry := (table, references.insert name id)
      { workspace with tables := entry :: workspace.tables }.answer .done
  | .lookUp table name => workspace.answer (.typeOrNone ((workspace.table table).lookup name))
  | .resolve view name =>
    workspace.resolving
      (fun arena resolver => Resolver.resolve resolver arena (workspace.viewpoint view) name)
      fun after resolution => (.ok (.resolution resolution), after)
  | .build name view form =>
    workspace.withDescriptor form fun workspace descriptor =>
      workspace.resolving (Signature.build (workspace.viewpoint view) descriptor) (keep name)
  | .summarize name =>
    workspace.withSignature name fun signature =>
      ⟨workspace.summarize signature, workspace, []⟩
  | .parameterAt name index =>
    workspace.withSignature name fun signature =>
      workspace.ofFault ((signature.parameter index).map .type)
  | .compare first second =>
    workspace.withSignature first fun a =>
      workspace.withSignature second fun b => workspace.answer (.flag (a == b))
  | .distinct names =>
    match names.mapM fun name => workspace.signatures.lookup name with
    | none => workspace.refuse (.unknownName [])
    | some signatures => workspace.answer (.flags (Signature.insertEach {} signatures))
  | .matchDescriptor name view form skipped =>
    workspace.withSignature name fun signature =>
      workspace.withDescriptor form fun workspace descriptor =>
        workspace.resolving
          (signature.matchDescriptor (workspace.viewpoint view) descriptor skipped)
          fun after isMatch => (.ok (.flag isMatch), after)
  | .walkSignature name calls =>
    workspace.withSignature name fun signature =>
      workspace.answer (.signatureReplies ((SignatureCursor.start signature).run calls))
  | .walkDescriptor view form calls =>
    workspace.withDescriptor form fun workspace descriptor =>
      workspace.resolving (DescriptorCursor.walk (workspace.viewpoint view) descriptor calls)
        fun after replies => (.ok (.descriptorReplies replies), after)

def step (workspace : Workspace) (command : Command) : Report × Workspace :=
  let quiet := { workspace with system := { workspace.system with probes := [] } }
  let performed := quiet.perform command
  let after := performed.after
  (⟨performed.answer, after.session.arena.size, performed.asked, after.system.probes⟩, after)

def run (workspace : Workspace) : List Command → List Report × Workspace
  | [] => ([], workspace)
  | command :: rest =>
    let (report, after) := workspace.step command
    let (reports, last) := after.run rest
    (report :: reports, last)

end Workspace

end MethodLinkage
