import MethodLinkage.Proofs.CrossContextEquality
import MethodLinkage.Proofs.SignatureSpelling

/-!
# Classes beside their arrays

A table of references is asked for whole names. A class that it has is therefore
taken from the table, while an array of that class is taken apart and its class is
searched at the loaders. The two agree exactly where the table has what the
accessing loader would find; a table that says more than the loaders makes one
signature see a class as loaded and its arrays as missing.
-/

namespace MethodLinkage

namespace LoaderSystem

variable {system : LoaderSystem} {arena : Arena} {view : Viewpoint}
  {initiating definer : LoaderIndex} {name : Text} {className : ClassName}
  {type : FieldType} {id : TypeIndex}

/-- Once a class has been asked for, its array, then or later, is found as the array over the class
if the class was found loaded, and is missing if the class was. -/
def Coherent (system : LoaderSystem) (arena : Arena) (view : Viewpoint) (className : ClassName)
    (type : FieldType) : Prop :=
  let asked := system.resolve arena view className.text
  ∀ later after, Lookups asked.left (later, after) →
    let outcome := after.resolve later view type.text
    (∀ id own definer, asked.answer = .ok (.found id) →
      asked.arena.get? id = some (.loadedClass own definer) →
      ∃ last, outcome =
        (Outcome.ofArena (later.arrayOver id type.dimensions) last).map .found) ∧
    (∀ missing, asked.answer = .ok (.missing missing) →
      outcome.answer = .ok (.missing type.text))

/-- What the table has for a class is what the accessing loader finds. -/
def TableAgrees (system : LoaderSystem) (arena : Arena) (view : Viewpoint)
    (className : ClassName) : Prop :=
  ∀ id own definer, view.references.lookup className.text = some id →
    arena.get? id = some (.loadedClass own definer) →
    own = className.text ∧ ∃ initiating,
      arena.definingLoader view.accessing = .ok (some initiating) ∧
      system.FindsAt initiating className.text definer

theorem resolve_of_sight (system : LoaderSystem) (hvalid : arena.Valid)
    (hloader : arena.definingLoader view.accessing = .ok (some initiating))
    (hbase : type.base = .object className)
    (hname : (Element.field type).kind.name? = some name)
    (hentry : view.references.lookup name = none) :
    ∃ after, system.resolve arena view name =
      match system.sight initiating className.text with
      | .error error => .error error arena after
      | .ok none => .ok (.missing name) arena after
      | .ok (some (info, definer)) =>
        (Outcome.ofArena (arena.internOver type.dimensions (.loadedClass info.name definer))
          after).map .found := by
  obtain ⟨after, -, hresolve⟩ := resolve_spec system hvalid hloader hname
  refine ⟨after, ?_⟩
  rcases hsight : system.sight initiating className.text with error | _ | ⟨info, definer⟩
  all_goals simp only [hresolve, hentry, hbase, hsight]

theorem resolve_array_of_sight {info : FoundClass} (hvalid : arena.Valid)
    (hloader : arena.definingLoader view.accessing = .ok (some initiating))
    (hbase : type.base = .object className) (hne : type.dimensions ≠ 0)
    (hentry : view.references.lookup type.text = none)
    (hsight : system.sight initiating className.text = .ok (some (info, definer)))
    (hget : arena.get? id = some (.loadedClass info.name definer)) :
    ∃ after, system.resolve arena view type.text =
      (Outcome.ofArena (arena.arrayOver id type.dimensions) after).map .found := by
  obtain ⟨after, hresolve⟩ :=
    resolve_of_sight system hvalid hloader hbase (Element.name?_of_dimensions hne) hentry
  have hclass := Arena.intern_of_get? hvalid hget
  have hover := Arena.arrayOver_intern type.dimensions rfl (congrArg Prod.fst hclass)
  rw [hclass] at hover
  rw [hresolve, hsight, hover]
  exact ⟨after, rfl⟩

theorem sight_of_resolve_array {own : Text} {array : TypeIndex} {last : LoaderSystem}
    (hvalid : arena.Valid)
    (hloader : arena.definingLoader view.accessing = .ok (some initiating))
    (hbase : type.base = .object className) (hne : type.dimensions ≠ 0)
    (hentry : view.references.lookup type.text = none)
    (hget : arena.get? id = some (.loadedClass own definer))
    (harray : (arena.arrayOver id type.dimensions).1 = .ok array)
    (houtcome : system.resolve arena view type.text =
      (Outcome.ofArena (arena.arrayOver id type.dimensions) last).map .found) :
    ∃ info, system.sight initiating className.text = .ok (some (info, definer)) ∧
      info.name = own := by
  obtain ⟨after, hresolve⟩ :=
    resolve_of_sight system hvalid hloader hbase (Element.name?_of_dimensions hne) hentry
  have hanswer : (system.resolve arena view type.text).answer = .ok (.found array) := by
    rw [houtcome, Outcome.map, Outcome.ofArena, harray]
    rfl
  -- the array stands over the class of the table and over the one that the search ends at
  have hentered : (system.resolve arena view type.text).arena.Unfolds array type.dimensions
      (.loadedClass own definer) := by
    rw [houtcome]
    dsimp only [Outcome.map, Outcome.ofArena]
    rw [Arena.arrayOver_of_element hget rfl] at harray ⊢
    exact Interned.unfolds_arrays rfl (.element hget fun _ h => (by cases h)) harray
  rw [hresolve] at hanswer hentered
  rcases hsight : system.sight initiating className.text with error | _ | ⟨info, finder⟩
  · simp [hsight, Outcome.error] at hanswer
  · simp [hsight, Outcome.ok] at hanswer
  · simp only [hsight] at hanswer hentered
    have hsearched := Arena.unfolds_internOver (fun _ h => (by cases h))
      (id_of_found hanswer)
    obtain ⟨-, heq⟩ := hsearched.unique hentered
    cases heq
    exact ⟨info, rfl, rfl⟩

theorem resolve_of_entry (h : view.references.lookup name = some id) :
    system.resolve arena view name = .ok (.found id) arena system := by
  rw [resolve, h]

theorem exists_sight_of_found {own : Text} (hvalid : arena.Valid)
    (hentry : view.references.lookup className.text = none)
    (hfound : (system.resolve arena view className.text).answer = .ok (.found id))
    (hget : (system.resolve arena view className.text).arena.get? id =
      some (.loadedClass own definer)) :
    ∃ initiating info, arena.definingLoader view.accessing = .ok (some initiating) ∧
      system.sight initiating className.text = .ok (some (info, definer)) ∧ info.name = own := by
  obtain ⟨initiating, hloader⟩ := definingLoader_of_resolve hentry hfound
  obtain ⟨after, hresolve⟩ :=
    resolve_of_sight system hvalid hloader rfl (Element.name?_ofClass className) hentry
  rw [hresolve] at hfound hget
  rcases hsight : system.sight initiating className.text with error | _ | ⟨info, finder⟩
  · simp [hsight, Outcome.error] at hfound
  · simp [hsight, Outcome.ok] at hfound
  · simp only [hsight] at hfound hget
    cases (Arena.get?_intern (id_of_found hfound)).symm.trans hget
    exact ⟨initiating, info, hloader, hsight, rfl⟩

theorem sight_of_missing {missing : Text}
    (hvalid : arena.Valid)
    (hmissing : (system.resolve arena view className.text).answer = .ok (.missing missing)) :
    ∃ initiating, arena.definingLoader view.accessing = .ok (some initiating) ∧
      system.sight initiating className.text = .ok none := by
  have hentry : view.references.lookup className.text = none := by
    cases hentry : view.references.lookup className.text with
    | none => rfl
    | some known =>
      rw [resolve_of_entry hentry] at hmissing
      cases hmissing
  obtain ⟨initiating, hloader⟩ := definingLoader_of_resolve hentry hmissing
  obtain ⟨after, hresolve⟩ :=
    resolve_of_sight system hvalid hloader rfl (Element.name?_ofClass className) hentry
  rw [hresolve] at hmissing
  rcases hsight : system.sight initiating className.text with error | _ | ⟨info, finder⟩
  · simp [hsight, Outcome.error] at hmissing
  · exact ⟨initiating, hloader, hsight⟩
  · simp only [hsight] at hmissing
    generalize arena.internOver _ (.loadedClass info.name finder) = interned at hmissing
    obtain ⟨_ | id, larger⟩ := interned <;> cases hmissing

/-- Classes and their arrays resolve coherently exactly where the table, if it has the class, has
the one that the accessing loader finds; there have to be numbers for arrays over that class. -/
theorem coherent_iff_table_agrees (harena : arena.Reached) (hsystem : system.Reached)
    (hbase : type.base = .object className) (hne : type.dimensions ≠ 0)
    (hentry : view.references.lookup type.text = none) (hroom : arena.HasRoom type.dimensions) :
    system.Coherent arena view className type ↔ system.TableAgrees arena view className := by
  constructor
  · intro h id own definer hknown hget
    obtain ⟨hfound, -⟩ := h arena system (by rw [resolve_of_entry hknown]; exact .refl)
    rw [resolve_of_entry hknown] at hfound
    obtain ⟨last, houtcome⟩ := hfound id own definer rfl hget
    obtain ⟨array, harray⟩ := (Arena.ok_or_runsOut_arrayOver hget rfl type.dimensions).resolve_right
      fun hout => hout.noRoom hroom
    have hanswer : (system.resolve arena view type.text).answer = .ok (.found array) := by
      rw [houtcome, Outcome.map, Outcome.ofArena, harray]
      rfl
    obtain ⟨initiating, hloader⟩ := definingLoader_of_resolve hentry hanswer
    obtain ⟨info, hsight, hown⟩ :=
      sight_of_resolve_array harena.valid hloader hbase hne hentry hget harray houtcome
    have hname := name_of_sight hsystem.isFaithful hsight
    exact ⟨hown.symm.trans hname, initiating, hloader,
      findsAt_iff.mpr ⟨info, hsight, answer?_of_sight hsight⟩⟩
  · intro h later after hlookups
    have hall : Lookups (arena, system) (later, after) :=
      (resolve_lookups system arena view className.text).trans hlookups
    have hvalid := hall.valid harena.valid
    constructor
    · intro id own definer hfound hget
      have hsearched : ∃ initiating info,
          arena.definingLoader view.accessing = .ok (some initiating) ∧
          system.sight initiating className.text = .ok (some (info, definer)) ∧
          info.name = own := by
        cases hknown : view.references.lookup className.text with
        | none => exact exists_sight_of_found harena.valid hknown hfound hget
        | some known =>
          rw [resolve_of_entry hknown] at hfound hget
          cases hfound
          obtain ⟨hown, initiating, hloader, hfinds⟩ := h id own definer hknown hget
          obtain ⟨info, hsight, -⟩ := findsAt_iff.mp hfinds
          have hname := name_of_sight hsystem.isFaithful hsight
          exact ⟨initiating, info, hloader, hsight, hname.trans hown.symm⟩
      obtain ⟨initiating, info, hloader, hsight, hown⟩ := hsearched
      rw [← hown] at hget
      rw [← sight_congr hall.sameAnswers] at hsight
      exact resolve_array_of_sight hvalid (Arena.definingLoader_mono hall.types_prefix hloader)
        hbase hne hentry hsight (Arena.get?_mono hlookups.types_prefix hget)
    · intro missing hmissing
      obtain ⟨initiating, hloader, hsight⟩ := sight_of_missing harena.valid hmissing
      obtain ⟨_, hresolve⟩ := resolve_of_sight after hvalid
        (Arena.definingLoader_mono hall.types_prefix hloader) hbase
        (Element.name?_of_dimensions hne) hentry
      rw [hresolve, sight_congr hall.sameAnswers, hsight]
      rfl

/-- Both siblings have a `p/C` of their own. A table of the first that has its own resolves the
class and its arrays coherently, and one that has the other's does not. -/
theorem own_class_coheres_and_other_does_not :
    let own : Viewpoint := ⟨⟨9⟩, [(['p', '/', 'C'], ⟨9⟩)]⟩
    let other : Viewpoint := ⟨⟨9⟩, [(['p', '/', 'C'], ⟨10⟩)]⟩
    let className : ClassName := ⟨['p', '/', 'C'], by decide⟩
    let arrays : FieldType := ⟨2, .object className, by decide⟩
    Workspace.siblings.system.Coherent Workspace.siblings.session.arena own className arrays ∧
      ¬ Workspace.siblings.system.Coherent Workspace.siblings.session.arena other className
        arrays := by
  intro own other className arrays
  have harena : Workspace.siblings.session.arena.Reached := ⟨_, Workspace.siblings_reached, rfl⟩
  have hsystem : Workspace.siblings.system.Reached := ⟨_, Workspace.siblings_reached, rfl⟩
  have hroom : Workspace.siblings.session.arena.HasRoom arrays.dimensions :=
    (show Workspace.siblings.session.arena.size + 2 ≤ numberLimit by decide)
  have hfinds : Workspace.siblings.system.FindsAt ⟨1⟩ className.text ⟨1⟩ :=
    findsAt_iff.mpr ⟨_, rfl, rfl⟩
  constructor
  · apply (coherent_iff_table_agrees harena hsystem rfl (by decide) rfl hroom).mpr
    intro id name definer hentry hget
    cases hentry
    cases hget
    exact ⟨rfl, ⟨1⟩, rfl, hfinds⟩
  · intro h
    obtain ⟨-, initiating, hloader, hother⟩ :=
      (coherent_iff_table_agrees harena hsystem rfl (by decide) rfl hroom).mp h ⟨10⟩ _ _ rfl rfl
    cases hloader
    -- the first sibling finds its own class, not that of the second
    obtain ⟨_, hsight, -⟩ := findsAt_iff.mp hfinds
    obtain ⟨_, hsight', -⟩ := findsAt_iff.mp hother
    rw [hsight] at hsight'
    cases hsight'

end LoaderSystem

namespace Workspace

def unbacked : Workspace :=
  ((start .empty (.place (.memory []))).run
    [.intern (.loadedClass ['p', '/', 'C'] .bootstrap)]).2

theorem unbacked_reached : unbacked.Reached := ⟨_, _, _, .place _, by simp [IsProper], rfl⟩

def unbackedView : Viewpoint := ⟨⟨9⟩, [(['p', '/', 'C'], ⟨9⟩)]⟩

def unbackedClass : ClassName := ⟨['p', '/', 'C'], by decide⟩

def unbackedArray : FieldType := ⟨3, .object unbackedClass, by decide⟩

/-- The class is loaded, as the table has it, and its array is missing: the signature of a method
of both shows the one as loaded and the other as not. -/
theorem class_in_table_without_its_array :
    let built := Signature.build unbackedView ⟨[.ofClass unbackedClass, unbackedArray], .void⟩
      unbacked.session.arena unbacked.system
    unbacked.Reached ∧ unbackedView.references.lookup unbackedArray.text = none ∧
      ¬ unbacked.system.Coherent unbacked.session.arena unbackedView unbackedClass unbackedArray ∧
      ∃ signature, built.answer = .ok signature ∧ signature.parameters = [⟨9⟩, ⟨10⟩] ∧
        built.arena.get? ⟨9⟩ = some (.loadedClass unbackedClass.text .bootstrap) ∧
        built.arena.get? ⟨10⟩ = some (.placeholder unbackedArray.text .bootstrap) := by
  intro built
  refine ⟨unbacked_reached, rfl, ?_, _, rfl, rfl, rfl, rfl⟩
  intro h
  obtain ⟨hfound, -⟩ := h unbacked.session.arena unbacked.system .refl
  obtain ⟨last, houtcome⟩ := hfound ⟨9⟩ _ _ rfl rfl
  cases congrArg Outcome.answer houtcome

end Workspace
end MethodLinkage
