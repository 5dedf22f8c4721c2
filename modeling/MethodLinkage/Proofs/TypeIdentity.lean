import MethodLinkage.Proofs.ArenaGrowth
import MethodLinkage.Proofs.SelfResolution

/-!
# What identifies a type

A loaded class is told apart from others by its name and its loader, an array by its
dimensions and its innermost element. Both can be read off the descriptor and the
defining loader: classes whose names do not start with a bracket have descriptors
that do not, so the brackets of a descriptor count the dimensions, and a primitive
is one letter where a class has three characters at least.

For this, walks down from arrays have to end at a loaded type. They do as long as
every array is interned after its component and over a type that has values, which
all commands see to but the one that interns a type as it stands.
-/

namespace MethodLinkage

namespace Ty

def isReference : Ty → Bool
  | loadedClass _ _ | array _ => true
  | _ => false

theorem isArrayElement_of_isReference {type : Ty} (h : type.isReference = true) :
    type.isArrayElement = true := by
  cases type with
  | loadedClass | array => rfl
  | primitive | void | placeholder => cases h

end Ty

theorem replicate_append_inj {c : Char} {count count' : Nat} {text text' : Text}
    (hhead : text.head? ≠ some c) (hhead' : text'.head? ≠ some c)
    (h : List.replicate count c ++ text = List.replicate count' c ++ text') :
    count = count' ∧ text = text' := by
  induction count generalizing count' with
  | zero =>
    cases count' with
    | zero => exact ⟨rfl, h⟩
    | succ n =>
      rw [List.replicate_zero, List.nil_append] at h
      rw [h] at hhead
      exact absurd rfl hhead
  | succ m ih =>
    cases count' with
    | zero =>
      rw [List.replicate_zero, List.nil_append] at h
      rw [← h] at hhead'
      exact absurd rfl hhead'
    | succ n =>
      obtain ⟨hcount, htext⟩ := ih (List.cons.inj h).2
      exact ⟨congrArg Nat.succ hcount, htext⟩

namespace Arena

variable {arena : Arena} {id other component : TypeIndex} {type found element element' : Ty}
  {dimensions dimensions' : Nat}

/-- Arrays come after their components, which are loaded and have values. -/
def IsFounded (arena : Arena) : Prop :=
  ∀ id component, arena.get? id = some (.array component) →
    component.toNat < id.toNat ∧ arena.Admits (.array component)

theorem isFounded_fresh : fresh.IsFounded := by
  intro id component h
  have hmem := List.mem_of_getElem? h
  simp [fresh] at hmem

theorem Admits.mono {larger : Arena} (hgrown : arena.types <+: larger.types)
    (h : arena.Admits type) : larger.Admits type := by
  cases type with
  | array component =>
    obtain ⟨inner, hinner, hadmits⟩ := h
    exact ⟨inner, get?_mono hgrown hinner, hadmits⟩
  | primitive | void | loadedClass | placeholder => trivial

theorem IsFounded.intern (h : arena.IsFounded) (hadmits : arena.Admits type) :
    (arena.intern type).2.IsFounded := by
  have hgrown := arena.types_prefix_intern type
  intro id component hid
  rcases get?_intern_cases hid with hold | ⟨rfl, -, hnew⟩
  · obtain ⟨hlt, hcomponent⟩ := h id component hold
    exact ⟨hlt, hcomponent.mono hgrown⟩
  · have hkept := hadmits.mono hgrown
    obtain ⟨inner, hinner, -⟩ := hadmits
    exact ⟨hnew ▸ lt_size_of_get? hinner, hkept⟩

theorem IsFounded.exists_unfolds (h : arena.IsFounded) (hid : arena.get? id = some type)
    (helement : type.isArrayElement = true) :
    ∃ dimensions element, arena.Unfolds id dimensions element ∧
      element.isArrayElement = true := by
  -- components have smaller numbers
  induction hnumber : id.toNat using Nat.strongRecOn generalizing id type with
  | _ number ih =>
    rcases array_or_ne_array type with ⟨component, rfl⟩ | hnot
    · obtain ⟨hlt, inner, hinner, hadmits⟩ := h id component hid
      obtain ⟨dimensions, element, hunfolds, hloaded⟩ := ih _ (hnumber ▸ hlt) hinner hadmits rfl
      exact ⟨dimensions + 1, element, .array hid hunfolds, hloaded⟩
    · exact ⟨0, type, .element hid hnot, helement⟩

/-- No class has a name of an array. -/
def NamesClasses (arena : Arena) : Prop :=
  ∀ id name loader, arena.get? id = some (.loadedClass name loader) → isArrayName name = false

theorem namesClasses_fresh : fresh.NamesClasses := by
  intro id name loader h
  have hmem := List.mem_of_getElem? h
  simp [fresh] at hmem

theorem NamesClasses.intern (h : arena.NamesClasses)
    (htype : ∀ name loader, type = .loadedClass name loader → isArrayName name = false) :
    (arena.intern type).2.NamesClasses := by
  intro id name loader hid
  rcases get?_intern_cases hid with hold | ⟨hnew, -⟩
  · exact h id name loader hold
  · exact htype name loader hnew.symm

theorem NamesClasses.arrays {result : Interned} (h : result.2.NamesClasses) (dimensions : Nat) :
    (result.arrays dimensions).2.NamesClasses :=
  Interned.arrays_keep
    (fun _ _ hbelow => hbelow.intern fun _ _ harray => (by cases harray)) h dimensions

theorem NamesClasses.internOver (h : arena.NamesClasses) (dimensions : Nat)
    (helement : ∀ name loader, element = .loadedClass name loader → isArrayName name = false) :
    (arena.internOver dimensions element).2.NamesClasses :=
  (h.intern helement).arrays dimensions

theorem NamesClasses.arrayOver (h : arena.NamesClasses) (component : TypeIndex)
    (dimensions : Nat) : (arena.arrayOver component dimensions).2.NamesClasses := by
  rw [Arena.arrayOver]
  split
  · exact h
  · split
    · exact h.arrays dimensions
    · exact h

theorem head?_elementDescriptor (hnames : ∀ name loader, element = .loadedClass name loader →
      isArrayName name = false) (hloaded : element.isArrayElement = true)
    (hnot : ∀ component, element ≠ .array component) :
    (elementDescriptor element).head? ≠ some '[' := by
  cases element with
  | primitive base => cases base <;> decide
  | loadedClass name loader =>
    simp [elementDescriptor, classDescriptor, hnames name loader rfl]
  | array component => exact absurd rfl (hnot component)
  | void | placeholder => cases hloaded

theorem eq_of_elementDescriptor {loader : LoaderIndex}
    (hnames : ∀ name loader, element = .loadedClass name loader → isArrayName name = false)
    (hnames' : ∀ name loader, element' = .loadedClass name loader → isArrayName name = false)
    (hloader : elementLoader dimensions element = some loader)
    (hloader' : elementLoader dimensions' element' = some loader)
    (h : elementDescriptor element = elementDescriptor element') : element = element' := by
  cases element with
  | primitive base =>
    cases element' with
    | primitive base' =>
      have hletter : base.letter = base'.letter := List.singleton_inj.mp h
      have hbase := base.ofLetter?_letter
      rw [hletter, base'.ofLetter?_letter] at hbase
      rw [Option.some.inj hbase]
    | loadedClass name' other' =>
      have hlength := congrArg List.length h
      simp [elementDescriptor, classDescriptor, hnames' name' other' rfl] at hlength
    | void | placeholder | array => cases dimensions' <;> cases hloader'
  | loadedClass name other =>
    cases element' with
    | primitive base' =>
      have hlength := congrArg List.length h
      simp [elementDescriptor, classDescriptor, hnames name other rfl] at hlength
    | loadedClass name' other' =>
      have hname : name = name' := by
        simpa [elementDescriptor, classDescriptor, hnames name other rfl, hnames' name' other' rfl]
          using h
      have hother : other = loader := by cases dimensions <;> exact Option.some.inj hloader
      have hother' : other' = loader := by cases dimensions' <;> exact Option.some.inj hloader'
      rw [hname, hother, hother']
    | void | placeholder | array => cases dimensions' <;> cases hloader'
  | void | placeholder | array => cases dimensions <;> cases hloader

theorem exists_elementLoader (hunfolds : arena.Unfolds id dimensions element)
    (hid : arena.get? id = some type) (hreference : type.isReference = true)
    (hloaded : element.isArrayElement = true) :
    ∃ loader, elementLoader dimensions element = some loader := by
  cases hunfolds with
  | element hget hnot =>
    obtain rfl := Option.some.inj (hid.symm.trans hget)
    cases type with
    | loadedClass name loader => exact ⟨loader, rfl⟩
    | array component => exact absurd rfl (hnot component)
    | primitive | void | placeholder => cases hreference
  | array _ hcomponent =>
    cases element with
    | primitive base => exact ⟨.bootstrap, rfl⟩
    | loadedClass name loader => exact ⟨loader, rfl⟩
    | array component => exact absurd rfl (hcomponent.ne_array component)
    | void | placeholder => cases hloaded

theorem NamesClasses.of_unfolds (h : arena.NamesClasses)
    (hunfolds : arena.Unfolds id dimensions element) :
    ∀ name loader, element = .loadedClass name loader → isArrayName name = false := by
  induction hunfolds with
  | element hget _ =>
    rintro name loader rfl
    exact h _ name loader hget
  | array _ _ ih => exact ih

theorem eq_of_unfolds {loader : LoaderIndex} (hvalid : arena.Valid) (hnames : arena.NamesClasses)
    (hid : arena.Unfolds id dimensions element) (hother : arena.Unfolds other dimensions' element')
    (hloaded : element.isArrayElement = true) (hloaded' : element'.isArrayElement = true)
    (hloader : elementLoader dimensions element = some loader)
    (hloader' : elementLoader dimensions' element' = some loader)
    (htext : List.replicate dimensions '[' ++ elementDescriptor element =
      List.replicate dimensions' '[' ++ elementDescriptor element') : id = other := by
  have helement := hnames.of_unfolds hid
  have helement' := hnames.of_unfolds hother
  obtain ⟨rfl, hdescriptor⟩ := replicate_append_inj
    (head?_elementDescriptor helement hloaded hid.ne_array)
    (head?_elementDescriptor helement' hloaded' hother.ne_array) htext
  obtain rfl := eq_of_elementDescriptor helement helement' hloader hloader' hdescriptor
  exact hid.injective hvalid hother

theorem exists_identity (hvalid : arena.Valid) (hfounded : arena.IsFounded)
    (hnames : arena.NamesClasses) (hid : arena.get? id = some type)
    (hreference : type.isReference = true) :
    ∃ text loader, arena.descriptor id = .ok text ∧ arena.definingLoader id = .ok (some loader) ∧
      ∀ other type', arena.get? other = some type' → type'.isReference = true →
        arena.descriptor other = .ok text → arena.definingLoader other = .ok (some loader) →
        other = id := by
  obtain ⟨dimensions, element, hunfolds, hloaded⟩ :=
    hfounded.exists_unfolds hid (Ty.isArrayElement_of_isReference hreference)
  obtain ⟨loader, hloader⟩ := exists_elementLoader hunfolds hid hreference hloaded
  refine ⟨_, loader, descriptor_of_unfolds hunfolds, ?_, ?_⟩
  · rw [definingLoader_of_unfolds hunfolds, hloader]
  · intro other type' hother hreference' htext hdefiner
    obtain ⟨dimensions', element', hunfolds', hloaded'⟩ :=
      hfounded.exists_unfolds hother (Ty.isArrayElement_of_isReference hreference')
    rw [descriptor_of_unfolds hunfolds', Except.ok.injEq] at htext
    rw [definingLoader_of_unfolds hunfolds', Except.ok.injEq] at hdefiner
    exact eq_of_unfolds hvalid hnames hunfolds' hunfolds hloaded' hloaded hdefiner hloader htext

end Arena

namespace Lookups

variable {before after : Arena × LoaderSystem}

theorem isFounded (h : Lookups before after)
    (hfounded : before.1.IsFounded) : after.1.IsFounded := by
  induction h with
  | refl => exact hfounded
  | tail _ step ih =>
    cases step with
    | intern hadmits => exact ih.intern hadmits
    | ask _ _ => exact ih

theorem isFaithful (h : Lookups before after)
    (hfaithful : before.2.IsFaithful) : after.2.IsFaithful := by
  induction h with
  | refl => exact hfaithful
  | tail _ step ih => exact LoaderSystem.isFaithful_of_change (.lookup step) ih

end Lookups

namespace Workspace

/-- Commands that intern no array as it stands and no class under a name of an array, and that
resolve no names but those a scanner gives. -/
def IsOrdinary : Command → Prop
  | .addLoader path _ => path.IsNew
  | .intern (.array _) => False
  | .intern (.loadedClass name _) => isArrayName name = false
  | .resolve _ name => ∃ text kinds isReturn,
      Scanner.Scans text kinds ∧ (.reference name, isReturn) ∈ kinds
  | _ => True

structure IsSound (state : Arena × LoaderSystem) : Prop where
  valid : state.1.Valid
  founded : state.1.IsFounded
  names : state.1.NamesClasses
  faithful : state.2.IsFaithful

variable {arena : Arena} {system : LoaderSystem} {view : Viewpoint} {name : Text}

theorem IsSound.lookups {before after : Arena × LoaderSystem} (h : IsSound before)
    (hlookups : Lookups before after) (hnames : after.1.NamesClasses) : IsSound after :=
  ⟨hlookups.valid h.valid, hlookups.isFounded h.founded, hnames, hlookups.isFaithful h.faithful⟩

theorem IsSound.resolve {type : FieldType} (h : IsSound (arena, system))
    (hname : (Element.field type).kind.name? = some name) :
    IsSound (system.resolve arena view name).left := by
  apply h.lookups (LoaderSystem.resolve_lookups system arena view name)
  cases hloader : arena.accessingLoader view.accessing with
  | error fault =>
    rw [LoaderSystem.resolve, hloader]
    cases view.references.lookup name <;> exact h.names
  | ok loader =>
    obtain ⟨after, -, hresolve⟩ := LoaderSystem.resolve_spec system h.valid
      (LoaderSystem.definingLoader_of_accessingLoader hloader) hname
    rw [hresolve]
    cases view.references.lookup name with
    | some id => exact h.names
    | none =>
      cases type.base with
      | primitive base =>
        apply h.names.internOver
        intro name loader hclass
        cases hclass
      | object className =>
        dsimp only
        rcases hsight : system.sight loader className.text with error | _ | ⟨info, definer⟩
        · exact h.names
        · exact h.names
        · apply h.names.internOver
          intro name loader hclass
          rw [← (Ty.loadedClass.inj hclass).1, LoaderSystem.name_of_sight h.faithful hsight]
          exact isArrayName_className className

theorem IsSound.intern {type : Ty} (h : IsSound (arena, system)) (hadmits : arena.Admits type)
    (hname : ∀ name loader, type = .loadedClass name loader → isArrayName name = false) :
    IsSound ((arena.intern type).2, system) :=
  h.lookups (.single (.intern hadmits)) (h.names.intern hname)

theorem spans_isSound :
    Spans IsOrdinary fun before after => IsSound before → IsSound after where
  within view :=
    { refl := fun _ h => h
      trans := fun hfirst hsecond h => hsecond (hfirst h)
      resolve := fun arena system element name hkind h => by
        cases element with
        | void => cases hkind
        | field type =>
          apply h.resolve
          rw [hkind]
          rfl
      placeholder := fun _ _ _ _ h => h.intern trivial fun _ _ hclass => nomatch hclass }
  still change hsame h :=
    ⟨hsame ▸ h.valid, hsame ▸ h.founded, hsame ▸ h.names,
      LoaderSystem.isFaithful_of_change change h.faithful⟩
  addLoader hnew hadd _ h :=
    ⟨h.valid, h.founded, h.names, LoaderSystem.isFaithful_addLoader hnew hadd h.faithful⟩
  intern {form type} hordinary htype arena system h := by
    cases form with
    | loadedClass name loader =>
      cases htype
      apply h.intern
      · trivial
      · intro other _ hclass
        exact (Ty.loadedClass.inj hclass).1 ▸ hordinary
    | array component => exact absurd hordinary id
    | primitive letter =>
      obtain ⟨base, -, rfl⟩ := Option.map_eq_some_iff.mp htype
      exact h.intern trivial fun _ _ hclass => nomatch hclass
    | void | placeholder =>
      cases htype
      exact h.intern trivial fun _ _ hclass => nomatch hclass
  arrayOver arena element dimensions system h :=
    h.lookups (LoaderSystem.arrayOver_lookups system arena element dimensions)
      (h.names.arrayOver element dimensions)
  resolve {form name} hscanned view arena system h := by
    obtain ⟨text, kinds, isReturn, hscans, hmem⟩ := hscanned
    obtain ⟨type, hname⟩ := Scanner.exists_type_of_scans hscans hmem
    exact h.resolve hname

/-- After ordinary commands, every loaded class and every array has a descriptor and a defining
loader, and no other loaded class or array has the same. -/
theorem descriptor_and_loader_identify (files : FileTree) {bootstrap : ClassPath}
    (hbootstrap : bootstrap.IsNew) {commands : List Command}
    (hcommands : ∀ command ∈ commands, IsOrdinary command) :
    let arena := ((start files bootstrap).run commands).2.session.arena
    ∀ id type, arena.get? id = some type → type.isReference = true →
      ∃ text loader, arena.descriptor id = .ok text ∧
        arena.definingLoader id = .ok (some loader) ∧
        ∀ other type', arena.get? other = some type' → type'.isReference = true →
          arena.descriptor other = .ok text → arena.definingLoader other = .ok (some loader) →
          other = id := by
  intro arena id type hid hreference
  have hstart : IsSound (start files bootstrap).state :=
    ⟨Arena.valid_fresh, Arena.isFounded_fresh, Arena.namesClasses_fresh,
      LoaderSystem.isFaithful_start files hbootstrap⟩
  have hsound := spans_isSound.run (start files bootstrap) hcommands hstart
  exact Arena.exists_identity hsound.valid hsound.founded hsound.names hid hreference

def gathering : List Command :=
  [.addLoader (.place (.memory [['p', '/', 'C']])) .bootstrap,
    .intern (.loadedClass ['p', '/', 'C'] ⟨1⟩), .arrayOver (.ofPrimitive .int) 1,
    .build ['s'] ⟨⟨9⟩, none⟩
      ⟨['(', '[', 'I', '[', 'L', 'p', '/', 'A', ';', ')', 'V'], false⟩,
    .resolve ⟨⟨9⟩, none⟩ ['[', 'L', 'p', '/', 'D', ';']]

theorem arrays_of_bootstrap_differ :
    let bootstrap : ClassPath := .place (.memory [['p', '/', 'A']])
    let arena := ((start .empty bootstrap).run gathering).2.session.arena
    bootstrap.IsNew ∧ (∀ command ∈ gathering, IsOrdinary command) ∧
      arena.descriptor ⟨10⟩ = .ok ['[', 'I'] ∧ arena.definingLoader ⟨10⟩ = .ok (some .bootstrap) ∧
      arena.descriptor ⟨12⟩ = .ok ['[', 'L', 'p', '/', 'A', ';'] ∧
      arena.definingLoader ⟨12⟩ = .ok (some .bootstrap) ∧
      ∀ other type', arena.get? other = some type' → type'.isReference = true →
        arena.descriptor other = .ok ['[', 'L', 'p', '/', 'A', ';'] →
        arena.definingLoader other = .ok (some .bootstrap) → other = ⟨12⟩ := by
  have hread : Descriptor.ofText? ['(', '[', 'I', '[', 'L', 'p', '/', 'A', ';', ')', 'V'] =
      some ⟨[⟨1, .primitive .int, by decide⟩,
        ⟨1, .object ⟨['p', '/', 'A'], by decide⟩, by decide⟩], .void⟩ :=
    Descriptor.ofText?_eq_some_iff.mpr rfl
  have harena : ((start .empty (.place (.memory [['p', '/', 'A']]))).run
      gathering).2.session.arena = ⟨Arena.fresh.types ++ [.loadedClass ['p', '/', 'C'] ⟨1⟩,
        .array (.ofPrimitive .int), .loadedClass ['p', '/', 'A'] .bootstrap, .array ⟨11⟩]⟩ := by
    simp only [gathering, run, step, perform, withDescriptor_of_text hread]
    rfl
  have hscans := Scanner.scans_text
    ⟨[⟨1, .object ⟨['p', '/', 'D'], by decide⟩, by decide⟩], .void⟩
  have hordinary : ∀ command ∈ gathering, IsOrdinary command := by
    simp only [gathering, List.forall_mem_cons]
    refine ⟨.place _, rfl, trivial, trivial, ?_, List.forall_mem_nil _⟩
    exact ⟨_, _, false, hscans, by decide⟩
  have hidentify := descriptor_and_loader_identify .empty
    (.place (.memory [['p', '/', 'A']])) hordinary ⟨12⟩ (.array ⟨11⟩)
  dsimp only at hidentify ⊢
  rw [harena] at hidentify ⊢
  obtain ⟨text, loader, htext, hloader, hunique⟩ := hidentify rfl rfl
  cases htext
  cases hloader
  exact ⟨.place _, hordinary, rfl, rfl, rfl, rfl, hunique⟩

end Workspace
end MethodLinkage
