import Mathlib.Logic.Relation
import MethodLinkage.Proofs.ArenaUnfolding
import MethodLinkage.Proofs.CursorLoops
import MethodLinkage.Proofs.ParentFirstSearch

/-!
# What a resolution can change

Whatever is built on a resolver changes its state only by what one resolution
does and by interning placeholders (`Resolver.Within`). For loader systems one
resolution is a run of two elementary steps: a type is interned, whose component
is loaded and has values if it is an array, or one loader is asked for a name.
-/

namespace MethodLinkage

variable {ρ α β : Type}

def Outcome.left (outcome : Outcome ρ α) : Arena × ρ := (outcome.arena, outcome.resolver)

/-- A relation of states that resolving the name of an element, an interned placeholder and any run
of these keep, as seen from a viewpoint. -/
structure Resolver.Within (ρ : Type) [Resolver ρ] (view : Viewpoint)
    (reaches : Arena × ρ → Arena × ρ → Prop) : Prop where
  refl : ∀ state, reaches state state
  trans : ∀ {first second third}, reaches first second → reaches second third →
    reaches first third
  resolve : ∀ arena resolver (element : Element) name, element.kind = .reference name →
    reaches (arena, resolver) (Resolver.resolve resolver arena view name).left
  placeholder : ∀ arena resolver name loader,
    reaches (arena, resolver) ((arena.intern (.placeholder name loader)).2, resolver)

namespace Resolver.Within

variable [Resolver ρ] {view : Viewpoint} {reaches : Arena × ρ → Arena × ρ → Prop}
  {start : Arena × ρ}

theorem andThen (h : Within ρ view reaches) {outcome : Outcome ρ α}
    {next : α → Arena → ρ → Outcome ρ β} (houtcome : reaches start outcome.left)
    (hnext : ∀ value arena resolver, reaches (arena, resolver) (next value arena resolver).left) :
    reaches start (outcome.andThen next).left := by
  obtain ⟨answer, arena, resolver⟩ := outcome
  cases answer with
  | ok value => exact h.trans houtcome (hnext value arena resolver)
  | error failure => exact houtcome

theorem resolveElement (h : Within ρ view reaches) (loader : LoaderIndex)
    (element : Element) (arena : Arena) (resolver : ρ) :
    reaches (arena, resolver) (resolveElement view loader element arena resolver).left := by
  unfold MethodLinkage.resolveElement
  split
  · exact h.refl _
  · exact h.refl _
  · next name hkind =>
    apply h.andThen (h.resolve arena resolver element name hkind)
    intro resolution arena resolver
    cases resolution with
    | found id => exact h.refl _
    | missing name => exact h.placeholder arena resolver name loader

theorem resolveParameters (h : Within ρ view reaches) (loader : LoaderIndex)
    (types : List FieldType) (arena : Arena) (resolver : ρ) :
    reaches (arena, resolver)
      (Signature.resolveParameters view loader types arena resolver).left := by
  induction types generalizing arena resolver with
  | nil => exact h.refl _
  | cons type types ih =>
    refine h.andThen (h.resolveElement ..) fun id arena resolver => ?_
    dsimp only
    split
    · exact h.refl _
    · exact h.andThen (ih arena resolver) fun _ _ _ => h.refl _

theorem build (h : Within ρ view reaches) (descriptor : Descriptor)
    (arena : Arena) (resolver : ρ) :
    reaches (arena, resolver) (Signature.build view descriptor arena resolver).left := by
  rw [Signature.build_eq]
  split
  · exact h.refl _
  · refine h.andThen (h.resolveParameters ..) fun parameters arena resolver => ?_
    exact h.andThen (h.resolveElement ..) fun _ _ _ => h.refl _

theorem typeOf (h : Within ρ view reaches) (loader : LoaderIndex)
    (known : Option TypeIndex) (pending : List PlacedElement) (arena : Arena) (resolver : ρ) :
    reaches (arena, resolver)
      (DescriptorCursor.typeOf view loader known pending arena resolver).left := by
  unfold DescriptorCursor.typeOf
  split
  · exact h.refl _
  · exact h.refl _
  · exact h.resolveElement ..

theorem matchPending (h : Within ρ view reaches) (loader : LoaderIndex)
    (owns : List PlacedType) (pending : List PlacedElement) (known : Option TypeIndex)
    (arena : Arena) (resolver : ρ) :
    reaches (arena, resolver)
      (Signature.matchPending view loader owns pending known arena resolver).left := by
  induction pending generalizing owns known arena resolver with
  | nil => cases owns <;> exact h.refl _
  | cons placed rest ih =>
    cases owns with
    | nil => exact h.refl _
    | cons own owns =>
      unfold Signature.matchPending
      split
      · exact h.refl _
      · refine h.andThen (h.typeOf ..) fun id arena resolver => ?_
        split
        · exact ih owns none arena resolver
        · exact h.refl _

theorem matchDescriptor (h : ∀ view, Within ρ view reaches) (signature : Signature)
    (view : Viewpoint) (descriptor : Descriptor) (skipped : Nat) (arena : Arena) (resolver : ρ) :
    reaches (arena, resolver)
      (signature.matchDescriptor view descriptor skipped arena resolver).left := by
  unfold Signature.matchDescriptor
  split
  · exact (h view).refl _
  · split
    · exact (h view).refl _
    · next cursor _ =>
      rw [Signature.matchCursor_eq]
      split
      · exact (h cursor.view).matchPending ..
      · exact (h view).refl _

theorem recorded (h : Within ρ view reaches) :
    Within (Recorded ρ) view fun before after =>
      reaches (before.1, before.2.inner) (after.1, after.2.inner) where
  refl _ := h.refl _
  trans := h.trans
  resolve arena resolver element name hkind := h.resolve arena resolver.inner element name hkind
  placeholder arena resolver name loader := h.placeholder arena resolver.inner name loader

theorem call {reaches : Arena × Recorded ρ → Arena × Recorded ρ → Prop}
    (h : ∀ view, Within (Recorded ρ) view reaches) (cursor : DescriptorCursor) (arena : Arena)
    (resolver : Recorded ρ) (call : DescriptorCursor.Call) :
    reaches (arena, resolver) (cursor.call arena resolver call).1.left := by
  have hhere := h cursor.view
  cases call with
  | current => exact hhere.andThen (hhere.typeOf ..) fun _ _ _ => hhere.refl _
  | advance =>
    unfold DescriptorCursor.call
    dsimp only
    split <;> exact hhere.refl _
  | isExhausted | onReturn | symbol | typeCount | askedCount => exact hhere.refl _

theorem run {reaches : Arena × Recorded ρ → Arena × Recorded ρ → Prop}
    (h : ∀ view, Within (Recorded ρ) view reaches) (cursor : DescriptorCursor)
    (calls : List DescriptorCursor.Call) (arena : Arena) (resolver : Recorded ρ) :
    reaches (arena, resolver) (cursor.run arena resolver calls).2 := by
  induction calls generalizing cursor arena resolver with
  | nil => exact (h cursor.view).refl _
  | cons first calls ih =>
    exact (h cursor.view).trans (call h cursor arena resolver first) (ih ..)

theorem walk {reaches : Arena × Recorded ρ → Arena × Recorded ρ → Prop}
    (h : ∀ view, Within (Recorded ρ) view reaches) (view : Viewpoint) (descriptor : Descriptor)
    (calls : List DescriptorCursor.Call) (arena : Arena) (resolver : Recorded ρ) :
    reaches (arena, resolver)
      (DescriptorCursor.walk view descriptor calls arena resolver).left := by
  unfold DescriptorCursor.walk
  split
  · exact (h view).refl _
  · exact run h ..

end Resolver.Within

/-- An array is admitted over a component that is loaded and has values. -/
def Arena.Admits (arena : Arena) : Ty → Prop
  | .array component => ∃ type, arena.get? component = some type ∧ type.isArrayElement = true
  | _ => True

theorem Arena.exists_of_arrayOver {arena : Arena} {element id : TypeIndex} {dimensions : Nat}
    (h : (arena.arrayOver element dimensions).1 = .ok id) :
    arena.Admits (.array element) ∧
      arena.arrayOver element dimensions = Interned.arrays (.ok element, arena) dimensions := by
  cases hget : arena.get? element with
  | none =>
    rw [arrayOver, hget] at h
    cases h
  | some type =>
    cases helement : type.isArrayElement with
    | true => exact ⟨⟨type, hget, helement⟩, arrayOver_of_element hget helement dimensions⟩
    | false =>
      rw [arrayOver, hget] at h
      simp [helement] at h

theorem Arena.Admits.arrays {arena : Arena} {component id : TypeIndex} {dimensions : Nat}
    (h : arena.Admits (.array component))
    (hid : (Interned.arrays (.ok component, arena) dimensions).1 = .ok id) :
    (Interned.arrays (.ok component, arena) dimensions).2.Admits (.array id) := by
  cases dimensions with
  | zero =>
    cases hid
    exact h
  | succ n =>
    obtain ⟨below, -, heq⟩ := Interned.exists_of_arrays_succ hid
    rw [heq] at hid ⊢
    exact ⟨_, get?_intern hid, rfl⟩

inductive LookupStep : Arena × LoaderSystem → Arena × LoaderSystem → Prop where
  | intern {arena : Arena} {system : LoaderSystem} {type : Ty} : arena.Admits type →
      LookupStep (arena, system) ((arena.intern type).2, system)
  | ask {arena : Arena} {system : LoaderSystem} {id : LoaderIndex} {loader : Loader}
      (name : Text) : system.loader? id = some loader →
      LookupStep (arena, system) (arena, (system.ask id loader name).2)

abbrev Lookups : Arena × LoaderSystem → Arena × LoaderSystem → Prop :=
  Relation.ReflTransGen LookupStep

namespace LoaderSystem

def AsksOnly (ids : List LoaderIndex) : LoaderSystem → LoaderSystem → Prop :=
  Relation.ReflTransGen fun before after => ∃ id ∈ ids, ∃ loader name,
    before.loader? id = some loader ∧ after = (before.ask id loader name).2

theorem AsksOnly.lookups {ids : List LoaderIndex} {system after : LoaderSystem}
    (h : AsksOnly ids system after) (arena : Arena) : Lookups (arena, system) (arena, after) := by
  induction h with
  | refl => exact .refl
  | tail _ hstep ih =>
    obtain ⟨id, -, loader, name, hloader, rfl⟩ := hstep
    exact ih.tail (.ask name hloader)

theorem asksOnly_search (system : LoaderSystem) (name : Text) {ids chain : List LoaderIndex}
    (h : ∀ id ∈ ids, id ∈ chain) : AsksOnly chain system (system.search name ids).2 := by
  induction ids generalizing system with
  | nil => exact .refl
  | cons id rest ih =>
    obtain ⟨hid, hrest⟩ := List.forall_mem_cons.mp h
    rw [search]
    split
    · exact .refl
    · next loader hloader =>
      have hstep : AsksOnly chain system (system.ask id loader name).2 :=
        .single ⟨id, hid, loader, name, hloader, rfl⟩
      split
      · next hask => rwa [hask] at hstep
      · next hask =>
        rw [hask] at hstep
        exact hstep.trans (ih _ hrest)
      · next hask => rwa [hask] at hstep

theorem search_lookups (arena : Arena) (system : LoaderSystem) (name : Text)
    (chain : List LoaderIndex) :
    Lookups (arena, system) (arena, (system.search name chain).2) :=
  (asksOnly_search system name fun _ hid => hid).lookups arena

theorem arrays_lookups (system : LoaderSystem) {arena : Arena} {component : TypeIndex}
    (h : arena.Admits (.array component)) (dimensions : Nat) :
    Lookups (arena, system) ((Interned.arrays (.ok component, arena) dimensions).2, system) := by
  induction dimensions with
  | zero => exact .refl
  | succ n ih =>
    cases hbelow : (Interned.arrays (.ok component, arena) n).1 with
    | error fault => rwa [Interned.arrays_succ_of_error hbelow]
    | ok below =>
      rw [Interned.arrays_succ_of_ok hbelow]
      exact ih.tail (.intern (h.arrays hbelow))

theorem arrayOver_lookups (system : LoaderSystem) (arena : Arena) (element : TypeIndex)
    (dimensions : Nat) :
    Lookups (arena, system) ((arena.arrayOver element dimensions).2, system) := by
  rw [Arena.arrayOver]
  cases hget : arena.get? element with
  | none => exact .refl
  | some type =>
    dsimp only
    split
    · next helement => exact arrays_lookups system ⟨type, hget, helement⟩ dimensions
    · exact .refl

theorem load_lookups (system : LoaderSystem) (arena : Arena) (initiating : LoaderIndex)
    (name : Text) :
    Lookups (arena, system) (system.load arena initiating name).left := by
  unfold load
  split
  · exact .refl
  · next chain _ =>
    have hsearch := search_lookups arena system name chain.reverse
    split
    · next heq => rwa [heq] at hsearch
    · next heq => rwa [heq] at hsearch
    · next heq =>
      rw [heq] at hsearch
      exact hsearch.tail (.intern trivial)

theorem element_lookups (system : LoaderSystem) (arena : Arena) (initiating : LoaderIndex)
    (name : Text) (target : Target) :
    Lookups (arena, system) (system.element arena initiating name target).left := by
  cases target with
  | classNamed className => exact load_lookups ..
  | single letter => exact .refl
  | malformed => exact .refl

theorem resolve_lookups (system : LoaderSystem) (arena : Arena) (view : Viewpoint)
    (name : Text) :
    Lookups (arena, system) (system.resolve arena view name).left := by
  unfold resolve
  split
  · exact .refl
  · split
    · exact .refl
    · next initiating _ =>
      have helement := element_lookups system arena initiating name (Target.ofName name).2
      dsimp only
      generalize system.element arena initiating name (Target.ofName name).2 = outcome at helement
      obtain ⟨answer, arena, system⟩ := outcome
      rcases answer with failure | _ | id
      · exact helement
      · exact helement
      · exact helement.trans (arrayOver_lookups system arena id _)

theorem lookups_within (view : Viewpoint) : Resolver.Within LoaderSystem view Lookups where
  refl _ := .refl
  trans := .trans
  resolve arena system _ name _ := resolve_lookups system arena view name
  placeholder _ _ _ _ := .single (.intern trivial)

end LoaderSystem

namespace Lookups

variable {before after : Arena × LoaderSystem}

theorem types_prefix (h : Lookups before after) : before.1.types <+: after.1.types := by
  induction h with
  | refl => exact List.prefix_refl _
  | tail _ step ih =>
    cases step with
    | intern _ => exact ih.trans (Arena.types_prefix_intern ..)
    | ask _ _ => exact ih

theorem valid (h : Lookups before after) (hvalid : before.1.Valid) : after.1.Valid := by
  induction h with
  | refl => exact hvalid
  | tail _ step ih =>
    cases step with
    | intern _ => exact ih.intern _
    | ask _ _ => exact ih

theorem sameAnswers (h : Lookups before after) :
    LoaderSystem.SameAnswers before.2 after.2 := by
  induction h with
  | refl => exact .refl _
  | tail _ step ih =>
    cases step with
    | intern _ => exact ih
    | ask name hloader => exact ih.trans (LoaderSystem.sameAnswers_ask hloader name)

end Lookups

end MethodLinkage
