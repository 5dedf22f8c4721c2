import MethodLinkage.Proofs.CursorLoops

/-!
# Resolvers that correspond

Two resolvers, each with its viewpoint, correspond when they give the same answer for
every name that is asked and leave the same arena, and are related after it as they
were before. Then whatever is built on the one is built on the other. A recorded
resolver corresponds to the one inside it, so a build can do without the record.
-/

namespace MethodLinkage

variable {ρ σ α β γ δ : Type}

namespace Outcome

/-- The second outcome is the first with its value converted, in a resolver that is related. -/
structure Corresponds (related : Arena → ρ → σ → Prop) (convert : α → β) (first : Outcome ρ α)
    (second : Outcome σ β) : Prop where
  answer : second.answer = first.answer.map convert
  arena : second.arena = first.arena
  resolver : related first.arena first.resolver second.resolver

namespace Corresponds

variable {related : Arena → ρ → σ → Prop} {convert : α → β} {arena : Arena} {first : ρ}
  {second : σ}

theorem ok (h : related arena first second) (value : α) :
    Corresponds related convert (.ok value arena first) (.ok (convert value) arena second) :=
  ⟨rfl, rfl, h⟩

theorem fault (h : related arena first second) (fault : Fault) :
    Corresponds related convert (.fault fault arena first) (.fault fault arena second) :=
  ⟨rfl, rfl, h⟩

theorem ofArena (result : Except Fault α × Arena) (h : related result.2 first second) :
    Corresponds related id (.ofArena result first) (.ofArena result second) :=
  ⟨(congrFun Except.map_id _).symm, rfl, h⟩

theorem andThen {convert' : γ → δ} {outcome : Outcome ρ α} {outcome' : Outcome σ β}
    {next : α → Arena → ρ → Outcome ρ γ} {next' : β → Arena → σ → Outcome σ δ}
    (h : Corresponds related convert outcome outcome')
    (hnext : ∀ value arena first second, related arena first second →
      Corresponds related convert' (next value arena first) (next' (convert value) arena second)) :
    Corresponds related convert' (outcome.andThen next) (outcome'.andThen next') := by
  obtain ⟨answer, arena, first⟩ := outcome
  obtain ⟨answer', arena', second⟩ := outcome'
  obtain ⟨hanswer, harena, hresolver⟩ := h
  dsimp only at hanswer harena hresolver
  subst hanswer harena
  cases answer with
  | ok value => exact hnext value _ first second hresolver
  | error failure => exact ⟨rfl, rfl, hresolver⟩

end Corresponds

end Outcome

/-- Resolvers that answer alike from their viewpoints wherever they are related. -/
structure Resolver.Corresponds (ρ σ : Type) [Resolver ρ] [Resolver σ] (view view' : Viewpoint)
    (asked : Text → Prop) (related : Arena → ρ → σ → Prop) : Prop where
  resolve : ∀ {arena first second}, related arena first second → ∀ name, asked name →
    Outcome.Corresponds related id (Resolver.resolve first arena view name)
      (Resolver.resolve second arena view' name)
  placeholder : ∀ {arena first second}, related arena first second → ∀ name loader,
    related (arena.intern (.placeholder name loader)).2 first second

namespace Resolver.Corresponds

variable [Resolver ρ] [Resolver σ] {view view' : Viewpoint} {asked : Text → Prop}
  {related : Arena → ρ → σ → Prop} {arena : Arena} {first : ρ} {second : σ}

theorem resolveElement (h : Corresponds ρ σ view view' asked related) (loader : LoaderIndex)
    {element : Element} (hasked : ∀ name, element.kind = .reference name → asked name)
    (hrelated : related arena first second) :
    Outcome.Corresponds related id (resolveElement view loader element arena first)
      (resolveElement view' loader element arena second) := by
  unfold MethodLinkage.resolveElement
  split
  · exact .ok hrelated _
  · exact .ok hrelated _
  · next name hkind =>
    apply (h.resolve hrelated name (hasked name hkind)).andThen
    intro resolution arena first second hrelated
    cases resolution with
    | found found => exact .ok hrelated found
    | missing name => exact .ofArena _ (h.placeholder hrelated name loader)

theorem resolveParameters (h : Corresponds ρ σ view view' asked related) (loader : LoaderIndex)
    {types : List FieldType}
    (hasked : ∀ type ∈ types, ∀ name, (Element.field type).kind = .reference name → asked name)
    (hrelated : related arena first second) :
    Outcome.Corresponds related id (Signature.resolveParameters view loader types arena first)
      (Signature.resolveParameters view' loader types arena second) := by
  induction types generalizing arena first second with
  | nil => exact .ok hrelated _
  | cons type types ih =>
    obtain ⟨htype, htypes⟩ := List.forall_mem_cons.mp hasked
    apply (h.resolveElement loader htype hrelated).andThen
    intro found arena first second hrelated
    dsimp only [id]
    cases arena.get? found with
    | none => exact .fault hrelated _
    | some resolved =>
      apply (ih htypes hrelated).andThen
      intro _ _ _ _ hrelated
      exact .ok hrelated _

theorem build (h : Corresponds ρ σ view view' asked related) {descriptor : Descriptor}
    {convert : Signature → Signature}
    (hconvert : ∀ parameters result slots,
      convert ⟨descriptor, view.accessing, parameters, result, slots⟩ =
        ⟨descriptor, view'.accessing, parameters, result, slots⟩)
    (haccessing : arena.accessingLoader view'.accessing = arena.accessingLoader view.accessing)
    (hparameters : ∀ type ∈ descriptor.parameters, ∀ name,
      (Element.field type).kind = .reference name → asked name)
    (hresult : ∀ name, descriptor.result.kind = .reference name → asked name)
    (hrelated : related arena first second) :
    Outcome.Corresponds related convert (Signature.build view descriptor arena first)
      (Signature.build view' descriptor arena second) := by
  rw [Signature.build_eq, Signature.build_eq, haccessing]
  cases arena.accessingLoader view.accessing with
  | error fault => exact .fault hrelated fault
  | ok loader =>
    apply (h.resolveParameters loader hparameters hrelated).andThen
    intro (parameters, slots) arena first second hrelated
    apply (h.resolveElement loader hresult hrelated).andThen
    intro result arena first second hrelated
    dsimp only [id]
    rw [← hconvert]
    exact .ok hrelated _

theorem typeOf (h : Corresponds ρ σ view view (fun _ => True) related) (loader : LoaderIndex)
    (known : Option TypeIndex) (pending : List PlacedElement)
    (hrelated : related arena first second) :
    Outcome.Corresponds related id
      (DescriptorCursor.typeOf view loader known pending arena first)
      (DescriptorCursor.typeOf view loader known pending arena second) := by
  cases known with
  | some found => exact .ok hrelated found
  | none =>
    cases pending with
    | nil => exact .fault hrelated _
    | cons placed rest => exact h.resolveElement loader (fun _ _ => trivial) hrelated

theorem matchPending (h : Corresponds ρ σ view view (fun _ => True) related)
    (loader : LoaderIndex) (owns : List PlacedType) (pending : List PlacedElement)
    (known : Option TypeIndex) (hrelated : related arena first second) :
    Outcome.Corresponds related id
      (Signature.matchPending view loader owns pending known arena first)
      (Signature.matchPending view loader owns pending known arena second) := by
  induction pending generalizing owns known arena first second with
  | nil => cases owns <;> exact .ok hrelated _
  | cons placed rest ih =>
    cases owns with
    | nil => exact .ok hrelated _
    | cons own owns =>
      unfold Signature.matchPending
      split
      · exact .ok hrelated _
      · apply (h.typeOf loader known (placed :: rest) hrelated).andThen
        intro found arena first second hrelated
        dsimp only [id]
        split
        · exact ih owns none hrelated
        · exact .ok hrelated _

theorem matchDescriptor (h : ∀ view, Corresponds ρ σ view view (fun _ => True) related)
    (signature : Signature) (view : Viewpoint) (descriptor : Descriptor) (skipped : Nat)
    (hrelated : related arena first second) :
    Outcome.Corresponds related id
      (signature.matchDescriptor view descriptor skipped arena first)
      (signature.matchDescriptor view descriptor skipped arena second) := by
  unfold Signature.matchDescriptor
  split
  · exact .fault hrelated _
  · split
    · exact .fault hrelated _
    · next cursor _ =>
      rw [Signature.matchCursor_eq, Signature.matchCursor_eq]
      split
      · exact (h cursor.view).matchPending cursor.loader _ _ _ hrelated
      · exact .ok hrelated _

end Resolver.Corresponds

def Outcome.unrecorded (outcome : Outcome (Recorded ρ) α) : Outcome ρ α :=
  ⟨outcome.answer, outcome.arena, outcome.resolver.inner⟩

namespace Recorded

def IsInner (_ : Arena) (recorded : Recorded ρ) (inner : ρ) : Prop := recorded.inner = inner

theorem unrecorded_of_corresponds {outcome : Outcome (Recorded ρ) α} {plain : Outcome ρ α}
    (h : Outcome.Corresponds IsInner id outcome plain) : outcome.unrecorded = plain := by
  obtain ⟨answer, arena, recorded⟩ := outcome
  obtain ⟨answer', arena', inner⟩ := plain
  obtain ⟨hanswer, harena, hinner⟩ := h
  rw [Except.map_id] at hanswer
  dsimp only [id] at hanswer harena
  subst hanswer harena
  obtain rfl : recorded.inner = inner := hinner
  rfl

/-- The resolvers inside are related, and both were asked for the same names. -/
def AskedAlike (related : Arena → ρ → σ → Prop) (arena : Arena) (first : Recorded ρ)
    (second : Recorded σ) : Prop :=
  related arena first.inner second.inner ∧ second.asked = first.asked

variable [Resolver ρ] [Resolver σ]

theorem corresponds_recorded {view view' : Viewpoint} {asked : Text → Prop}
    {related : Arena → ρ → σ → Prop} (h : Resolver.Corresponds ρ σ view view' asked related) :
    Resolver.Corresponds (Recorded ρ) (Recorded σ) view view' asked (AskedAlike related) where
  resolve := by
    rintro arena ⟨inner, names⟩ ⟨inner', names'⟩ ⟨hinner, hnames⟩ name hname
    obtain rfl : names' = names := hnames
    obtain ⟨hanswer, harena, hresolver⟩ := h.resolve hinner name hname
    exact ⟨hanswer, harena, hresolver, rfl⟩
  placeholder hrelated name loader := ⟨h.placeholder hrelated.1 name loader, hrelated.2⟩

theorem call_corresponds {related : Arena → ρ → σ → Prop}
    (h : ∀ view, Resolver.Corresponds ρ σ view view (fun _ => True) related)
    (cursor : DescriptorCursor) (call : DescriptorCursor.Call) {arena : Arena}
    {first : Recorded ρ} {second : Recorded σ} (hrelated : AskedAlike related arena first second) :
    Outcome.Corresponds (AskedAlike related) id (cursor.call arena first call).1
        (cursor.call arena second call).1 ∧
      (cursor.call arena second call).2 = (cursor.call arena first call).2 := by
  cases call with
  | current =>
    have htype := (corresponds_recorded (h cursor.view)).typeOf cursor.loader cursor.resolved
      cursor.pending hrelated
    refine ⟨htype.andThen fun found arena first second hrelated => .ok hrelated _, ?_⟩
    have hanswer := htype.answer
    rw [Except.map_id] at hanswer
    exact congrArg cursor.keep hanswer
  | advance =>
    unfold DescriptorCursor.call
    dsimp only
    split
    · exact ⟨.ok hrelated _, rfl⟩
    · exact ⟨.fault hrelated _, rfl⟩
  | askedCount =>
    unfold DescriptorCursor.call
    dsimp only
    rw [hrelated.2]
    exact ⟨.ok hrelated _, rfl⟩
  | isExhausted | onReturn | symbol | typeCount => exact ⟨.ok hrelated _, rfl⟩

theorem run_corresponds {related : Arena → ρ → σ → Prop}
    (h : ∀ view, Resolver.Corresponds ρ σ view view (fun _ => True) related)
    (cursor : DescriptorCursor) (calls : List DescriptorCursor.Call) {arena : Arena}
    {first : Recorded ρ} {second : Recorded σ} (hrelated : AskedAlike related arena first second) :
    (cursor.run arena second calls).1 = (cursor.run arena first calls).1 ∧
      (cursor.run arena second calls).2.1 = (cursor.run arena first calls).2.1 ∧
      AskedAlike related (cursor.run arena first calls).2.1 (cursor.run arena first calls).2.2
        (cursor.run arena second calls).2.2 := by
  induction calls generalizing cursor arena first second with
  | nil => exact ⟨rfl, rfl, hrelated⟩
  | cons call calls ih =>
    obtain ⟨⟨hanswer, harena, hresolver⟩, hcursor⟩ := call_corresponds h cursor call hrelated
    rw [Except.map_id] at hanswer
    obtain ⟨hreplies, hlast, hleft⟩ := ih (cursor.call arena first call).2 hresolver
    simp only [DescriptorCursor.run, hcursor, hanswer, harena, id]
    exact ⟨congrArg _ hreplies, hlast, hleft⟩

theorem walk_corresponds {related : Arena → ρ → σ → Prop}
    (h : ∀ view, Resolver.Corresponds ρ σ view view (fun _ => True) related) (view : Viewpoint)
    (descriptor : Descriptor) (calls : List DescriptorCursor.Call) {arena : Arena}
    {first : Recorded ρ} {second : Recorded σ} (hrelated : AskedAlike related arena first second) :
    Outcome.Corresponds (AskedAlike related) id
      (DescriptorCursor.walk view descriptor calls arena first)
      (DescriptorCursor.walk view descriptor calls arena second) := by
  unfold DescriptorCursor.walk
  split
  · exact .fault hrelated _
  · next cursor _ =>
    obtain ⟨hreplies, hlast, hleft⟩ := run_corresponds h cursor calls hrelated
    exact ⟨congrArg Except.ok hreplies, hlast, hleft⟩

theorem corresponds_inner (view : Viewpoint) :
    Resolver.Corresponds (Recorded ρ) ρ view view (fun _ => True) IsInner where
  resolve {arena recorded inner} hinner name _ := by
    obtain rfl : recorded.inner = inner := hinner
    exact ⟨(congrFun Except.map_id _).symm, rfl, rfl⟩
  placeholder hinner _ _ := hinner

theorem unrecorded_build (view : Viewpoint) (descriptor : Descriptor) (arena : Arena)
    (recorded : Recorded ρ) :
    (Signature.build view descriptor arena recorded).unrecorded =
      Signature.build view descriptor arena recorded.inner := by
  apply unrecorded_of_corresponds
  apply (corresponds_inner view).build (fun _ _ _ => rfl) rfl
  · exact fun _ _ _ _ => trivial
  · exact fun _ _ => trivial
  · rfl

end Recorded
end MethodLinkage
