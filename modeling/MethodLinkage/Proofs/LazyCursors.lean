import MethodLinkage.Proofs.ElementResolution
import MethodLinkage.Proofs.ReachedStates

/-!
# Lazy cursors

A cursor over a descriptor asks for a name only when the type of the element it is on is asked
for, and asks again only if that failed. So the names that a resolver is given can be read off the
calls and their replies: split where the cursor moved on, they are the visits of the elements one
after another, and each visit asks as often as it has calls up to the first success.
-/

namespace MethodLinkage

open DescriptorCursor (Call Reply)

variable {ρ : Type} [Resolver ρ]

theorem Recorded.asked_resolveElement (view : Viewpoint) (loader : LoaderIndex) (element : Element)
    (arena : Arena) (recorded : Recorded ρ) :
    (resolveElement view loader element arena recorded).resolver.asked =
      recorded.asked ++ element.kind.name?.toList := by
  unfold resolveElement
  split
  · next hkind => simp [hkind, ElementKind.name?, Outcome.ok]
  · next hkind => simp [hkind, ElementKind.name?, Outcome.ok]
  · next name hkind =>
    rw [hkind, ElementKind.name?, Option.toList_some]
    have hresolve : (Resolver.resolve recorded arena view name).resolver.asked =
        recorded.asked ++ [name] := rfl
    unfold resolveReference
    generalize Resolver.resolve recorded arena view name = outcome at hresolve
    obtain ⟨_ | _ | missing, later, resolver⟩ := outcome <;> exact hresolve

theorem exists_name_of_resolveElement {view : Viewpoint} {loader : LoaderIndex} {element : Element}
    {arena : Arena} {resolver : ρ} {failure : Failure}
    (h : (resolveElement view loader element arena resolver).answer = .error failure) :
    ∃ name, element.kind = .reference name := by
  unfold resolveElement at h
  split at h
  · cases h
  · cases h
  · next name hkind => exact ⟨name, hkind⟩

namespace DescriptorCursor

abbrev Entry := Call × Except Failure Reply

def moves : Entry → Bool
  | (.advance, .ok _) => true
  | _ => false

/-- How often the current type was asked for, up to and including the first success. -/
def attempts : List Entry → Nat
  | [] => 0
  | (.current, .ok _) :: _ => 1
  | (.current, .error _) :: rest => attempts rest + 1
  | _ :: rest => attempts rest

theorem moves_of_ne {call : Call} (h : call ≠ .advance) (reply : Except Failure Reply) :
    moves (call, reply) = false := by
  cases call with
  | advance => exact absurd rfl h
  | isExhausted | onReturn | current | symbol | typeCount | askedCount => rfl

theorem attempts_of_ne {call : Call} (h : call ≠ .current) (reply : Except Failure Reply)
    (rest : List Entry) : attempts ((call, reply) :: rest) = attempts rest := by
  cases call with
  | current => exact absurd rfl h
  | isExhausted | onReturn | advance | symbol | typeCount | askedCount => rfl

/-- The names that the visits of elements ask for, in order. -/
def namesAsked (elements : List PlacedElement) (visits : List (List Entry)) : List Text :=
  (elements.zip visits).flatMap fun (placed, visit) =>
    (List.replicate (attempts visit) placed.element.kind.name?.toList).flatten

theorem namesAsked_nil (visits : List (List Entry)) : namesAsked [] visits = [] := rfl

theorem namesAsked_of_no_visits (elements : List PlacedElement) : namesAsked elements [] = [] := by
  rw [namesAsked, List.zip_nil_right, List.flatMap_nil]

/-- What of a visit can ask for the element, if its type may be known already. -/
def asking (known : Option TypeIndex) (visit : List Entry) : List Entry :=
  match known with
  | some _ => []
  | none => visit

/-- The names that the visits to come ask for; a type that is known now is not asked for. -/
def namesLeft (cursor : DescriptorCursor) (visits : List (List Entry)) : List Text :=
  namesAsked cursor.pending (visits.modifyHead (asking cursor.resolved))

variable {cursor : DescriptorCursor} {visit other : List Entry}

theorem namesLeft_of_pending_nil (h : cursor.pending = []) (visits : List (List Entry)) :
    cursor.namesLeft visits = [] := by
  rw [namesLeft, h, namesAsked_nil]

theorem namesLeft_of_resolved {id : TypeIndex} (h : cursor.resolved = some id)
    (visit other : List Entry) (visits : List (List Entry)) :
    cursor.namesLeft (visit :: visits) = cursor.namesLeft (other :: visits) := by
  rw [namesLeft, namesLeft, h]
  rfl

theorem namesLeft_of_cons {placed : PlacedElement} {rest : List PlacedElement}
    (hpending : cursor.pending = placed :: rest) (visit : List Entry)
    (visits : List (List Entry)) :
    cursor.namesLeft (visit :: visits) =
      (List.replicate (attempts (asking cursor.resolved visit))
        placed.element.kind.name?.toList).flatten ++ namesAsked rest visits := by
  rw [namesLeft, hpending]
  rfl

theorem namesLeft_of_unresolved (h : cursor.resolved = none) (visits : List (List Entry)) :
    cursor.namesLeft visits = namesAsked cursor.pending visits := by
  rw [namesLeft, h]
  cases visits <;> rfl

theorem namesLeft_of_attempts (h : attempts visit = attempts other)
    (visits : List (List Entry)) :
    cursor.namesLeft (visit :: visits) = cursor.namesLeft (other :: visits) := by
  cases hpending : cursor.pending with
  | nil => rw [namesLeft_of_pending_nil hpending, namesLeft_of_pending_nil hpending]
  | cons placed rest =>
    rw [namesLeft_of_cons hpending, namesLeft_of_cons hpending]
    cases cursor.resolved with
    | none => rw [asking, asking, h]
    | some id => rfl

theorem namesLeft_of_no_calls (cursor : DescriptorCursor) : cursor.namesLeft [[]] = [] := by
  cases hpending : cursor.pending with
  | nil => exact namesLeft_of_pending_nil hpending _
  | cons placed rest =>
    rw [namesLeft_of_cons hpending, namesAsked_of_no_visits]
    cases cursor.resolved <;> rfl

theorem eq_of_start {view : Viewpoint} {descriptor : Descriptor} {arena : Arena}
    (h : start view descriptor arena = .ok cursor) :
    cursor = ⟨view, cursor.loader, descriptor, descriptor.elements, none⟩ ∧
      arena.accessingLoader view.accessing = .ok cursor.loader := by
  unfold start at h
  cases hloader : arena.accessingLoader view.accessing with
  | error fault =>
    rw [hloader] at h
    cases h
  | ok loader =>
    rw [hloader] at h
    cases h
    exact ⟨rfl, rfl⟩

theorem pending_of_start {view : Viewpoint} {descriptor : Descriptor} {arena : Arena}
    (h : start view descriptor arena = .ok cursor) :
    cursor.pending = descriptor.elements ∧ cursor.resolved = none := by
  obtain ⟨hcursor, -⟩ := eq_of_start h
  rw [hcursor]
  exact ⟨rfl, rfl⟩

end DescriptorCursor

structure CursorState (ρ : Type) where
  cursor : DescriptorCursor
  arena : Arena
  resolver : Recorded ρ

namespace CursorState

open DescriptorCursor

variable {state : CursorState ρ} {call : Call} {id : TypeIndex}

def reply (state : CursorState ρ) (call : Call) : Except Failure Reply :=
  (state.cursor.call state.arena state.resolver call).1.answer

def after (state : CursorState ρ) (call : Call) : CursorState ρ :=
  let called := state.cursor.call state.arena state.resolver call
  ⟨called.2, called.1.arena, called.1.resolver⟩

def afterAll (state : CursorState ρ) (calls : List Call) : CursorState ρ := calls.foldl after state

def replies (state : CursorState ρ) : List Call → List (Except Failure Reply)
  | [] => []
  | call :: rest => state.reply call :: (state.after call).replies rest

theorem run_eq (state : CursorState ρ) (calls : List Call) :
    state.cursor.run state.arena state.resolver calls =
      (state.replies calls, (state.afterAll calls).arena, (state.afterAll calls).resolver) := by
  induction calls generalizing state with
  | nil => rfl
  | cons call rest ih =>
    have hrest := ih (state.after call)
    rw [after] at hrest
    dsimp only at hrest
    rw [DescriptorCursor.run]
    dsimp only
    rw [hrest]
    rfl

theorem after_of_ne_current (h : call ≠ .current) :
    (state.after call).arena = state.arena ∧ (state.after call).resolver = state.resolver := by
  cases call with
  | current => exact absurd rfl h
  | advance =>
    unfold after DescriptorCursor.call
    dsimp only
    split <;> exact ⟨rfl, rfl⟩
  | isExhausted | onReturn | symbol | typeCount | askedCount => exact ⟨rfl, rfl⟩

theorem after_of_resolved (hknown : state.cursor.resolved = some id) (h : call ≠ .advance) :
    state.after call = state := by
  cases call with
  | current =>
    obtain ⟨⟨view, loader, descriptor, pending, resolved⟩, arena, resolver⟩ := state
    obtain rfl : resolved = some id := hknown
    rfl
  | advance => exact absurd rfl h
  | isExhausted | onReturn | symbol | typeCount | askedCount => rfl

theorem afterAll_of_resolved (hknown : state.cursor.resolved = some id) {calls : List Call}
    (h : .advance ∉ calls) : state.afterAll calls = state := by
  induction calls with
  | nil => rfl
  | cons call rest ih =>
    obtain ⟨hcall, hrest⟩ := List.ne_and_not_mem_of_not_mem_cons h
    rw [afterAll, List.foldl_cons, after_of_resolved hknown (Ne.symm hcall)]
    exact ih hrest

theorem reply_current_of_resolved (hknown : state.cursor.resolved = some id) :
    state.reply .current = .ok (.type id) := by
  unfold reply DescriptorCursor.call DescriptorCursor.current DescriptorCursor.typeOf
  rw [hknown]
  rfl

theorem current_cases (state : CursorState ρ) :
    (∃ id, state.cursor.resolved = some id) ∨
    (state.cursor.resolved = none ∧ state.cursor.pending = [] ∧
      state.reply .current = .error (.fault .descriptorExhausted) ∧
      state.after .current = state) ∨
    ∃ placed rest, state.cursor.resolved = none ∧ state.cursor.pending = placed :: rest ∧
      (state.after .current).resolver.asked =
        state.resolver.asked ++ placed.element.kind.name?.toList ∧
      ((∃ id, state.reply .current = .ok (.type id) ∧
          (state.after .current).cursor = { state.cursor with resolved := some id }) ∨
        ∃ failure name, state.reply .current = .error failure ∧
          (state.after .current).cursor = state.cursor ∧
          placed.element.kind = .reference name) := by
  obtain ⟨⟨view, loader, descriptor, pending, _ | id⟩, arena, resolver⟩ := state
  · cases pending with
    | nil => exact .inr (.inl ⟨rfl, rfl, rfl, rfl⟩)
    | cons placed rest =>
      refine .inr (.inr ⟨placed, rest, rfl, rfl, ?_⟩)
      have hasked := Recorded.asked_resolveElement view loader placed.element arena resolver
      have hname := @exists_name_of_resolveElement _ _ view loader placed.element arena resolver
      unfold reply after DescriptorCursor.call DescriptorCursor.current DescriptorCursor.typeOf
      dsimp only
      generalize resolveElement view loader placed.element arena resolver = outcome at hasked hname ⊢
      obtain ⟨failure | id, later, asked⟩ := outcome
      · obtain ⟨name, hkind⟩ := hname rfl
        exact ⟨hasked, .inr ⟨failure, name, rfl, rfl, hkind⟩⟩
      · exact ⟨hasked, .inl ⟨id, rfl, rfl⟩⟩
  · exact .inl ⟨id, rfl⟩

theorem resolved_after_current (h : state.reply .current = .ok (.type id)) :
    (state.after .current).cursor.resolved = some id := by
  rcases current_cases state with ⟨known, hknown⟩ | ⟨-, -, hreply, -⟩ |
    ⟨_, _, -, -, -, ⟨found, hreply, hcursor⟩ | ⟨_, _, hreply, -, -⟩⟩
  · rw [reply_current_of_resolved hknown] at h
    cases h
    rw [after_of_resolved hknown Call.noConfusion, hknown]
  · rw [hreply] at h
    cases h
  · rw [hreply] at h
    cases h
    rw [hcursor]
  · rw [hreply] at h
    cases h

theorem after_failed_current {failure : Failure} (h : state.reply .current = .error failure) :
    (state.after .current).cursor = state.cursor ∧
      ((state.cursor.pending = [] ∧ state.after .current = state) ∨
        ∃ placed rest name, state.cursor.pending = placed :: rest ∧
          placed.element.kind = .reference name ∧
          (state.after .current).resolver.asked = state.resolver.asked ++ [name] ∧
          ((state.after .current).after .current).resolver.asked =
            state.resolver.asked ++ [name] ++ [name]) := by
  rcases current_cases state with ⟨known, hknown⟩ | ⟨-, hnone, -, hafter⟩ |
    ⟨placed, rest, hnone, hpending, hasked, ⟨_, hreply, -⟩ | ⟨_, name, -, hcursor, hkind⟩⟩
  · rw [reply_current_of_resolved hknown] at h
    cases h
  · exact ⟨congrArg cursor hafter, .inl ⟨hnone, hafter⟩⟩
  · rw [hreply] at h
    cases h
  · rw [hkind] at hasked
    refine ⟨hcursor, .inr ⟨placed, rest, name, hpending, hkind, hasked, ?_⟩⟩
    rcases current_cases (state.after .current) with ⟨known, hknown⟩ | ⟨-, hend, -, -⟩ |
      ⟨again, others, -, hagain, hasked', -⟩
    · rw [hcursor, hnone] at hknown
      cases hknown
    · rw [hcursor, hpending] at hend
      cases hend
    · rw [hcursor, hpending] at hagain
      cases hagain
      rw [hasked', hasked, hkind]
      rfl

theorem advance_cases (state : CursorState ρ) :
    (state.cursor.pending = [] ∧ (∃ failure, state.reply .advance = .error failure) ∧
      state.after .advance = state) ∨
    ∃ placed rest, state.cursor.pending = placed :: rest ∧ state.reply .advance = .ok .moved ∧
      state.after .advance =
        { state with cursor := { state.cursor with pending := rest, resolved := none } } := by
  obtain ⟨⟨view, loader, descriptor, pending, resolved⟩, arena, resolver⟩ := state
  cases pending with
  | nil => exact .inl ⟨rfl, ⟨_, rfl⟩, rfl⟩
  | cons placed rest => exact .inr ⟨placed, rest, rfl, rfl, rfl⟩

def log (state : CursorState ρ) (calls : List Call) : List Entry :=
  calls.zip (state.replies calls)

theorem log_cons (state : CursorState ρ) (call : Call) (rest : List Call) :
    state.log (call :: rest) = (call, state.reply call) :: (state.after call).log rest := rfl

theorem namesLeft_current (state : CursorState ρ) (visit : List Entry)
    (visits : List (List Entry)) :
    state.resolver.asked ++
        state.cursor.namesLeft (((.current, state.reply .current) :: visit) :: visits) =
      (state.after .current).resolver.asked ++
        (state.after .current).cursor.namesLeft (visit :: visits) := by
  rcases current_cases state with ⟨id, hknown⟩ | ⟨-, hnone, -, hafter⟩ |
    ⟨placed, rest, hnone, hpending, hasked, houtcome⟩
  · rw [after_of_resolved hknown Call.noConfusion, namesLeft_of_resolved hknown]
  · rw [hafter, namesLeft_of_pending_nil hnone, namesLeft_of_pending_nil hnone]
  · rw [hasked, namesLeft_of_cons hpending, hnone, asking, List.append_assoc]
    rcases houtcome with ⟨id, hreply, hcursor⟩ | ⟨failure, name, hreply, hcursor, -⟩
    · -- the type is known from here on, so the rest of the visit asks for nothing
      have hsame : (state.after .current).cursor.pending = placed :: rest := by
        rw [hcursor, hpending]
      rw [hreply, namesLeft_of_cons hsame, hcursor]
      simp only [asking, attempts, List.replicate_one, List.flatten_singleton,
        List.replicate_zero, List.flatten_nil, List.nil_append]
    · rw [hcursor, namesLeft_of_cons hpending, hnone, hreply]
      simp only [asking, attempts, List.replicate_succ, List.flatten_cons, List.append_assoc]

theorem namesLeft_advance (state : CursorState ρ) (visit : List Entry)
    (visits : List (List Entry)) :
    state.cursor.namesLeft (if moves (.advance, state.reply .advance) then [] :: visit :: visits
        else ((.advance, state.reply .advance) :: visit) :: visits) =
      (state.after .advance).cursor.namesLeft (visit :: visits) := by
  rcases advance_cases state with ⟨hnone, -, hafter⟩ | ⟨placed, rest, hpending, hreply, hafter⟩
  · rw [hafter, namesLeft_of_pending_nil hnone, namesLeft_of_pending_nil hnone]
  · have hmoves : moves (.advance, .ok .moved) = true := rfl
    rw [hafter, hreply, hmoves, if_pos rfl, namesLeft_of_cons hpending]
    cases state.cursor.resolved <;> rfl

theorem namesLeft_cons (state : CursorState ρ) (call : Call) (visit : List Entry)
    (visits : List (List Entry)) :
    state.resolver.asked ++ state.cursor.namesLeft (if moves (call, state.reply call) then
        [] :: visit :: visits else ((call, state.reply call) :: visit) :: visits) =
      (state.after call).resolver.asked ++
        (state.after call).cursor.namesLeft (visit :: visits) := by
  cases call with
  | current => exact namesLeft_current state visit visits
  | advance => rw [namesLeft_advance, (after_of_ne_current Call.noConfusion).2]
  | isExhausted | onReturn | symbol | typeCount | askedCount =>
    rw [moves_of_ne Call.noConfusion, if_neg Bool.false_ne_true,
      namesLeft_of_attempts (attempts_of_ne Call.noConfusion _ visit)]
    rfl

theorem asked_afterAll (state : CursorState ρ) (calls : List Call) :
    (state.afterAll calls).resolver.asked =
      state.resolver.asked ++ state.cursor.namesLeft ((state.log calls).splitOnP moves) := by
  induction calls generalizing state with
  | nil =>
    rw [log, List.zip_nil_left, List.splitOnP_nil, namesLeft_of_no_calls, List.append_nil]
    rfl
  | cons call rest ih =>
    obtain ⟨visit, visits, hvisits⟩ :=
      List.exists_cons_of_ne_nil (List.splitOnP_ne_nil moves ((state.after call).log rest))
    have hlater := ih (state.after call)
    rw [hvisits, ← namesLeft_cons] at hlater
    rw [log_cons, List.splitOnP_cons_eq_if_modifyHead, hvisits]
    exact hlater

/-- What any calls to a new cursor ask for, and what holds at the place that they lead to. The names
are those of the elements visited, as often as the calls for their types failed and once more where
one succeeded. A type that was told is told again, and nothing changes until the cursor moves on. A
failure leaves the cursor where it is, and the next call for the type asks again. All other calls
leave the arena and the resolver alone. -/
theorem resolves_lazily {view : Viewpoint} {descriptor : Descriptor} {arena : Arena}
    {cursor : DescriptorCursor} (hstart : DescriptorCursor.start view descriptor arena = .ok cursor)
    (resolver : Recorded ρ) (calls : List Call) :
    let ran := cursor.run arena resolver calls
    let state := (⟨cursor, arena, resolver⟩ : CursorState ρ).afterAll calls
    ran.2 = (state.arena, state.resolver) ∧
    state.resolver.asked = resolver.asked ++
      namesAsked descriptor.elements ((calls.zip ran.1).splitOnP moves) ∧
    (∀ id, state.reply .current = .ok (.type id) → ∀ more, .advance ∉ more →
      (state.after .current).afterAll more = state.after .current ∧
      (state.after .current).reply .current = .ok (.type id)) ∧
    (∀ failure, state.reply .current = .error failure →
      (state.after .current).cursor = state.cursor ∧
      ((state.cursor.pending = [] ∧ state.after .current = state) ∨
        ∃ placed rest name, state.cursor.pending = placed :: rest ∧
          placed.element.kind = .reference name ∧
          (state.after .current).resolver.asked = state.resolver.asked ++ [name] ∧
          ((state.after .current).after .current).resolver.asked =
            state.resolver.asked ++ [name] ++ [name])) ∧
    ∀ call, call ≠ .current →
      (state.after call).arena = state.arena ∧ (state.after call).resolver = state.resolver := by
  intro ran state
  have hrun := run_eq (⟨cursor, arena, resolver⟩ : CursorState ρ) calls
  refine ⟨congrArg Prod.snd hrun, ?_, fun id hid more hmore => ?_,
    fun failure hfailure => after_failed_current hfailure,
    fun call hcall => after_of_ne_current hcall⟩
  · obtain ⟨hpending, hresolved⟩ := DescriptorCursor.pending_of_start hstart
    have hreplies : ran.1 = _ := congrArg Prod.fst hrun
    rw [hreplies, ← hpending, ← namesLeft_of_unresolved hresolved]
    exact asked_afterAll ⟨cursor, arena, resolver⟩ calls
  · have hknown := resolved_after_current hid
    exact ⟨afterAll_of_resolved hknown hmore, reply_current_of_resolved hknown⟩

def onMixed : CursorState LoaderSystem :=
  ⟨⟨⟨⟨10⟩, []⟩, ⟨2⟩, Workspace.mixed, Workspace.mixed.elements, none⟩,
    Workspace.siblings.session.arena, ⟨Workspace.siblings.system, []⟩⟩

/-- The first type is asked for twice, the longs are passed over, and the array of `p/A` is asked
for; then the cursor is on the array of `p/F`. -/
def upToFailing : List Call :=
  [.current, .isExhausted, .current, .advance, .advance, .current, .advance, .onReturn]

theorem failed_element_is_asked_for_again :
    let state := onMixed.afterAll upToFailing
    DescriptorCursor.start ⟨⟨10⟩, []⟩ Workspace.mixed onMixed.arena = .ok onMixed.cursor ∧
    state.resolver.asked = [['p', '/', 'D'], ['[', 'L', 'p', '/', 'A', ';']] ∧
    (∃ failure, state.reply .current = .error failure) ∧
    (state.after .current).cursor = state.cursor ∧
    ((state.after .current).after .current).resolver.asked =
      [['p', '/', 'D'], ['[', 'L', 'p', '/', 'A', ';'], ['[', 'L', 'p', '/', 'F', ';'],
        ['[', 'L', 'p', '/', 'F', ';']] ∧
    onMixed.reply .current = .ok (.type ⟨11⟩) ∧
    (onMixed.after .current).afterAll [.typeCount, .current] = onMixed.after .current := by
  intro state
  have hstart : DescriptorCursor.start ⟨⟨10⟩, []⟩ Workspace.mixed onMixed.arena =
      .ok onMixed.cursor := rfl
  have hfirst : onMixed.reply .current = .ok (.type ⟨11⟩) := rfl
  have hfailure : state.reply .current =
      .error (.error (.classPath ['p', '/', 'F'] ⟨2⟩ (.other none))) := rfl
  obtain ⟨-, -, hsuccess, -, -⟩ := resolves_lazily hstart onMixed.resolver []
  obtain ⟨-, hasked, -, hfails, -⟩ := resolves_lazily hstart onMixed.resolver upToFailing
  obtain ⟨hcursor, -⟩ := hfails _ hfailure
  obtain ⟨hstays, -⟩ := hsuccess ⟨11⟩ hfirst [.typeCount, .current] (by decide)
  exact ⟨hstart, hasked, ⟨_, hfailure⟩, hcursor, rfl, hfirst, hstays⟩

end CursorState
end MethodLinkage
