import MethodLinkage.Resolution.Recorded
import MethodLinkage.Signature

/-!
# Cursors over descriptors

A cursor over a descriptor visits the same elements as one over a signature, but
resolves an element only when its type is asked for. What is passed over is never
resolved. The type of the current element is kept until the cursor moves on; a
failed resolution is not kept, so the next question asks again.
-/

namespace MethodLinkage

structure DescriptorCursor where
  view : Viewpoint
  loader : LoaderIndex
  descriptor : Descriptor
  pending : List PlacedElement
  resolved : Option TypeIndex

namespace DescriptorCursor

def start (view : Viewpoint) (descriptor : Descriptor) (arena : Arena) :
    Except Fault DescriptorCursor :=
  (arena.accessingLoader view.accessing).map fun loader =>
    ⟨view, loader, descriptor, descriptor.elements, none⟩

def isExhausted (cursor : DescriptorCursor) : Bool := cursor.pending.isEmpty

def onReturn (cursor : DescriptorCursor) : Bool := cursor.pending.head?.any (·.isReturn)

def advance (cursor : DescriptorCursor) : Except Fault DescriptorCursor :=
  match cursor.pending with
  | [] => .error .descriptorExhausted
  | _ :: rest => .ok { cursor with pending := rest, resolved := none }

theorem length_pending_of_advance {cursor after : DescriptorCursor}
    (h : cursor.advance = .ok after) : after.pending.length < cursor.pending.length := by
  rw [advance] at h
  split at h
  · cases h
  · next heq =>
    cases h
    rw [heq]
    exact Nat.lt_succ_self _

def skip : Nat → DescriptorCursor → Except Fault DescriptorCursor
  | 0, cursor => .ok cursor
  | count + 1, cursor =>
    match cursor.advance with
    | .error fault => .error fault
    | .ok after => skip count after

def keep (cursor : DescriptorCursor) : Except Failure TypeIndex → DescriptorCursor
  | .ok id => { cursor with resolved := some id }
  | .error _ => cursor

theorem pending_keep (cursor : DescriptorCursor) (answer : Except Failure TypeIndex) :
    (cursor.keep answer).pending = cursor.pending := by
  cases answer <;> rfl

section

variable {ρ : Type} [Resolver ρ]

/-- The type of the first of the given elements, unless it is known already. -/
def typeOf (view : Viewpoint) (loader : LoaderIndex) (known : Option TypeIndex)
    (pending : List PlacedElement) (arena : Arena) (resolver : ρ) : Outcome ρ TypeIndex :=
  match known, pending with
  | some id, _ => .ok id arena resolver
  | none, [] => .fault .descriptorExhausted arena resolver
  | none, placed :: _ => resolveElement view loader placed.element arena resolver

def current (cursor : DescriptorCursor) (arena : Arena) (resolver : ρ) :
    Outcome ρ TypeIndex × DescriptorCursor :=
  let outcome := typeOf cursor.view cursor.loader cursor.resolved cursor.pending arena resolver
  (outcome, cursor.keep outcome.answer)

theorem length_pending_of_current {cursor after : DescriptorCursor} {arena : Arena} {resolver : ρ}
    (h : (cursor.current arena resolver).2.advance = .ok after) :
    after.pending.length < cursor.pending.length := by
  have hshorter := length_pending_of_advance h
  rwa [current, pending_keep] at hshorter

end

inductive Call where
  | isExhausted | onReturn | current | advance | symbol | typeCount | askedCount
  deriving DecidableEq

inductive Reply where
  | flag (value : Bool)
  | type (id : TypeIndex)
  | moved
  | text (text : Text)
  | count (count : Nat)
  deriving DecidableEq

section

variable {ρ : Type} [Resolver ρ]

def call (cursor : DescriptorCursor) (arena : Arena) (resolver : Recorded ρ) :
    Call → Outcome (Recorded ρ) Reply × DescriptorCursor
  | .isExhausted => (.ok (.flag cursor.isExhausted) arena resolver, cursor)
  | .onReturn => (.ok (.flag cursor.onReturn) arena resolver, cursor)
  | .current =>
    let (outcome, after) := cursor.current arena resolver
    (outcome.andThen fun id => .ok (.type id), after)
  | .advance =>
    match cursor.advance with
    | .ok after => (.ok .moved arena resolver, after)
    | .error fault => (.fault fault arena resolver, cursor)
  | .symbol => (.ok (.text cursor.descriptor.text) arena resolver, cursor)
  | .typeCount => (.ok (.count arena.size) arena resolver, cursor)
  | .askedCount => (.ok (.count resolver.asked.length) arena resolver, cursor)

def run (cursor : DescriptorCursor) (arena : Arena) (resolver : Recorded ρ) :
    List Call → List (Except Failure Reply) × Arena × Recorded ρ
  | [] => ([], arena, resolver)
  | first :: calls =>
    let (outcome, after) := cursor.call arena resolver first
    let (replies, final) := after.run outcome.arena outcome.resolver calls
    (outcome.answer :: replies, final)

/-- Starts a cursor and puts the calls to it; only starting can fail as a whole. -/
def walk (view : Viewpoint) (descriptor : Descriptor) (calls : List Call) (arena : Arena)
    (resolver : Recorded ρ) : Outcome (Recorded ρ) (List (Except Failure Reply)) :=
  match start view descriptor arena with
  | .error fault => .fault fault arena resolver
  | .ok cursor =>
    let (replies, arena, resolver) := cursor.run arena resolver calls
    .ok replies arena resolver

end

end DescriptorCursor

end MethodLinkage
