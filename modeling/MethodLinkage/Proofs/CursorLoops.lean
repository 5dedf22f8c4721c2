import MethodLinkage.Signature.Building
import MethodLinkage.Signature.Matching

/-!
# The loops over cursors as recursions

Building, matching and looking for placeholders walk cursors. Here each walk is
shown to be a recursion over the elements that the cursors visit: no cursor is
asked for anything once it is exhausted, and the builder gets all parameters and
one return type, so these faults of the loops never come up.
-/

namespace MethodLinkage

namespace SignatureCursor

variable {cursor : SignatureCursor} {own : PlacedType} {rest : List PlacedType}

def remaining (cursor : SignatureCursor) : List PlacedType :=
  cursor.signature.elements.drop cursor.position

theorem isExhausted_of_nil (h : cursor.remaining = []) : cursor.isExhausted = true := by
  have hlength := List.drop_eq_nil_iff.mp h
  simp only [Signature.elements, List.length_append, List.length_map, List.length_singleton]
    at hlength
  exact decide_eq_true (Nat.lt_of_succ_le hlength)

theorem getElem?_of_cons (h : cursor.remaining = own :: rest) :
    cursor.signature.elements[cursor.position]? = some own := by
  rw [← List.head?_drop, ← remaining, h, List.head?_cons]

theorem not_isExhausted_of_cons (h : cursor.remaining = own :: rest) :
    cursor.isExhausted = false := by
  obtain ⟨hlt, -⟩ := List.getElem?_eq_some_iff.mp (getElem?_of_cons h)
  simp only [Signature.elements, List.length_append, List.length_map, List.length_singleton] at hlt
  exact decide_eq_false (Nat.not_lt_of_le (Nat.le_of_lt_succ hlt))

theorem parameter_or_result (h : cursor.remaining = own :: rest) :
    (cursor.onReturn = false ∧ cursor.signature.parameter cursor.position = .ok own.type ∧
      own.isReturn = false) ∨
    (cursor.onReturn = true ∧ own = ⟨cursor.signature.result, true⟩) := by
  have hown := getElem?_of_cons h
  rw [Signature.elements, List.getElem?_append] at hown
  split at hown
  · next hlt =>
    rw [List.length_map] at hlt
    rw [List.getElem?_map] at hown
    obtain ⟨id, hid, rfl⟩ := Option.map_eq_some_iff.mp hown
    refine .inl ⟨?_, ?_, rfl⟩
    · exact decide_eq_false (Nat.ne_of_lt hlt)
    · rw [Signature.parameter, hid]
  · next hge =>
    rw [List.length_map] at hge hown
    obtain ⟨hlast, hresult⟩ := List.getElem?_eq_some_iff.mp hown
    simp only [List.length_singleton] at hlast
    refine .inr ⟨?_, ?_⟩
    · exact decide_eq_true (by omega)
    · rw [← hresult, List.getElem_singleton]

theorem onReturn_of_cons (h : cursor.remaining = own :: rest) :
    cursor.onReturn = own.isReturn := by
  rcases parameter_or_result h with ⟨hparameter, -, hown⟩ | ⟨hreturn, rfl⟩
  · rw [hparameter, hown]
  · rw [hreturn]

theorem onReturn_of_nil (h : cursor.remaining = []) : cursor.onReturn = false := by
  have hexhausted := of_decide_eq_true (isExhausted_of_nil h)
  exact decide_eq_false (Nat.ne_of_gt hexhausted)

theorem current_of_nil (h : cursor.remaining = []) :
    cursor.current = .error .signatureExhausted := by
  rw [current, isExhausted_of_nil h]
  rfl

theorem current_of_cons (h : cursor.remaining = own :: rest) : cursor.current = .ok own.type := by
  rw [current, not_isExhausted_of_cons h]
  rcases parameter_or_result h with ⟨hparameter, htype, -⟩ | ⟨hreturn, rfl⟩
  · rw [hparameter]
    exact htype
  · rw [hreturn]
    rfl

theorem advance_of_nil (h : cursor.remaining = []) :
    cursor.advance = .error .signatureExhausted := by
  rw [advance, isExhausted_of_nil h]
  rfl

theorem advance_of_cons (h : cursor.remaining = own :: rest) :
    ∃ after, cursor.advance = .ok after ∧ after.remaining = rest := by
  refine ⟨{ cursor with position := cursor.position + 1 }, ?_, ?_⟩
  · rw [advance, not_isExhausted_of_cons h]
    rfl
  · rw [remaining, ← List.drop_drop, ← remaining, h]
    rfl

end SignatureCursor

namespace Signature

variable {ρ : Type} [Resolver ρ]

def resolveParameters (view : Viewpoint) (loader : LoaderIndex) :
    List FieldType → Arena → ρ → Outcome ρ (List TypeIndex × UInt32)
  | [], arena, resolver => .ok ([], 0) arena resolver
  | type :: types, arena, resolver =>
    (resolveElement view loader (.field type) arena resolver).andThen fun id arena resolver =>
      match arena.get? id with
      | none => .fault (.unissuedType id) arena resolver
      | some resolved =>
        (resolveParameters view loader types arena resolver).andThen fun (ids, slots) =>
          .ok (id :: ids, resolved.slots + slots)

def matchPending (view : Viewpoint) (loader : LoaderIndex) :
    List PlacedType → List PlacedElement → Option TypeIndex → Arena → ρ → Outcome ρ Bool
  | own, [], _, arena, resolver => .ok own.isEmpty arena resolver
  | [], _ :: _, _, arena, resolver => .ok false arena resolver
  | own :: owns, placed :: rest, known, arena, resolver =>
    if own.isReturn ≠ placed.isReturn then .ok false arena resolver
    else
      (DescriptorCursor.typeOf view loader known (placed :: rest) arena resolver).andThen
        fun id arena resolver =>
          if own.type = id then matchPending view loader owns rest none arena resolver
          else .ok false arena resolver

def anyPlaceholder (arena : Arena) : List TypeIndex → Except Fault Bool
  | [] => .ok false
  | id :: rest =>
    match arena.get? id with
    | none => .error (.unissuedType id)
    | some type => if type.isLoaded then anyPlaceholder arena rest else .ok true

section Building

variable {view : Viewpoint} {loader : LoaderIndex} {descriptor : Descriptor}
  {builder : SignatureBuilder}

theorem buildFrom_nil (cursor : DescriptorCursor) (arena : Arena) (resolver : ρ)
    (h : cursor.pending = []) : buildFrom cursor builder arena resolver =
      .ok builder arena resolver := by
  rw [buildFrom, DescriptorCursor.isExhausted, h]
  exact if_pos rfl

theorem buildFrom_parameter (type : FieldType) (rest : List PlacedElement) (arena : Arena)
    (resolver : ρ) :
    buildFrom ⟨view, loader, descriptor, ⟨.field type, false⟩ :: rest, none⟩ builder arena
        resolver =
      (resolveElement view loader (.field type) arena resolver).andThen fun id arena resolver =>
        match arena.get? id with
        | none => .fault (.unissuedType id) arena resolver
        | some resolved =>
          buildFrom ⟨view, loader, descriptor, rest, none⟩
            (builder.pushParameter id resolved.slots) arena resolver := by
  rw [buildFrom]
  dsimp only [DescriptorCursor.isExhausted, DescriptorCursor.current, DescriptorCursor.typeOf,
    List.isEmpty]
  generalize resolveElement view loader (.field type) arena resolver = outcome
  obtain ⟨_ | id, larger, after⟩ := outcome
  · rfl
  · dsimp only [Outcome.andThen, DescriptorCursor.keep, DescriptorCursor.onReturn,
      SignatureBuilder.push]
    cases larger.get? id <;> rfl

theorem buildFrom_return (element : Element) (parameters : List TypeIndex) (slots : UInt32)
    (arena : Arena) (resolver : ρ) :
    buildFrom ⟨view, loader, descriptor, [⟨element, true⟩], none⟩ ⟨parameters, none, slots⟩ arena
        resolver =
      (resolveElement view loader element arena resolver).andThen fun id =>
        .ok ⟨parameters, some id, slots⟩ := by
  rw [buildFrom]
  dsimp only [DescriptorCursor.isExhausted, DescriptorCursor.current, DescriptorCursor.typeOf,
    List.isEmpty]
  generalize resolveElement view loader element arena resolver = outcome
  obtain ⟨_ | id, larger, after⟩ := outcome
  · rfl
  · exact buildFrom_nil ⟨view, loader, descriptor, [], none⟩ larger after rfl

/-- The builder is given the parameters in order and the return type last. -/
theorem buildFrom_eq (result : Element) (types : List FieldType) (parameters : List TypeIndex)
    (slots : UInt32) (arena : Arena) (resolver : ρ) :
    buildFrom ⟨view, loader, descriptor,
        types.map (fun type => ⟨.field type, false⟩) ++ [⟨result, true⟩], none⟩
        ⟨parameters, none, slots⟩ arena resolver =
      (resolveParameters view loader types arena resolver).andThen
        fun (ids, taken) arena resolver =>
          (resolveElement view loader result arena resolver).andThen fun id =>
            .ok ⟨parameters ++ ids, some id, slots + taken⟩ := by
  induction types generalizing parameters slots arena resolver with
  | nil =>
    rw [List.map_nil, List.nil_append, buildFrom_return, resolveParameters, Outcome.andThen_ok]
    dsimp only
    rw [List.append_nil, UInt32.add_zero]
  | cons type types ih =>
    rw [List.map_cons, List.cons_append, buildFrom_parameter, resolveParameters,
      Outcome.andThen_assoc]
    congr 1
    funext id arena resolver
    dsimp only
    cases arena.get? id with
    | none => rfl
    | some resolved =>
      dsimp only [SignatureBuilder.pushParameter]
      rw [ih, Outcome.andThen_assoc]
      congr 1
      funext ⟨ids, taken⟩ arena resolver
      rw [Outcome.andThen_ok]
      dsimp only
      rw [List.append_assoc, UInt32.add_assoc]
      rfl

theorem build_eq (view : Viewpoint) (descriptor : Descriptor) (arena : Arena) (resolver : ρ) :
    build view descriptor arena resolver =
      match arena.accessingLoader view.accessing with
      | .error fault => .fault fault arena resolver
      | .ok loader =>
        (resolveParameters view loader descriptor.parameters arena resolver).andThen
          fun (parameters, slots) arena resolver =>
            (resolveElement view loader descriptor.result arena resolver).andThen fun result =>
              .ok ⟨descriptor, view.accessing, parameters, result, slots⟩ := by
  rw [build, DescriptorCursor.start]
  cases arena.accessingLoader view.accessing with
  | error fault => rfl
  | ok loader =>
    dsimp only [Except.map]
    rw [Descriptor.elements, SignatureBuilder.empty, buildFrom_eq, Outcome.andThen_assoc]
    congr 1
    funext ⟨parameters, slots⟩ arena resolver
    dsimp only
    rw [Outcome.andThen_assoc, List.nil_append, UInt32.zero_add]
    rfl

end Building

section Matching

variable {view : Viewpoint} {loader : LoaderIndex} {descriptor : Descriptor}

theorem matchFrom_eq (own : SignatureCursor) (pending : List PlacedElement)
    (known : Option TypeIndex) (arena : Arena) (resolver : ρ) :
    matchFrom own ⟨view, loader, descriptor, pending, known⟩ arena resolver =
      matchPending view loader own.remaining pending known arena resolver := by
  induction pending generalizing own known arena resolver with
  | nil =>
    rw [matchFrom]
    cases hleft : own.remaining with
    | nil => rw [SignatureCursor.isExhausted_of_nil hleft]; rfl
    | cons => rw [SignatureCursor.not_isExhausted_of_cons hleft]; rfl
  | cons placed rest ih =>
    rw [matchFrom]
    cases hleft : own.remaining with
    | nil => rw [SignatureCursor.isExhausted_of_nil hleft]; rfl
    | cons first later =>
      obtain ⟨after, hadvance, hafter⟩ := SignatureCursor.advance_of_cons hleft
      rw [SignatureCursor.not_isExhausted_of_cons hleft, SignatureCursor.onReturn_of_cons hleft,
        SignatureCursor.current_of_cons hleft, hadvance, matchPending]
      by_cases hreturn : first.isReturn = placed.isReturn
      · rw [if_neg (by simp [DescriptorCursor.isExhausted]), if_neg (by
          simp [DescriptorCursor.onReturn, hreturn]), if_neg (fun hdiffers => hdiffers hreturn)]
        dsimp only [DescriptorCursor.current]
        generalize DescriptorCursor.typeOf view loader known (placed :: rest) arena resolver = here
        obtain ⟨_ | id, larger, asked⟩ := here
        · rfl
        · dsimp only [Outcome.andThen, DescriptorCursor.keep, DescriptorCursor.advance]
          by_cases htype : first.type = id
          · rw [if_neg (fun hdiffers => hdiffers htype), if_pos htype, ih, hafter]
          · rw [if_pos htype, if_neg htype]
      · rw [if_neg (by simp [DescriptorCursor.isExhausted]), if_pos (.inr hreturn), if_pos hreturn]

theorem matchCursor_eq (signature : Signature) (cursor : DescriptorCursor) (arena : Arena)
    (resolver : ρ) :
    signature.matchCursor cursor arena resolver =
      if signature.descriptor = cursor.descriptor then
        matchPending cursor.view cursor.loader signature.elements cursor.pending cursor.resolved
          arena resolver
      else .ok false arena resolver := by
  rw [matchCursor, matchFrom_eq]
  rfl

end Matching

theorem findPlaceholder_eq (cursor : SignatureCursor) (arena : Arena) :
    findPlaceholder cursor arena =
      anyPlaceholder arena (cursor.remaining.map PlacedType.type) := by
  generalize hleft : cursor.remaining = left
  induction left generalizing cursor with
  | nil =>
    rw [findPlaceholder, SignatureCursor.isExhausted_of_nil hleft]
    rfl
  | cons first later ih =>
    obtain ⟨after, hadvance, hafter⟩ := SignatureCursor.advance_of_cons hleft
    rw [findPlaceholder, SignatureCursor.not_isExhausted_of_cons hleft,
      SignatureCursor.current_of_cons hleft, hadvance, List.map_cons, anyPlaceholder]
    cases hget : arena.get? first.type with
    | none => simp [hget]
    | some type =>
      simp only [hget]
      cases type.isLoaded with
      | false => rfl
      | true => exact ih after hafter

theorem hasPlaceholder_eq (signature : Signature) (arena : Arena) :
    signature.hasPlaceholder arena = anyPlaceholder arena signature.types := by
  rw [hasPlaceholder, findPlaceholder_eq]
  simp [SignatureCursor.remaining, SignatureCursor.start, elements, types, Function.comp_def]

end Signature
end MethodLinkage
