import MethodLinkage.Proofs.SignatureSpelling

/-!
# Equality of signatures

The types of a signature spell its descriptor, so signatures of one session with the same types
have the same descriptor as well, and equality is that of the types, whatever the accessing types
were. What a hash depends on is part of what equality compares, so sets tell signatures apart
exactly as equality does.
-/

namespace MethodLinkage
namespace Signature

variable {arena : Arena} {a b : Signature}

/-- A signature was built, with a table whose entries have the descriptors of their names, and the
arena has grown from the one that the build left. -/
def IsBuiltIn (arena : Arena) (signature : Signature) : Prop :=
  ∃ (start : Arena) (system : LoaderSystem) (view : Viewpoint) (descriptor : Descriptor),
    start.Reached ∧ system.Reached ∧ LoaderSystem.Spelled start view.references ∧
    (build view descriptor start system).answer = .ok signature ∧
    (build view descriptor start system).arena.types <+: arena.types

theorem IsBuiltIn.spelling (h : a.IsBuiltIn arena) : a.spelling arena = .ok a.descriptor.text := by
  obtain ⟨start, system, view, descriptor, hstart, hsystem, hspelled, hbuilt, hgrown⟩ := h
  obtain ⟨loader, hloader⟩ := LoaderSystem.definingLoader_of_build hbuilt
  obtain ⟨rfl, hsettled, -⟩ :=
    LoaderSystem.settle_of_build hstart.valid hloader hspelled.issued hbuilt
  have hlater := LoaderSystem.types_prefix_of_settle hsettled
  refine LoaderSystem.spelling_of_types ((LoaderSystem.settle_holds hsettled).imp ?_)
  rintro element id ⟨placement, hplacement, hholds⟩
  exact Arena.descriptor_mono hgrown
    (LoaderSystem.descriptor_of_holds hsystem.isFaithful (hspelled.mono hlater) hplacement hholds)

theorem spelling_congr (hparameters : a.parameters = b.parameters) (hresult : a.result = b.result)
    (arena : Arena) : a.spelling arena = b.spelling arena := by
  rw [spelling, spelling, hparameters, hresult]

theorem IsBuiltIn.text_eq (ha : a.IsBuiltIn arena) (hb : b.IsBuiltIn arena)
    (hparameters : a.parameters = b.parameters) (hresult : a.result = b.result) :
    a.descriptor.text = b.descriptor.text := by
  have hspelling := spelling_congr hparameters hresult arena
  rw [ha.spelling, hb.spelling] at hspelling
  exact Except.ok.inj hspelling

theorem IsBuiltIn.beq_iff (ha : a.IsBuiltIn arena) (hb : b.IsBuiltIn arena) :
    (a == b) = true ↔ a.parameters = b.parameters ∧ a.result = b.result := by
  rw [Signature.beq_iff, key, key, Prod.mk.injEq, Prod.mk.injEq]
  constructor
  · exact And.right
  · rintro ⟨hparameters, hresult⟩
    exact ⟨Descriptor.text_injective (ha.text_eq hb hparameters hresult), hparameters, hresult⟩

instance : EquivBEq Signature where
  rfl := Signature.beq_iff.mpr rfl
  symm h := Signature.beq_iff.mpr (Signature.beq_iff.mp h).symm
  trans h h' := Signature.beq_iff.mpr ((Signature.beq_iff.mp h).trans (Signature.beq_iff.mp h'))

theorem hash_eq_of_beq (h : (a == b) = true) : hash a = hash b := by
  let _ : Hashable Char := instHashableChar
  change hash a.hashed = hash b.hashed
  rw [hashed_eq_of_beq h]

instance : LawfulHashable Signature := ⟨fun _ _ => hash_eq_of_beq⟩

theorem insertEach_cons (known : Std.HashSet Signature) (signature : Signature)
    (rest : List Signature) :
    insertEach known (signature :: rest) =
      (!known.contains signature) :: insertEach (known.insert signature) rest := by
  have hinserted : known.containsThenInsert signature =
      (known.contains signature, known.insert signature) :=
    Prod.ext Std.HashSet.containsThenInsert_fst Std.HashSet.containsThenInsert_snd
  rw [insertEach, hinserted]

theorem getElem?_insertEach (known : Std.HashSet Signature) (signatures : List Signature)
    (index : Nat) :
    (insertEach known signatures)[index]? = signatures[index]?.map fun signature =>
      !(known.contains signature || (signatures.take index).any (· == signature)) := by
  induction signatures generalizing known index with
  | nil => rfl
  | cons first rest ih =>
    rw [insertEach_cons]
    cases index with
    | zero => simp
    | succ index =>
      rw [List.getElem?_cons_succ, List.getElem?_cons_succ, ih]
      simp only [Std.HashSet.contains_insert, List.take_succ_cons, List.any_cons, Bool.or_assoc,
        Bool.or_left_comm]

theorem length_insertEach (known : Std.HashSet Signature) (signatures : List Signature) :
    (insertEach known signatures).length = signatures.length := by
  induction signatures generalizing known with
  | nil => rfl
  | cons first rest ih => rw [insertEach_cons, List.length_cons, List.length_cons, ih]

theorem getElem?_insertEach_empty {signatures : List Signature} {index : Nat}
    {signature : Signature} (h : signatures[index]? = some signature) :
    (insertEach {} signatures)[index]? = some true ↔
      ∀ earlier ∈ signatures.take index, (earlier == signature) = false := by
  rw [getElem?_insertEach, h, Option.map_some, Std.HashSet.contains_empty, Bool.false_or]
  simp

/-- Signatures built in one session are equal if and only if they have the same types, which alone
tell the descriptor; the accessing types play no part. Equality is an equivalence, equal signatures
hash the same data, and putting signatures into a set one by one finds those new that equal none
before. -/
theorem equality_is_identity_of_types (ha : a.IsBuiltIn arena) (hb : b.IsBuiltIn arena) :
    ((a == b) = true ↔ a.parameters = b.parameters ∧ a.result = b.result) ∧
    (a.parameters = b.parameters → a.result = b.result →
      a.descriptor.text = b.descriptor.text) ∧
    (∀ (first second : Signature) (accessing accessing' : TypeIndex),
      ({ first with accessing := accessing } == { second with accessing := accessing' }) =
        (first == second)) ∧
    Equivalence (fun first second : Signature => (first == second) = true) ∧
    (∀ first second : Signature, (first == second) = true →
      first.hashed = second.hashed ∧ hash first = hash second) ∧
    ∀ signatures, (insertEach {} signatures).length = signatures.length ∧
      ∀ index signature, signatures[index]? = some signature →
        ((insertEach {} signatures)[index]? = some true ↔
          ∀ earlier ∈ signatures.take index, (earlier == signature) = false) :=
  ⟨ha.beq_iff hb, ha.text_eq hb, fun _ _ _ _ => rfl,
    ⟨fun _ => BEq.rfl, BEq.symm, BEq.trans⟩,
    fun _ _ h => ⟨hashed_eq_of_beq h, hash_eq_of_beq h⟩,
    fun _ => ⟨length_insertEach .., fun _ _ => getElem?_insertEach_empty⟩⟩

def ofShared : Descriptor := ⟨[.ofClass Workspace.shared], .void⟩

theorem siblings_build_equal_signatures :
    let workspace := (Workspace.siblings.run [.build ['m'] ⟨⟨9⟩, none⟩ ⟨ofShared.text, false⟩]).2
    let before := build ⟨⟨9⟩, []⟩ ofShared Workspace.siblings.session.arena
      Workspace.siblings.system
    let after := build ⟨⟨10⟩, []⟩ ofShared workspace.session.arena workspace.system
    ∃ own other, before.answer = .ok own ∧ after.answer = .ok other ∧
      own.IsBuiltIn after.arena ∧ other.IsBuiltIn after.arena ∧ own.accessing ≠ other.accessing ∧
      (own == other) = true ∧ hash own = hash other ∧
      (insertEach {} [own, other])[1]? ≠ some true := by
  intro workspace before after
  have hreached : workspace.Reached := Workspace.siblings_reached.run (by simp [Workspace.IsProper])
  have hempty : ∀ arena, LoaderSystem.Spelled arena [] := by
    intro arena name id hentry
    cases hentry
  have hbefore : before.answer = .ok ⟨ofShared, ⟨9⟩, [⟨12⟩], .void, 1⟩ := rfl
  have hread : Descriptor.ofText? ofShared.text = some ofShared := ofShared.ofText?_text
  have hworkspace : workspace.session.arena = before.arena := by
    dsimp only [workspace, Workspace.run, Workspace.step, Workspace.perform]
    rw [Workspace.withDescriptor_of_text hread]
    rfl
  have hafter : after.answer = .ok ⟨ofShared, ⟨10⟩, [⟨12⟩], .void, 1⟩ := by
    dsimp only [after, workspace, Workspace.run, Workspace.step, Workspace.perform]
    rw [Workspace.withDescriptor_of_text hread]
    rfl
  have hlookups := (LoaderSystem.lookups_within ⟨⟨10⟩, []⟩).build ofShared workspace.session.arena
    workspace.system
  have hown : IsBuiltIn after.arena ⟨ofShared, ⟨9⟩, [⟨12⟩], .void, 1⟩ :=
    ⟨_, _, _, _, ⟨_, Workspace.siblings_reached, rfl⟩, ⟨_, Workspace.siblings_reached, rfl⟩,
      hempty _, hbefore, hworkspace ▸ hlookups.types_prefix⟩
  have hother : IsBuiltIn after.arena ⟨ofShared, ⟨10⟩, [⟨12⟩], .void, 1⟩ :=
    ⟨_, _, _, _, ⟨_, hreached, rfl⟩, ⟨_, hreached, rfl⟩, hempty _, hafter, List.prefix_refl _⟩
  obtain ⟨hiff, -, -, -, hhashes, hset⟩ := equality_is_identity_of_types hown hother
  have hequal := hiff.mpr ⟨rfl, rfl⟩
  refine ⟨_, _, hbefore, hafter, hown, hother, by decide, hequal, (hhashes _ _ hequal).2, ?_⟩
  intro hnew
  have hdiffers := ((hset _).2 1 _ rfl).mp hnew _ List.mem_cons_self
  rw [hequal] at hdiffers
  cases hdiffers

end Signature
end MethodLinkage
