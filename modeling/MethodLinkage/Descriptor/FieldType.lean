import MethodLinkage.Descriptor.Primitive
import MethodLinkage.Descriptor.ClassName

/-!
# Field types

A field type is a base type, primitive or class, under at most 255 array
dimensions. Its text is self-delimiting: reading the text of a field type
followed by anything gives the field type and what followed (`read_append`), and
whatever is read was written there (`eq_append_of_read`).
-/

namespace MethodLinkage

inductive BaseType where
  | primitive (type : Primitive)
  | object (name : ClassName)
  deriving DecidableEq

namespace BaseType

def text : BaseType → Text
  | primitive type => [type.letter]
  | object name => 'L' :: name.text ++ [';']

def read : Text → Option (BaseType × Text)
  | 'L' :: rest =>
    match rest.dropWhile (· ≠ ';') with
    | [] => none
    | _ :: after =>
      (ClassName.ofText? (rest.takeWhile (· ≠ ';'))).map fun name => (object name, after)
  | letter :: rest => (Primitive.ofLetter? letter).map fun type => (primitive type, rest)
  | [] => none

theorem exists_text_eq_cons (base : BaseType) :
    ∃ c rest, base.text = c :: rest ∧ c ≠ '[' ∧ c ≠ 'V' ∧ c ≠ ')' := by
  cases base with
  | primitive type => cases type <;> exact ⟨_, _, rfl, by decide⟩
  | object name => exact ⟨_, _, rfl, by decide⟩

theorem read_append (base : BaseType) (rest : Text) :
    read (base.text ++ rest) = some (base, rest) := by
  cases base with
  | primitive type => cases type <;> rfl
  | object name =>
    have clean : ∀ c ∈ name.text, decide (c ≠ ';') = true := by
      intro c hc
      simpa using (name.clean hc).2.1
    have same : (object name).text ++ rest = 'L' :: (name.text ++ ';' :: rest) := by
      simp [text]
    rw [same, read, List.dropWhile_append_of_pos clean, List.takeWhile_append_of_pos clean]
    simp [ClassName.ofText?_text]

theorem eq_append_of_read {source rest : Text} {base : BaseType}
    (h : read source = some (base, rest)) : source = base.text ++ rest := by
  unfold read at h
  split at h
  · next body =>
    split at h
    · cases h
    · next c after hdrop =>
      obtain ⟨name, hname, hpair⟩ := Option.map_eq_some_iff.mp h
      cases hpair
      have hc : c = ';' := by
        have head := List.head?_dropWhile_not (fun c => decide (c ≠ ';')) body
        rw [hdrop] at head
        simpa using head
      have whole := List.takeWhile_append_dropWhile (p := fun c => decide (c ≠ ';')) (l := body)
      rw [hdrop, ClassName.ofText?_eq_some_iff.mp hname, hc] at whole
      simp [text, ← whole]
  · obtain ⟨type, htype, hpair⟩ := Option.map_eq_some_iff.mp h
    cases hpair
    simp [text, Primitive.ofLetter?_eq_some_iff.mp htype]
  · cases h

end BaseType

structure FieldType where
  dimensions : Nat
  base : BaseType
  dimensions_le : dimensions ≤ 255
  deriving DecidableEq

namespace FieldType

def text (type : FieldType) : Text := List.replicate type.dimensions '[' ++ type.base.text

def read (source : Text) : Option (FieldType × Text) :=
  let dimensions := (source.takeWhile (· = '[')).length
  if h : dimensions ≤ 255 then
    (BaseType.read (source.dropWhile (· = '['))).map fun (base, rest) =>
      (⟨dimensions, base, h⟩, rest)
  else none

theorem exists_text_eq_cons (type : FieldType) :
    ∃ c rest, type.text = c :: rest ∧ c ≠ 'V' ∧ c ≠ ')' := by
  obtain ⟨_ | n, base, hle⟩ := type
  · obtain ⟨c, rest, hbase, -, hc⟩ := base.exists_text_eq_cons
    exact ⟨c, rest, hbase, hc⟩
  · exact ⟨'[', _, rfl, by decide⟩

theorem span_brackets (n : Nat) (base : BaseType) (rest : Text) :
    (List.replicate n '[' ++ (base.text ++ rest)).takeWhile (· = '[') = List.replicate n '[' ∧
    (List.replicate n '[' ++ (base.text ++ rest)).dropWhile (· = '[') = base.text ++ rest := by
  obtain ⟨c, more, h, hc, -⟩ := base.exists_text_eq_cons
  have brackets : ∀ d ∈ List.replicate n '[', decide (d = '[') = true := by
    intro d hd
    simp [List.eq_of_mem_replicate hd]
  rw [List.takeWhile_append_of_pos brackets, List.dropWhile_append_of_pos brackets, h]
  simp [hc]

theorem read_append (type : FieldType) (rest : Text) :
    read (type.text ++ rest) = some (type, rest) := by
  obtain ⟨n, base, hn⟩ := type
  have split := span_brackets n base rest
  simp only [text, read, List.append_assoc, split.1, split.2, List.length_replicate, hn,
    BaseType.read_append, dite_true, Option.map_some]

theorem eq_append_of_read {source rest : Text} {type : FieldType}
    (h : read source = some (type, rest)) : source = type.text ++ rest := by
  simp only [read] at h
  split at h
  · obtain ⟨⟨base, after⟩, hbase, hpair⟩ := Option.map_eq_some_iff.mp h
    cases hpair
    have whole := List.takeWhile_append_dropWhile (p := fun c => decide (c = '[')) (l := source)
    have brackets : source.takeWhile (· = '[') =
        List.replicate (source.takeWhile (· = '[')).length '[' := by
      rw [List.eq_replicate_iff]
      refine ⟨rfl, fun c hc => ?_⟩
      simpa using List.all_eq_true.mp List.all_takeWhile c hc
    rw [BaseType.eq_append_of_read hbase, brackets] at whole
    simp only [text, List.append_assoc]
    exact whole.symm
  · cases h

theorem length_lt_of_read {source rest : Text} {type : FieldType}
    (h : read source = some (type, rest)) : rest.length < source.length := by
  obtain ⟨c, more, hbase, -⟩ := type.base.exists_text_eq_cons
  rw [eq_append_of_read h]
  simp only [text, hbase, List.length_append, List.length_cons]
  omega

end FieldType

end MethodLinkage
