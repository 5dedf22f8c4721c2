import MethodLinkage.Proofs.ScannedElements

/-!
# Elements that delimit themselves

An element can be cut off a text whatever follows it: as many brackets as there are
belong to it, and then one letter or a class up to the first semicolon. The name of
an array is all that was cut off, measured in bytes by what is left of the text. Just
what was written is cut off, so no element is written as the beginning of another.
-/

namespace MethodLinkage

open DescriptorGrammar (SpellsName isBinaryName_iff)

namespace Text

def sliceTo? : Text → Nat → Option Text
  | _, 0 => some []
  | [], _ + 1 => none
  | c :: rest, bytes + 1 =>
    if c.utf8Size ≤ bytes + 1 then (sliceTo? rest (bytes + 1 - c.utf8Size)).map (c :: ·) else none

theorem byteLength_cons (c : Char) (rest : Text) :
    byteLength (c :: rest) = c.utf8Size + byteLength rest := rfl

theorem sliceTo?_append (beginning rest : Text) :
    sliceTo? (beginning ++ rest) (byteLength beginning) = some beginning := by
  induction beginning with
  | nil =>
    rw [byteLength, List.foldr_nil, sliceTo?]
  | cons c beginning ih =>
    obtain ⟨bytes, hbytes⟩ : ∃ bytes, c.utf8Size + byteLength beginning = bytes + 1 :=
      Nat.exists_eq_succ_of_ne_zero (by have := c.utf8Size_pos; omega)
    have hfits : c.utf8Size ≤ bytes + 1 := hbytes ▸ Nat.le_add_right ..
    have hleft : bytes + 1 - c.utf8Size = byteLength beginning := by omega
    rw [byteLength_cons, hbytes, List.cons_append, sliceTo?, if_pos hfits, hleft, ih]
    rfl

end Text

namespace BaseType

def kind : BaseType → ElementKind
  | primitive type => .primitive type
  | object name => .reference name.text

end BaseType

theorem Element.text_ne_nil (element : Element) : element.text ≠ [] := by
  cases element with
  | field type =>
    obtain ⟨c, more, htext, -⟩ := type.exists_text_eq_cons
    rw [text, htext]
    exact List.cons_ne_nil c more
  | void => exact List.cons_ne_nil 'V' []

namespace ElementKind

/-- Cuts a letter or a class off a text, under brackets or without. -/
def cutBare? (dimensions : Nat) : Text → Option (ElementKind × Text)
  | [] => none
  | 'L' :: source =>
    match source.dropWhile (· ≠ ';') with
    | [] => none
    | _ :: rest =>
      let name := source.takeWhile (· ≠ ';')
      if IsBinaryName name then some (.reference name, rest) else none
  | letter :: rest =>
    if letter = 'V' ∧ dimensions = 0 then some (.void, rest)
    else (Primitive.ofLetter? letter).map fun type => (.primitive type, rest)

inductive CutError where
  | malformed
  | insideCharacter
  deriving DecidableEq

/-- Cuts an element off a text. The name of an array is the text up to what is left. -/
def cut (source : Text) : Except CutError (ElementKind × Text) :=
  let dimensions := (source.takeWhile (· = '[')).length
  if 255 < dimensions then .error .malformed
  else
    match cutBare? dimensions (source.drop dimensions) with
    | none => .error .malformed
    | some (bare, rest) =>
      if dimensions = 0 then .ok (bare, rest)
      else
        match source.sliceTo? (source.byteLength - rest.byteLength) with
        | none => .error .insideCharacter
        | some name => .ok (.reference name, rest)

variable {source rest : Text} {dimensions : Nat} {bare kind other : ElementKind}

theorem cutBare?_eq_read (h : source.head? ≠ some 'V' ∨ dimensions ≠ 0) :
    cutBare? dimensions source =
      (BaseType.read source).map fun (base, rest) => (base.kind, rest) := by
  fun_cases cutBare? dimensions source with
  | case1 => rfl
  | case2 name hdrop => simp only [BaseType.read, hdrop, Option.map_none]
  | case3 name c rest hdrop chars hvalid =>
    simp only [BaseType.read, hdrop, ClassName.ofText?]
    rw [dif_pos hvalid]
    rfl
  | case4 name c rest hdrop chars hinvalid =>
    simp only [BaseType.read, hdrop, ClassName.ofText?]
    rw [dif_neg hinvalid]
    rfl
  | case5 letter rest hclass hvoid =>
    simp [hvoid] at h
  | case6 letter rest hclass hletter =>
    rw [BaseType.read, Option.map_map]
    · rfl
    · exact hclass

theorem cutBare?_base (base : BaseType) (rest : Text) :
    cutBare? dimensions (base.text ++ rest) = some (base.kind, rest) := by
  obtain ⟨c, more, htext, -, hvoid, -⟩ := base.exists_text_eq_cons
  have hhead : (base.text ++ rest).head? ≠ some 'V' := by
    simpa [htext] using hvoid
  rw [cutBare?_eq_read (.inl hhead), BaseType.read_append]
  rfl

theorem cut_field_append (type : FieldType) (rest : Text) :
    cut (type.text ++ rest) = .ok ((Element.field type).kind, rest) := by
  have hsource : type.text ++ rest =
      List.replicate type.dimensions '[' ++ (type.base.text ++ rest) := List.append_assoc ..
  have hbrackets : ((type.text ++ rest).takeWhile (· = '[')).length = type.dimensions := by
    rw [hsource, (FieldType.span_brackets _ _ _).1, List.length_replicate]
  have hdrop : (type.text ++ rest).drop type.dimensions = type.base.text ++ rest := by
    rw [hsource, List.drop_left' List.length_replicate]
  have hbytes : (type.text ++ rest).byteLength - rest.byteLength = type.text.byteLength := by
    rw [Text.byteLength_append, Nat.add_sub_cancel]
  simp only [cut, hbrackets, hdrop, cutBare?_base, hbytes, Text.sliceTo?_append,
    if_neg (Nat.not_lt.mpr type.dimensions_le)]
  obtain ⟨_ | n, base, hle⟩ := type
  · cases base <;> rfl
  · rfl

theorem cut_append (element : Element) (rest : Text) :
    cut (element.text ++ rest) = .ok (element.kind, rest) := by
  cases element with
  | field type => exact cut_field_append type rest
  | void => rfl

theorem eq_append_of_cutBare? (h : cutBare? dimensions source = some (bare, rest)) :
    (dimensions = 0 ∧ source = 'V' :: rest) ∨ ∃ base : BaseType, source = base.text ++ rest := by
  by_cases hvoid : source.head? ≠ some 'V' ∨ dimensions ≠ 0
  · rw [cutBare?_eq_read hvoid] at h
    obtain ⟨⟨base, after⟩, hread, hpair⟩ := Option.map_eq_some_iff.mp h
    cases hpair
    exact .inr ⟨base, BaseType.eq_append_of_read hread⟩
  · obtain ⟨hhead, hzero⟩ := not_or.mp hvoid
    obtain ⟨after, rfl⟩ := List.head?_eq_some_iff.mp (not_not.mp hhead)
    obtain rfl := not_not.mp hzero
    cases h
    exact .inl ⟨rfl, rfl⟩

theorem exists_element_of_cutBare? (hle : dimensions ≤ 255)
    (h : cutBare? dimensions source = some (bare, rest)) :
    ∃ element : Element, List.replicate dimensions '[' ++ source = element.text ++ rest := by
  rcases eq_append_of_cutBare? h with ⟨rfl, rfl⟩ | ⟨base, rfl⟩
  · exact ⟨.void, rfl⟩
  · exact ⟨.field ⟨dimensions, base, hle⟩, (List.append_assoc ..).symm⟩

theorem brackets_append_drop (source : Text) :
    let dimensions := (source.takeWhile (· = '[')).length
    List.replicate dimensions '[' ++ source.drop dimensions = source := by
  have hbrackets : source.takeWhile (· = '[') =
      List.replicate (source.takeWhile (· = '[')).length '[' := by
    rw [List.eq_replicate_iff]
    exact ⟨rfl, fun c hc => by simpa using List.all_eq_true.mp List.all_takeWhile c hc⟩
  intro dimensions
  rw [← hbrackets]
  exact List.prefix_iff_eq_append.mp (List.takeWhile_prefix _)

theorem cut_eq_read (source : Text) :
    cut source = match Element.read source with
      | some (element, rest) => .ok (element.kind, rest)
      | none => .error .malformed := by
  cases hread : Element.read source with
  | some pair =>
    rw [Element.eq_append_of_read hread, cut_append]
  | none =>
    simp only [cut]
    split
    · rfl
    · next hle =>
      split
      · rfl
      · next bare rest hbare =>
        -- what would be cut off could be read, so this case does not arise
        obtain ⟨element, helement⟩ := exists_element_of_cutBare? (Nat.not_lt.mp hle) hbare
        rw [brackets_append_drop] at helement
        rw [helement, Element.read_append] at hread
        cases hread

theorem cut_text_append (h : kind.IsResult) (rest : Text) :
    cut (kind.text ++ rest) = .ok (kind, rest) := by
  obtain ⟨element, rfl⟩ := isResult_iff.mp h
  rw [Element.text_kind, cut_append]

theorem eq_append_of_cut (h : cut source = .ok (kind, rest)) :
    kind.IsResult ∧ kind.text ≠ [] ∧ source = kind.text ++ rest := by
  rw [cut_eq_read] at h
  cases hread : Element.read source with
  | none =>
    rw [hread] at h
    cases h
  | some pair =>
    obtain ⟨element, after⟩ := pair
    rw [hread] at h
    cases h
    rw [Element.text_kind]
    exact ⟨isResult_iff.mpr ⟨element, rfl⟩, element.text_ne_nil, Element.eq_append_of_read hread⟩

theorem eq_of_text_isPrefix (hkind : kind.IsResult) (hother : other.IsResult)
    (h : kind.text <+: other.text) : kind = other := by
  obtain ⟨rest, hrest⟩ := h
  -- of the longer text both are cut off
  have hcut := cut_text_append hother []
  rw [List.append_nil, ← hrest, cut_text_append hkind rest] at hcut
  cases hcut
  rfl

/-- An element is cut off whatever follows it, only what is written is cut off, the elements of
descriptors are cut off so, and none of them begins another. -/
theorem elements_delimit_themselves :
    (∀ kind : ElementKind, kind.IsResult → ∀ rest, cut (kind.text ++ rest) = .ok (kind, rest)) ∧
    (∀ source kind rest, cut source = .ok (kind, rest) →
      kind.IsResult ∧ kind.text ≠ [] ∧ source = kind.text ++ rest) ∧
    (∀ source, cut source = match Element.read source with
      | some (element, rest) => .ok (element.kind, rest)
      | none => .error .malformed) ∧
    ∀ kind other : ElementKind, kind.IsResult → other.IsResult → kind.text <+: other.text → kind = other := by
  refine ⟨fun _ => cut_text_append, fun _ _ _ => eq_append_of_cut, cut_eq_read,
    fun _ _ => eq_of_text_isPrefix⟩

theorem greek_class_and_array_are_cut :
    cut ['L', 'α', ';', ';', '['] = .ok (.reference ['α'], [';', '[']) ∧
      cut ['[', '[', 'L', 'α', ';', '[', 'I'] =
        .ok (.reference ['[', '[', 'L', 'α', ';'], ['[', 'I']) := by
  have hname : SpellsName ['α'] := isBinaryName_iff.mp (by decide)
  have hclass : IsResult (.reference ['α']) := .inl (.classNamed hname)
  have harray : IsResult (.reference (List.replicate 2 '[' ++ ['L', 'α', ';'])) :=
    .inl (.array (by decide) (by decide) (.object hname))
  exact ⟨elements_delimit_themselves.1 _ hclass [';', '['],
    elements_delimit_themselves.1 _ harray ['[', 'I']⟩

end ElementKind

end MethodLinkage
