import MethodLinkage.Descriptor.Scanner

/-!
# Runs of a scanner

A scanner that goes through the text of a descriptor gives the parameters one after
another, then the result, and then nothing for ever. It comes to the end of no other
text, so scanning and reading accept the same texts and see the same elements in them.
-/

namespace MethodLinkage

namespace Scanner

def before (parameters : List FieldType) (result : Element) : Scanner :=
  ⟨Descriptor.parameterText parameters ++ ')' :: result.text, false, false⟩

theorem before_cons (type : FieldType) (parameters : List FieldType) (result : Element) :
    before (type :: parameters) result =
      ⟨type.text ++ (before parameters result).remaining, false, false⟩ := by
  simp [before, Descriptor.parameterText]

theorem ofText?_text (descriptor : Descriptor) :
    ofText? descriptor.text = some (before descriptor.parameters descriptor.result) := rfl

theorem next?_of_isDone {scanner : Scanner} (h : scanner.isDone = true) :
    scanner.next? = some (none, scanner) := by
  rw [next?, if_pos h]

theorem next?_parameter (type : FieldType) (rest : Text) :
    next? ⟨type.text ++ rest, false, false⟩ =
      some (some ⟨.field type, false⟩, ⟨rest, false, false⟩) := by
  have hpass : passParenthesis ⟨type.text ++ rest, false, false⟩ =
      ⟨type.text ++ rest, false, false⟩ := by
    obtain ⟨c, more, htype, -, hc⟩ := type.exists_text_eq_cons
    unfold passParenthesis
    split
    · next tail _ hremaining => simp [htype, hc] at hremaining
    · rfl
  have hread := Element.read_append (.field type) rest
  simp only [Element.text] at hread
  simp [next?, hpass, hread, admits]

theorem next?_result (result : Element) :
    next? ⟨')' :: result.text, false, false⟩ =
      some (some ⟨result, true⟩, ⟨[], true, true⟩) := by
  have hread := Element.read_append result []
  rw [List.append_nil] at hread
  simp [next?, passParenthesis, hread, admits]

theorem next?_cases {source : Text} {answer : Option PlacedElement} {after : Scanner}
    (h : next? ⟨source, false, false⟩ = some (answer, after)) :
    (∃ type rest, source = FieldType.text type ++ rest ∧ answer = some ⟨.field type, false⟩ ∧
      after = ⟨rest, false, false⟩) ∨
    ∃ result, source = ')' :: Element.text result ∧ answer = some ⟨result, true⟩ ∧
      after = ⟨[], true, true⟩ := by
  by_cases hparenthesis : ∃ rest, source = ')' :: rest
  · obtain ⟨rest, rfl⟩ := hparenthesis
    have hpass : passParenthesis ⟨')' :: rest, false, false⟩ = ⟨rest, true, false⟩ := rfl
    simp only [next?, hpass, Bool.false_eq_true, if_false] at h
    split at h
    · cases h
    · next result left hread =>
      have hrest := Element.eq_append_of_read hread
      split at h
      · next hadmits =>
        have hleft : left = [] := by simpa [admits] using hadmits
        rw [hleft, List.append_nil] at hrest
        cases h
        exact .inr ⟨result, by rw [hrest], rfl, by rw [hleft]⟩
      · cases h
  · have hpass : passParenthesis ⟨source, false, false⟩ = ⟨source, false, false⟩ := by
      unfold passParenthesis
      split
      · next rest _ hremaining => exact absurd ⟨rest, hremaining⟩ hparenthesis
      · rfl
    simp only [next?, hpass, Bool.false_eq_true, if_false] at h
    split at h
    · cases h
    · next element rest hread =>
      have hsource := Element.eq_append_of_read hread
      split at h
      · next hadmits =>
        cases element with
        | void => simp [admits] at hadmits
        | field type =>
          cases h
          exact .inl ⟨type, rest, hsource, rfl, rfl⟩
      · cases h

/-- Calls answer with the elements in order, and with nothing from the end on. -/
def Yields (scanner : Scanner) (elements : List PlacedElement) : Prop :=
  ∀ count, scanner.answers? count = some ((List.range count).map (elements[·]?))

theorem Yields.cons {scanner after : Scanner} {placed : PlacedElement}
    {elements : List PlacedElement} (hnext : scanner.next? = some (some placed, after))
    (h : after.Yields elements) : scanner.Yields (placed :: elements) := by
  intro count
  cases count with
  | zero => rfl
  | succ count =>
    rw [answers?, hnext]
    simp [h count, List.range_succ_eq_map, Function.comp_def]

theorem yields_of_isDone {scanner : Scanner} (h : scanner.isDone = true) :
    scanner.Yields [] := by
  intro count
  induction count with
  | zero => rfl
  | succ count ih =>
    rw [answers?, next?_of_isDone h]
    simp [ih, List.range_succ_eq_map, Function.comp_def]

theorem yields_before (parameters : List FieldType) (result : Element) :
    (before parameters result).Yields (Descriptor.elements ⟨parameters, result⟩) := by
  induction parameters with
  | nil => exact .cons (next?_result result) (yields_of_isDone rfl)
  | cons type parameters ih =>
    rw [before_cons]
    exact .cons (next?_parameter type _) ih

theorem elements?_of_next? {scanner after : Scanner} {placed : PlacedElement}
    (h : scanner.next? = some (some placed, after)) :
    scanner.elements? = after.elements?.map (placed :: ·) := by
  rw [elements?]
  split
  · next hnone => rw [h] at hnone; cases hnone
  · next hnone => rw [h] at hnone; cases hnone
  · next hsome =>
    rw [h] at hsome
    cases hsome
    rfl

theorem elements?_of_isDone {scanner : Scanner} (h : scanner.isDone = true) :
    scanner.elements? = some [] := by
  have hnext := next?_of_isDone h
  rw [elements?]
  split
  · next hnone => rw [hnext] at hnone; cases hnone
  · rfl
  · next hsome => rw [hnext] at hsome; cases hsome

theorem elements?_before (parameters : List FieldType) (result : Element) :
    (before parameters result).elements? = some (Descriptor.elements ⟨parameters, result⟩) := by
  induction parameters with
  | nil =>
    have hnext : (before [] result).next? = some (some ⟨result, true⟩, ⟨[], true, true⟩) :=
      next?_result result
    rw [elements?_of_next? hnext, elements?_of_isDone rfl]
    rfl
  | cons type parameters ih =>
    rw [before_cons, elements?_of_next? (next?_parameter type _)]
    exact congrArg (Option.map _) ih

theorem exists_before_of_elements? {scanner : Scanner} {elements : List PlacedElement}
    (hparameters : scanner.onReturn = false) (hrunning : scanner.isDone = false)
    (h : scanner.elements? = some elements) :
    ∃ parameters result, scanner = before parameters result := by
  have hscanner : scanner = ⟨scanner.remaining, false, false⟩ := by
    obtain ⟨_, _, _⟩ := scanner
    cases hparameters
    cases hrunning
    rfl
  fun_induction elements? scanner generalizing elements with
  | case1 scanner hnext => cases h
  | case2 scanner after hnext =>
    rw [hscanner] at hnext
    rcases next?_cases hnext with ⟨_, _, -, hanswer, -⟩ | ⟨_, -, hanswer, -⟩
    · cases hanswer
    · cases hanswer
  | case3 scanner placed after hnext ih =>
    rw [hscanner] at hnext ⊢
    rcases next?_cases hnext with ⟨type, rest, hsource, -, rfl⟩ | ⟨result, hsource, -, -⟩
    · obtain ⟨others, hothers, -⟩ := Option.map_eq_some_iff.mp h
      obtain ⟨parameters, result, hrest⟩ := ih rfl rfl hothers rfl
      refine ⟨type :: parameters, result, ?_⟩
      rw [before_cons, ← hrest, hsource]
    · exact ⟨[], result, by rw [hsource]; rfl⟩

theorem elements?_ofText? (text : Text) :
    (ofText? text).bind elements? = (Descriptor.ofText? text).map Descriptor.elements := by
  cases hread : Descriptor.ofText? text with
  | some descriptor =>
    rw [Descriptor.ofText?_eq_some_iff.mp hread, ofText?_text, Option.bind_some, elements?_before]
    rfl
  | none =>
    rw [Option.map_none, Option.eq_none_iff_forall_ne_some]
    intro elements h
    obtain ⟨scanner, hscanner, helements⟩ := Option.bind_eq_some_iff.mp h
    unfold ofText? at hscanner
    split at hscanner
    · next source =>
      cases hscanner
      obtain ⟨parameters, result, hbefore⟩ := exists_before_of_elements? rfl rfl helements
      have htext : '(' :: source = Descriptor.text ⟨parameters, result⟩ :=
        congrArg (fun scanner => '(' :: scanner.remaining) hbefore
      rw [htext, Descriptor.ofText?_text] at hread
      cases hread
    · cases hscanner

end Scanner

end MethodLinkage
