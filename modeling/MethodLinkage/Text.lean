/-!
# Text

Class names, descriptors and paths are compared code point by code point and
never normalised, so a text is the list of its characters.
-/

namespace MethodLinkage

abbrev Text := List Char

namespace Text

/-- Bytes of the UTF-8 form, the unit in which a file system measures names. -/
def byteLength (text : Text) : Nat := text.foldr (fun c rest => c.utf8Size + rest) 0

theorem byteLength_append (a b : Text) : byteLength (a ++ b) = byteLength a + byteLength b := by
  induction a with
  | nil => simp [byteLength]
  | cons c rest ih =>
    simp only [byteLength, List.cons_append, List.foldr_cons] at ih ⊢
    omega

def segments (text : Text) : List Text := text.splitOn '/'

theorem segments_nil : segments [] = [[]] := List.splitOn_nil ..

theorem segments_append_slash (a b : Text) :
    segments (a ++ '/' :: b) = segments a ++ segments b :=
  List.splitOn_append_cons_self ..

theorem intercalate_segments (text : Text) : ['/'].intercalate (segments text) = text :=
  List.intercalate_splitOn '/'

theorem exists_segment_of_mem {text : Text} {c : Char} (hc : c ∈ text) (hs : c ≠ '/') :
    ∃ part ∈ segments text, c ∈ part := by
  induction text with
  | nil => cases hc
  | cons d rest ih =>
    rw [segments, List.splitOn_cons_eq_if_modifyHead]
    rcases List.mem_cons.mp hc with rfl | hc
    · have hne : segments rest ≠ [] := by simp [segments]
      obtain ⟨first, more, h⟩ := List.exists_cons_of_ne_nil hne
      simp only [segments] at h
      simp [hs, h]
    · obtain ⟨part, hpart, hmem⟩ := ih hc
      split
      · exact ⟨part, List.mem_cons_of_mem _ hpart, hmem⟩
      · simp only [segments] at hpart
        obtain ⟨first, more, h⟩ := List.exists_cons_of_ne_nil (List.ne_nil_of_mem hpart)
        rw [h] at hpart ⊢
        rcases List.mem_cons.mp hpart with rfl | hpart
        · exact ⟨d :: part, by simp, List.mem_cons_of_mem _ hmem⟩
        · exact ⟨part, by simp [hpart], hmem⟩

end Text

end MethodLinkage
