import MethodLinkage.Proofs.ArenaRenaming
import MethodLinkage.Proofs.ResolutionSteps
import MethodLinkage.Proofs.SignatureBuilding

/-!
# The order of placements

What a list of placements adds to an arena are the elements and the arrays on the way to
the outermost ones, whichever comes first. So two arenas in which the same has been placed
in different orders are alike, and a renaming takes the numbers of a placement in the one to
its number in the other.
-/

namespace MethodLinkage
namespace Arena

variable {arena base last : Arena} {id : TypeIndex} {element : Ty} {dimensions : Nat}
  {placement : Placement} {placements others : List Placement} {ids : List TypeIndex}

def placeEach : List Placement → Arena → Except Fault (List TypeIndex) × Arena
  | [], arena => (.ok [], arena)
  | placement :: rest, arena =>
    match arena.place placement with
    | (.error fault, last) => (.error fault, last)
    | (.ok id, middle) =>
      let later := placeEach rest middle
      (later.1.map (id :: ·), later.2)

theorem exists_of_placeEach_cons (h : placeEach (placement :: placements) arena = (.ok ids, last)) :
    ∃ id middle rest, arena.place placement = (.ok id, middle) ∧
      placeEach placements middle = (.ok rest, last) ∧ ids = id :: rest := by
  rw [placeEach] at h
  generalize arena.place placement = placed at h
  obtain ⟨_ | id, middle⟩ := placed
  · cases h
  · refine ⟨id, middle, ?_⟩
    dsimp only at h
    generalize placeEach placements middle = later at h
    obtain ⟨_ | rest, final⟩ := later
    · cases h
    · cases h
      exact ⟨rest, rfl, rfl, rfl⟩

theorem types_prefix_of_place (h : arena.place placement = (.ok id, last)) :
    arena.types <+: last.types := by
  have hprefix := arena.types_prefix_place placement
  rwa [h] at hprefix

theorem types_prefix_placeEach (h : placeEach placements arena = (.ok ids, last)) :
    arena.types <+: last.types := by
  induction placements generalizing arena ids with
  | nil =>
    cases h
    exact List.prefix_refl _
  | cons placement rest ih =>
    obtain ⟨id, middle, later, hplace, hlater, -⟩ := exists_of_placeEach_cons h
    exact (types_prefix_of_place hplace).trans (ih hlater)

theorem Valid.placeEach (hvalid : arena.Valid)
    (h : placeEach placements arena = (.ok ids, last)) : last.Valid := by
  induction placements generalizing arena ids with
  | nil =>
    cases h
    exact hvalid
  | cons placement rest ih =>
    obtain ⟨id, middle, later, hplace, hlater, -⟩ := exists_of_placeEach_cons h
    have hmiddle := hvalid.place placement
    rw [hplace] at hmiddle
    exact ih hmiddle hlater

theorem placeEach_append {middle : Arena} {news : List TypeIndex}
    (h : placeEach placements arena = (.ok ids, middle))
    (hothers : placeEach others middle = (.ok news, last)) :
    placeEach (placements ++ others) arena = (.ok (ids ++ news), last) := by
  induction placements generalizing arena ids with
  | nil =>
    cases h
    exact hothers
  | cons placement rest ih =>
    obtain ⟨id, first, later, hplace, hlater, rfl⟩ := exists_of_placeEach_cons h
    rw [List.cons_append, placeEach, hplace]
    dsimp only
    rw [ih hlater]
    rfl

theorem exists_placeEach (placements : List Placement)
    (hroom : arena.HasRoom (placements.map Placement.typeCount).sum) :
    ∃ ids last, placeEach placements arena = (.ok ids, last) ∧
      last.size ≤ arena.size + (placements.map Placement.typeCount).sum := by
  induction placements generalizing arena with
  | nil => exact ⟨[], arena, rfl, Nat.le_refl _⟩
  | cons placement rest ih =>
    rw [List.map_cons, List.sum_cons] at hroom ⊢
    have hsize := arena.size_place_le placement
    rcases arena.ok_or_runsOut_place placement with ⟨id, hid⟩ | hout
    · have hlarger : (arena.place placement).2.HasRoom (rest.map Placement.typeCount).sum := by
        rw [HasRoom] at hroom ⊢
        omega
      obtain ⟨ids, last, hids, hlast⟩ := ih hlarger
      refine ⟨id :: ids, last, ?_, by omega⟩
      have hplace : arena.place placement = (.ok id, (arena.place placement).2) :=
        Prod.ext hid rfl
      rw [placeEach, hplace]
      dsimp only
      rw [hids]
      rfl
    · exact absurd (hroom.mono (Nat.le_add_right ..)) hout.noRoom

/-- Known numbers are issued, and elements are no arrays. -/
def Fits (base : Arena) : Placement → Prop
  | .known id => base.Issues id
  | .built _ element => ∀ component, element ≠ .array component

theorem issues_intern (h : (arena.intern element).2.Issues id) :
    arena.Issues id ∨ (arena.intern element).1 = .ok id := by
  obtain ⟨found, hget⟩ := h
  rcases get?_intern_cases hget with hold | ⟨-, hid, -⟩
  · exact .inl ⟨found, hold⟩
  · exact .inr hid

theorem issues_internOver (hnot : ∀ component, element ≠ .array component)
    (h : (arena.internOver dimensions element).2.Issues id) :
    arena.Issues id ∨ ∃ depth ≤ dimensions,
      (arena.internOver dimensions element).2.Unfolds id depth element := by
  induction dimensions with
  | zero =>
    rcases issues_intern h with hold | hid
    · exact .inl hold
    · exact .inr ⟨0, Nat.le_refl 0, .element (get?_intern hid) hnot⟩
  | succ n ih =>
    have hgrown := Interned.types_prefix_arrays_succ (arena.intern element) n
    obtain ⟨found, hget⟩ := h
    rcases get?_arrays_succ_cases hget with hinner | ⟨-, hid, -⟩
    · rcases ih ⟨found, hinner⟩ with hold | ⟨depth, hle, hunfolds⟩
      · exact .inl hold
      · exact .inr ⟨depth, by omega, hunfolds.mono hgrown⟩
    · exact .inr ⟨n + 1, Nat.le_refl _, unfolds_internOver hnot hid⟩

theorem issues_placeEach (hfits : ∀ placement ∈ placements, Fits base placement)
    (h : placeEach placements arena = (.ok ids, last)) (hid : last.Issues id) :
    arena.Issues id ∨ ∃ dimensions element depth, .built dimensions element ∈ placements ∧
      depth ≤ dimensions ∧ last.Unfolds id depth element := by
  induction placements generalizing arena ids with
  | nil =>
    cases h
    exact .inl hid
  | cons placement rest ih =>
    obtain ⟨hfirst, hrest⟩ := List.forall_mem_cons.mp hfits
    obtain ⟨placed, middle, later, hplace, hlater, -⟩ := exists_of_placeEach_cons h
    have hgrown := types_prefix_placeEach hlater
    rcases ih hrest hlater with hplaced | ⟨dimensions, element, depth, hmem, hle, hunfolds⟩
    · cases placement with
      | known known =>
        cases hplace
        exact .inl hplaced
      | built dimensions element =>
        obtain rfl : (arena.internOver dimensions element).2 = middle := congrArg Prod.snd hplace
        rcases issues_internOver hfirst hplaced with hold | ⟨depth, hle, hunfolds⟩
        · exact .inl hold
        · exact .inr ⟨dimensions, element, depth, List.mem_cons_self, hle, hunfolds.mono hgrown⟩
    · exact .inr ⟨dimensions, element, depth, List.mem_cons_of_mem _ hmem, hle, hunfolds⟩

theorem Unfolds.exists_of_le {depth : Nat} (h : arena.Unfolds id dimensions element)
    (hle : depth ≤ dimensions) : ∃ inner, arena.Unfolds inner depth element := by
  induction h with
  | @element id type hget hnot =>
    obtain rfl := Nat.le_zero.mp hle
    exact ⟨id, .element hget hnot⟩
  | @array id component dimensions element hget hcomponent ih =>
    rcases Nat.lt_or_eq_of_le hle with hlt | rfl
    · exact ih (by omega)
    · exact ⟨id, .array hget hcomponent⟩

theorem holds_of_fits (hfits : Fits base placement)
    (h : arena.place placement = (.ok id, last)) : last.Holds placement id := by
  cases placement with
  | known known =>
    cases h
    rfl
  | built dimensions element =>
    have hunfolds := unfolds_internOver hfits (congrArg Prod.fst h)
    rwa [show arena.internOver dimensions element = (.ok id, last) from h] at hunfolds

theorem placeEach_holds (hfits : ∀ placement ∈ placements, Fits base placement)
    (h : placeEach placements arena = (.ok ids, last)) :
    List.Forall₂ last.Holds placements ids := by
  induction placements generalizing arena ids with
  | nil =>
    cases h
    exact .nil
  | cons placement rest ih =>
    obtain ⟨hfirst, hrest⟩ := List.forall_mem_cons.mp hfits
    obtain ⟨id, middle, later, hplace, hlater, rfl⟩ := exists_of_placeEach_cons h
    exact .cons ((holds_of_fits hfirst hplace).mono (types_prefix_placeEach hlater))
      (ih hrest hlater)

theorem issues_of_holds (hgrown : base.types <+: arena.types) (hfits : Fits base placement)
    (h : arena.Holds placement id) : arena.Issues id := by
  cases placement with
  | known known =>
    cases h
    exact Issues.mono hgrown hfits
  | built dimensions element => exact Unfolds.exists_get? h

theorem issues_of_mem_placeEach (hgrown : base.types <+: arena.types)
    (hfits : ∀ placement ∈ placements, Fits base placement)
    (h : placeEach placements arena = (.ok ids, last)) : ∀ id ∈ ids, last.Issues id := by
  have hholds := placeEach_holds hfits h
  have hlater := hgrown.trans (types_prefix_placeEach h)
  clear h
  induction hholds with
  | nil => exact List.forall_mem_nil _
  | cons hfirst _ ih =>
    obtain ⟨hhere, hrest⟩ := List.forall_mem_cons.mp hfits
    exact List.forall_mem_cons.mpr ⟨issues_of_holds hlater hhere hfirst, ih hrest⟩

theorem exists_holds_of_mem (hfits : ∀ placement ∈ placements, Fits base placement)
    (h : placeEach placements arena = (.ok ids, last)) (hmem : placement ∈ placements) :
    ∃ id, last.Holds placement id := by
  have hholds := placeEach_holds hfits h
  clear h hfits
  induction hholds with
  | nil => cases hmem
  | cons hfirst _ ih =>
    rcases List.mem_cons.mp hmem with rfl | hmem
    · exact ⟨_, hfirst⟩
    · exact ih hmem

theorem exists_unfolds_of_mem {depth : Nat} (hfits : ∀ placement ∈ placements, Fits base placement)
    (h : placeEach placements arena = (.ok ids, last))
    (hmem : .built dimensions element ∈ placements) (hle : depth ≤ dimensions) :
    ∃ inner, last.Unfolds inner depth element := by
  obtain ⟨id, hid⟩ := exists_holds_of_mem hfits h hmem
  exact Unfolds.exists_of_le hid hle

theorem exists_matches {last' : Arena} {ids' : List TypeIndex}
    (hfits : ∀ placement ∈ placements, Fits base placement)
    (hothers : ∀ placement ∈ others, Fits base placement)
    (hsub : ∀ placement ∈ placements, placement ∈ others)
    (h : placeEach placements base = (.ok ids, last))
    (h' : placeEach others base = (.ok ids', last')) (hid : last.Issues id) :
    ∃ other, Matches base last last' id other := by
  rcases issues_placeEach hfits h hid with
    hold | ⟨dimensions, element, depth, hmem, hle, hunfolds⟩
  · exact ⟨id, .inl ⟨hold, rfl⟩⟩
  · obtain ⟨other, hother⟩ := exists_unfolds_of_mem hothers h' (hsub _ hmem) hle
    exact ⟨other, .inr ⟨depth, element, hunfolds, hother⟩⟩

/-- Placing the same in another order leaves arenas that are alike. -/
theorem alike_of_mem_iff {last' : Arena} {ids' : List TypeIndex} (hvalid : base.Valid)
    (hclosed : base.IsClosed) (hfits : ∀ placement ∈ placements, Fits base placement)
    (hsame : ∀ placement, placement ∈ others ↔ placement ∈ placements)
    (h : placeEach placements base = (.ok ids, last))
    (h' : placeEach others base = (.ok ids', last')) : Alike base last last' := by
  have hothers : ∀ placement ∈ others, Fits base placement := fun placement hmem =>
    hfits placement ((hsame placement).mp hmem)
  exact ⟨hclosed, hvalid.placeEach h, hvalid.placeEach h',
    types_prefix_placeEach h, types_prefix_placeEach h',
    fun _ => exists_matches hfits hothers (fun placement => (hsame placement).mpr) h h',
    fun _ => exists_matches hothers hfits (fun placement => (hsame placement).mp) h' h⟩

namespace IsRenaming

variable {first second : Arena} {rename : TypeIndex → TypeIndex} {other : TypeIndex}
  {ids news : List TypeIndex}

theorem eq_of_holds (h : IsRenaming base first second rename) (hvalid : second.Valid)
    (hfits : Fits base placement) (hfirst : first.Holds placement id)
    (hsecond : second.Holds placement other) : other = rename id := by
  cases placement with
  | known known =>
    cases hfirst
    cases hsecond
    exact (h.fixes id hfits).symm
  | built dimensions element => exact Unfolds.injective hvalid hsecond (h.unfolds hfirst)

theorem eq_map_of_holds (h : IsRenaming base first second rename) (hvalid : second.Valid)
    (hfits : ∀ placement ∈ placements, Fits base placement)
    (hfirst : List.Forall₂ first.Holds placements ids)
    (hsecond : List.Forall₂ second.Holds placements news) : news = ids.map rename := by
  induction hfirst generalizing news with
  | nil =>
    cases hsecond
    rfl
  | cons hid _ ih =>
    obtain ⟨hhere, hrest⟩ := List.forall_mem_cons.mp hfits
    cases hsecond with
    | cons hnew hnews => rw [List.map_cons, ← h.eq_of_holds hvalid hhere hid hnew, ← ih hrest hnews]

theorem slotsOf_rename (h : IsRenaming base first second rename) (hid : first.Issues id) :
    second.slotsOf (rename id) = first.slotsOf id := by
  rw [slotsOf, slotsOf, h.get? id hid, Option.map_map]
  congr 2
  funext type
  simp

theorem slotsTogether_map (h : IsRenaming base first second rename)
    (hids : ∀ id ∈ ids, first.Issues id) :
    second.slotsTogether (ids.map rename) = first.slotsTogether ids := by
  induction ids with
  | nil => rfl
  | cons id rest ih =>
    obtain ⟨hid, hrest⟩ := List.forall_mem_cons.mp hids
    rw [List.map_cons, slotsTogether, slotsTogether, h.slotsOf_rename hid, ih hrest]

theorem map_eq_map_iff (h : IsRenaming base first second rename)
    (hids : ∀ id ∈ ids, first.Issues id) (hnews : ∀ id ∈ news, first.Issues id) :
    ids.map rename = news.map rename ↔ ids = news := by
  refine ⟨fun heq => ?_, congrArg _⟩
  induction ids generalizing news with
  | nil => exact (List.map_eq_nil_iff.mp heq.symm).symm
  | cons id rest ih =>
    obtain ⟨hid, hrest⟩ := List.forall_mem_cons.mp hids
    obtain ⟨new, others, rfl, hnew, hothers⟩ := List.map_eq_cons_iff.mp heq.symm
    obtain ⟨hissued, hlater⟩ := List.forall_mem_cons.mp hnews
    rw [h.bijective.injOn hid hissued hnew.symm, ih hrest hlater hothers.symm]

end IsRenaming

theorem isClosed_fresh : fresh.IsClosed := by
  intro id component hget
  have hmem := List.mem_of_getElem? hget
  simp [fresh] at hmem

theorem IsClosed.intern (hclosed : arena.IsClosed) (hadmits : arena.Admits element) :
    (arena.intern element).2.IsClosed := by
  intro id component hget
  have hgrown := types_prefix_intern arena element
  rcases get?_intern_cases hget with hold | ⟨rfl, -⟩
  · exact (hclosed id component hold).mono hgrown
  · obtain ⟨type, htype, -⟩ := hadmits
    exact Issues.mono hgrown ⟨type, htype⟩

end Arena

end MethodLinkage
