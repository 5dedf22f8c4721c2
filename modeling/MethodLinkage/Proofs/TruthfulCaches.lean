import MethodLinkage.Proofs.CacheHistories
import Mathlib.Data.List.Forall2

/-!
# Truthful caches

A tree of class paths without caches answers as its places do when they are asked from left to
right. A cache is truthful if it tells what the places below would tell. Lookups keep caches
truthful. So do insertions where no place reads files: a class that is found in memory stays there,
and what failed or was missing is not kept.
-/

namespace MethodLinkage

namespace Place

variable {place grown : Place} {places grownPlaces : List Place} {files files' : FileTree}
  {name : Text} {info : FoundClass}

/-- The answers change only as classes are inserted. -/
def IsFileless : Place → Prop
  | memory _ | failing _ _ => True
  | directory _ | archive _ => False

theorem IsFileless.find_eq (h : place.IsFileless) (files files' : FileTree) (name : Text) :
    place.find files' name = place.find files name := by
  cases place with
  | memory => rfl
  | failing _ only => cases only <;> rfl
  | directory | archive => cases h

theorem IsFileless.eq_of_find (h : place.IsFileless) (hfound : place.find files name = .ok info) :
    info = ⟨name, .memory⟩ := by
  cases place with
  | memory classes =>
    simp only [find] at hfound
    split at hfound <;> cases hfound
    rfl
  | failing error only =>
    cases only with
    | none => cases hfound
    | some names =>
      simp only [find] at hfound
      split at hfound <;> cases hfound
  | directory | archive => cases h

/-- The second place is the first, perhaps with one more class in memory. -/
inductive Grows : Place → Place → Prop where
  | same (place : Place) : Grows place place
  | inserted (classes : List Text) (name : Text) : Grows (memory classes) (memory (name :: classes))

theorem Grows.isFileless (h : Grows place grown) (hfileless : place.IsFileless) :
    grown.IsFileless := by
  cases h with
  | same => exact hfileless
  | inserted => trivial

theorem Grows.find_eq_or (h : Grows place grown) (hfileless : place.IsFileless)
    (files files' : FileTree) (name : Text) :
    grown.find files' name = place.find files name ∨
      grown.find files' name = .ok ⟨name, .memory⟩ := by
  cases h with
  | same => exact .inl (hfileless.find_eq files files' name)
  | inserted classes added =>
    simp only [find, List.mem_cons]
    by_cases hadded : name = added
    · exact .inr (if_pos (.inl hadded))
    · simp [hadded]

/-- What places asked in turn answer: the first of them that has another answer than "not found"
decides. -/
def firstAnswer (files : FileTree) (name : Text) : List Place → Except LookupError FoundClass
  | [] => .error .notFound
  | place :: rest =>
    match place.find files name with
    | .error .notFound => firstAnswer files name rest
    | answer => answer

theorem firstAnswer_append (files : FileTree) (name : Text) (earlier later : List Place) :
    firstAnswer files name (earlier ++ later) =
      match firstAnswer files name earlier with
      | .error .notFound => firstAnswer files name later
      | answer => answer := by
  induction earlier with
  | nil => rfl
  | cons place rest ih =>
    rw [List.cons_append, firstAnswer, firstAnswer]
    cases place.find files name with
    | ok info => rfl
    | error cause => cases cause <;> first | exact ih | rfl

theorem eq_of_firstAnswer (h : ∀ place ∈ places, place.IsFileless)
    (hfound : firstAnswer files name places = .ok info) : info = ⟨name, .memory⟩ := by
  induction places with
  | nil => cases hfound
  | cons place rest ih =>
    obtain ⟨hplace, hrest⟩ := List.forall_mem_cons.mp h
    rw [firstAnswer] at hfound
    split at hfound
    · exact ih hrest hfound
    · exact hplace.eq_of_find hfound

theorem firstAnswer_eq_or (hgrown : List.Forall₂ Grows places grownPlaces)
    (h : ∀ place ∈ places, place.IsFileless) (files files' : FileTree) (name : Text) :
    firstAnswer files' name grownPlaces = firstAnswer files name places ∨
      firstAnswer files' name grownPlaces = .ok ⟨name, .memory⟩ := by
  induction hgrown with
  | nil => exact .inl rfl
  | @cons place grown rest grownRest hfirst hlater ih =>
    obtain ⟨hplace, hrest⟩ := List.forall_mem_cons.mp h
    rw [firstAnswer, firstAnswer]
    rcases hfirst.find_eq_or hplace files files' name with hsame | hmore
    · rw [hsame]
      split
      · exact ih hrest
      · exact .inl rfl
    · exact .inr (by rw [hmore])

theorem firstAnswer_of_grows (hgrown : List.Forall₂ Grows places grownPlaces)
    (h : ∀ place ∈ places, place.IsFileless) (files' : FileTree)
    (hfound : firstAnswer files name places = .ok info) :
    firstAnswer files' name grownPlaces = .ok info := by
  rcases firstAnswer_eq_or hgrown h files files' name with hsame | hmore
  · rw [hsame, hfound]
  · rw [hmore, eq_of_firstAnswer h hfound]

end Place

namespace ClassPath

variable {files : FileTree} {name : Text} {path : ClassPath} {paths : List ClassPath}

def withoutCaches : ClassPath → ClassPath := mapCaches fun _ => none

def allWithoutCaches : List ClassPath → List ClassPath := mapAllCaches fun _ => none

theorem withoutCaches_tagged (tag : Text) (path : ClassPath) :
    withoutCaches (tagged tag path) = tagged tag (withoutCaches path) := rfl

theorem withoutCaches_loader (cache : Option ClassCache) (paths : List ClassPath) :
    withoutCaches (loader cache paths) = loader none (allWithoutCaches paths) := by
  cases cache <;> rfl

theorem allWithoutCaches_cons (path : ClassPath) (rest : List ClassPath) :
    allWithoutCaches (path :: rest) = withoutCaches path :: allWithoutCaches rest := rfl

theorem allWithoutCaches_eq (paths : List ClassPath) :
    allWithoutCaches paths = paths.map withoutCaches := by
  induction paths with
  | nil => rfl
  | cons path rest ih => rw [allWithoutCaches_cons, ih, List.map_cons]

mutual

theorem withoutCaches_withoutCaches : (path : ClassPath) →
    withoutCaches (withoutCaches path) = withoutCaches path
  | place p => rfl
  | tagged tag path => congrArg (tagged tag) (withoutCaches_withoutCaches path)
  | loader cache paths => by
    rw [withoutCaches_loader, withoutCaches_loader, allWithoutCaches_allWithoutCaches paths]

theorem allWithoutCaches_allWithoutCaches : (paths : List ClassPath) →
    allWithoutCaches (allWithoutCaches paths) = allWithoutCaches paths
  | [] => rfl
  | path :: rest => by
    rw [allWithoutCaches_cons, allWithoutCaches_cons, withoutCaches_withoutCaches path,
      allWithoutCaches_allWithoutCaches rest]

end

theorem withoutCaches_insert (tag name : Text) (path : ClassPath) :
    withoutCaches (insert tag name path) = insert tag name (withoutCaches path) :=
  mapCaches_insert _ tag name path

mutual

theorem withoutCaches_find (files : FileTree) (name : Text) : (path : ClassPath) →
    withoutCaches (find files name path).after = withoutCaches path
  | place p => rfl
  | tagged tag path => by
    rw [find, withoutCaches_tagged, withoutCaches_tagged, withoutCaches_find files name path]
  | loader none paths => by
    rw [find_uncached, Search.map, withoutCaches_loader, withoutCaches_loader,
      allWithoutCaches_findFirst files name paths]
  | loader (some cache) paths => by
    cases hcached : cache.lookup name with
    | some info => rw [find_of_cached hcached]
    | none =>
      rw [find_of_not_cached hcached, Search.map, withoutCaches_loader, withoutCaches_loader,
        allWithoutCaches_findFirst files name paths]

theorem allWithoutCaches_findFirst (files : FileTree) (name : Text) : (paths : List ClassPath) →
    allWithoutCaches (findFirst files name paths).after = allWithoutCaches paths
  | [] => rfl
  | path :: rest => by
    have hpath := withoutCaches_find files name path
    have hrest := allWithoutCaches_findFirst files name rest
    rw [findFirst]
    split <;> simp only [allWithoutCaches_cons, hpath, hrest]

end

mutual

def leaves : ClassPath → List Place
  | place p => [p]
  | tagged _ path => leaves path
  | loader _ paths => allLeaves paths

def allLeaves : List ClassPath → List Place
  | [] => []
  | path :: rest => leaves path ++ allLeaves rest

end

theorem leaves_subset (h : path ∈ paths) : leaves path ⊆ allLeaves paths := by
  induction paths with
  | nil => cases h
  | cons first rest ih =>
    rcases List.mem_cons.mp h with rfl | h
    · exact List.subset_append_left _ _
    · exact List.Subset.trans (ih h) (List.subset_append_right _ _)

mutual

theorem leaves_withoutCaches : (path : ClassPath) → leaves (withoutCaches path) = leaves path
  | place p => rfl
  | tagged tag path => leaves_withoutCaches path
  | loader cache paths => by
    rw [withoutCaches_loader]
    exact allLeaves_withoutCaches paths

theorem allLeaves_withoutCaches : (paths : List ClassPath) →
    allLeaves (allWithoutCaches paths) = allLeaves paths
  | [] => rfl
  | path :: rest => by
    rw [allWithoutCaches_cons, allLeaves, allLeaves, leaves_withoutCaches path,
      allLeaves_withoutCaches rest]

end

theorem leaves_find (files : FileTree) (name : Text) (path : ClassPath) :
    leaves (find files name path).after = leaves path := by
  rw [← leaves_withoutCaches, withoutCaches_find, leaves_withoutCaches]

theorem allLeaves_findFirst (files : FileTree) (name : Text) (paths : List ClassPath) :
    allLeaves (findFirst files name paths).after = allLeaves paths := by
  rw [← allLeaves_withoutCaches, allWithoutCaches_findFirst, allLeaves_withoutCaches]

mutual

theorem leaves_insert (tag name : Text) : (path : ClassPath) →
    List.Forall₂ Place.Grows (leaves path) (leaves (insert tag name path))
  | place p => .cons (.same p) .nil
  | tagged other (place p) => by
    cases p with
    | memory classes =>
      rw [insert]
      split
      · exact .cons (.inserted classes name) .nil
      · exact .cons (.same _) .nil
    | directory | archive | failing => exact .cons (.same _) .nil
  | tagged other (tagged inner path) => leaves_insert tag name (tagged inner path)
  | tagged other (loader cache paths) => leaves_insert tag name (loader cache paths)
  | loader cache paths => by
    rw [insert]
    exact allLeaves_insertAll tag name paths

theorem allLeaves_insertAll (tag name : Text) : (paths : List ClassPath) →
    List.Forall₂ Place.Grows (allLeaves paths) (allLeaves (insertAll tag name paths))
  | [] => .nil
  | path :: rest =>
    List.rel_append (leaves_insert tag name path) (allLeaves_insertAll tag name rest)

end

def IsFileless (path : ClassPath) : Prop := ∀ place ∈ path.leaves, place.IsFileless

theorem IsFileless.withoutCaches (h : path.IsFileless) : path.withoutCaches.IsFileless := by
  rw [IsFileless, leaves_withoutCaches]
  exact h

/-- Caches hold only what the paths below would answer now. -/
inductive IsTruthful (files : FileTree) : ClassPath → Prop where
  | place (p : Place) : IsTruthful files (place p)
  | tagged {tag : Text} {path : ClassPath} :
      IsTruthful files path → IsTruthful files (tagged tag path)
  | loader {cache : Option ClassCache} {paths : List ClassPath} :
      (∀ entries, cache = some entries → ∀ name info, entries.lookup name = some info →
        Place.firstAnswer files name (allLeaves paths) = .ok info) →
      (∀ path ∈ paths, IsTruthful files path) → IsTruthful files (loader cache paths)

theorem IsNew.isTruthful (h : path.IsNew) (files : FileTree) : path.IsTruthful files := by
  induction h with
  | place p => exact .place p
  | tagged _ ih => exact .tagged ih
  | loader hcache _ ih =>
    refine .loader (fun entries hentries name info hlookup => ?_) ih
    rw [hcache entries hentries] at hlookup
    cases hlookup

theorem IsNew.withoutCaches (h : path.IsNew) : path.withoutCaches.IsNew := by
  induction h with
  | place p => exact .place p
  | tagged _ ih => exact .tagged ih
  | @loader cache paths _ _ ih =>
    rw [withoutCaches_loader, allWithoutCaches_eq]
    exact .loader (fun entries hentries => nomatch hentries) (List.forall_mem_map.mpr ih)

mutual

theorem IsTruthful.find (files : FileTree) (name : Text) : (path : ClassPath) →
    IsTruthful files path →
      (find files name path).answer = Place.firstAnswer files name (leaves path) ∧
      IsTruthful files (find files name path).after
  | place p, h => by
    refine ⟨?_, h⟩
    rw [leaves, Place.firstAnswer, Place.firstAnswer, ClassPath.find]
    cases p.find files name with
    | ok info => rfl
    | error cause => cases cause <;> rfl
  | tagged tag path, .tagged h => by
    obtain ⟨hanswer, hafter⟩ := IsTruthful.find files name path h
    exact ⟨hanswer, .tagged hafter⟩
  | loader none paths, .loader _ h => by
    obtain ⟨hanswer, hafter⟩ := isTruthful_findFirst files name paths h
    rw [find_uncached]
    exact ⟨hanswer, .loader (fun _ hentries => nomatch hentries) hafter⟩
  | loader (some cache) paths, .loader hcache h => by
    obtain ⟨hanswer, hafter⟩ := isTruthful_findFirst files name paths h
    cases hcached : cache.lookup name with
    | some info =>
      rw [find_of_cached hcached]
      exact ⟨(hcache cache rfl name info hcached).symm, .loader hcache h⟩
    | none =>
      rw [find_of_not_cached hcached]
      refine ⟨hanswer, .loader (fun entries hentries asked info hlookup => ?_) hafter⟩
      cases hentries
      rw [allLeaves_findFirst]
      by_cases hasked : asked = name
      · subst hasked
        rw [← hanswer]
        cases hfound : (findFirst files asked paths).answer with
        | error cause =>
          rw [hfound, remember, hcached] at hlookup
          cases hlookup
        | ok found =>
          rw [hfound, remember, List.lookup_cons_self] at hlookup
          rw [Option.some.inj hlookup]
      · rw [lookup_remember_of_ne hasked] at hlookup
        exact hcache cache rfl asked info hlookup

theorem isTruthful_findFirst (files : FileTree) (name : Text) : (paths : List ClassPath) →
    (∀ path ∈ paths, IsTruthful files path) →
      (findFirst files name paths).answer = Place.firstAnswer files name (allLeaves paths) ∧
      ∀ path ∈ (findFirst files name paths).after, IsTruthful files path
  | [], h => ⟨rfl, h⟩
  | path :: rest, h => by
    obtain ⟨hpath, hrest⟩ := List.forall_mem_cons.mp h
    obtain ⟨hanswer, hafter⟩ := IsTruthful.find files name path hpath
    obtain ⟨hlater, hlaterAfter⟩ := isTruthful_findFirst files name rest hrest
    constructor
    · rw [answer_findFirst_cons, hanswer, hlater, allLeaves]
      refine Eq.trans ?_ (Place.firstAnswer_append files name path.leaves (allLeaves rest)).symm
      rcases Place.firstAnswer files name path.leaves with (_ | _ | _) | info <;> rfl
    · rw [findFirst]
      split
      · exact List.forall_mem_cons.mpr ⟨hafter, hlaterAfter⟩
      · exact List.forall_mem_cons.mpr ⟨hafter, hrest⟩

end

theorem IsFileless.insert (h : path.IsFileless) (tag name : Text) :
    (insert tag name path).IsFileless := by
  have hgrown := leaves_insert tag name path
  unfold IsFileless at h ⊢
  generalize path.leaves = before at h hgrown
  generalize (ClassPath.insert tag name path).leaves = after at hgrown ⊢
  induction hgrown with
  | nil => exact h
  | cons hfirst _ ih =>
    obtain ⟨hplace, hrest⟩ := List.forall_mem_cons.mp h
    exact List.forall_mem_cons.mpr ⟨hfirst.isFileless hplace, ih hrest⟩

theorem IsTruthful.insert (h : path.IsTruthful files) (hfileless : path.IsFileless)
    (files' : FileTree) (tag name : Text) : (insert tag name path).IsTruthful files' := by
  induction h with
  | place p => exact .place p
  | @tagged other path _ ih =>
    rw [ClassPath.insert.eq_def]
    split
    · exact .place _
    · exact .tagged (.place _)
    · next heq =>
      cases heq
      exact .tagged (ih hfileless)
    · next heq => cases heq
  | @loader cache paths hcache _ ih =>
    refine .loader (fun entries hentries asked info hlookup => ?_) fun path hpath => ?_
    · have hfound := hcache entries hentries asked info hlookup
      exact Place.firstAnswer_of_grows (allLeaves_insertAll tag name paths) hfileless files' hfound
    · obtain ⟨before, hmem, rfl⟩ := mem_insertAll tag name hpath
      exact ih before hmem fun place hplace => hfileless place (leaves_subset hmem hplace)

theorem IsTruthful.setFiles (h : path.IsTruthful files) (hfileless : path.IsFileless)
    (files' : FileTree) : path.IsTruthful files' := by
  induction h with
  | place p => exact .place p
  | tagged _ ih => exact .tagged (ih hfileless)
  | @loader cache paths hcache _ ih =>
    refine .loader (fun entries hentries asked info hlookup => ?_) fun path hpath =>
      ih path hpath fun place hplace => hfileless place (leaves_subset hpath hplace)
    have hsame : List.Forall₂ Place.Grows (allLeaves paths) (allLeaves paths) :=
      List.forall₂_same.mpr fun place _ => .same place
    exact Place.firstAnswer_of_grows hsame hfileless files' (hcache entries hentries asked info hlookup)

end ClassPath
end MethodLinkage
