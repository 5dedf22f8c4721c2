import MethodLinkage.Classes.ClassPath

/-!
# What class paths answer

Looking a name up changes nothing but caches, and a cache holds a class only
under a name for which the paths below answered with it. So lookups leave every
answer as it was (`answer_find_after`). A class that is found bears the name
asked for, in caches too as long as they hold only such classes, which lookups
and insertions keep.
-/

namespace MethodLinkage

def FoundClass.AnswersFor (info : FoundClass) (name : Text) : Prop :=
  info.name = name ∧
    (info.origin = .memory ∨ (∃ directory, info.origin = .file (Place.classFile directory name)) ∨
      ∃ file, info.origin = .archive file (name ++ Place.classEnding))

def Place.origin? (name : Text) : Place → Option ClassOrigin
  | memory _ => some .memory
  | directory path => if IsBinaryName name then some (.file (classFile path name)) else none
  | archive file => some (.archive file (name ++ classEnding))
  | failing _ _ => none

theorem Place.origin?_of_find {files : FileTree} {name : Text} {place : Place} {info : FoundClass}
    (h : place.find files name = .ok info) :
    info.name = name ∧ place.origin? name = some info.origin := by
  cases place with
  | memory classes =>
    simp only [Place.find] at h
    split at h
    · cases h
      exact ⟨rfl, rfl⟩
    · cases h
  | directory path =>
    simp only [Place.find, findInDirectory] at h
    split at h
    · next hname =>
      split at h
      · cases h
        exact ⟨rfl, if_pos hname⟩
      all_goals cases h
    · cases h
  | archive file =>
    simp only [Place.find, findInArchive] at h
    split at h
    · cases h
    · cases h
    · split at h
      · cases h
      · cases h
      · cases h
        exact ⟨rfl, rfl⟩
  | failing error only =>
    cases only with
    | none => cases h
    | some names =>
      simp only [Place.find] at h
      split at h <;> cases h

theorem Place.find_answersFor {files : FileTree} {name : Text} {place : Place}
    {info : FoundClass} (h : place.find files name = .ok info) : info.AnswersFor name := by
  obtain ⟨hname, horigin⟩ := origin?_of_find h
  refine ⟨hname, ?_⟩
  cases place with
  | memory classes => exact .inl (Option.some.inj horigin).symm
  | directory path =>
    obtain ⟨-, hfile⟩ := Option.ite_none_right_eq_some.mp horigin
    exact .inr (.inl ⟨path, (Option.some.inj hfile).symm⟩)
  | archive file => exact .inr (.inr ⟨file, (Option.some.inj horigin).symm⟩)
  | failing error only => cases horigin

namespace ClassPath

variable {files : FileTree} {name other : Text} {path : ClassPath} {paths : List ClassPath}

theorem answer_findFirst_cons (files : FileTree) (name : Text) (path : ClassPath)
    (rest : List ClassPath) :
    (findFirst files name (path :: rest)).answer =
      match (find files name path).answer with
      | .error .notFound => (findFirst files name rest).answer
      | answer => answer := by
  rw [findFirst]
  split <;> simp_all

theorem lookup_remember_of_ne {cache : ClassCache} {answer : Except LookupError FoundClass}
    (h : name ≠ other) : (remember other cache answer).lookup name = cache.lookup name := by
  cases answer with
  | error cause => rfl
  | ok info => simp [remember, List.lookup_cons, beq_false_of_ne h]

mutual

theorem answer_find_after (files : FileTree) (name other : Text) :
    (path : ClassPath) →
      (find files name (find files other path).after).answer = (find files name path).answer
  | place p => by simp [find]
  | tagged tag path => by simpa [find] using answer_find_after files name other path
  | loader none paths => by simpa [find] using answer_findFirst_after files name other paths
  | loader (some cache) paths => by
    have hpaths := answer_findFirst_after files name other paths
    cases hother : cache.lookup other with
    | some info => simp [find, hother]
    | none =>
      by_cases hname : name = other
      · subst hname
        -- The answer just given is either kept, and given again, or was a failure and recurs.
        cases hanswer : (findFirst files name paths).answer with
        | ok info => simp [find, hother, hanswer, remember]
        | error cause => simp [find, hother, hanswer, remember, hpaths]
      · cases hcached : cache.lookup name with
        | some info => simp [find, hother, hcached, lookup_remember_of_ne hname]
        | none => simp [find, hother, hcached, lookup_remember_of_ne hname, hpaths]

theorem answer_findFirst_after (files : FileTree) (name other : Text) :
    (paths : List ClassPath) →
      (findFirst files name (findFirst files other paths).after).answer =
        (findFirst files name paths).answer
  | [] => rfl
  | path :: rest => by
    have hpath := answer_find_after files name other path
    have hrest := answer_findFirst_after files name other rest
    rw [answer_findFirst_cons files name path rest, ← hpath]
    rw [findFirst]
    split
    · rw [answer_findFirst_cons, hrest]
    · rw [answer_findFirst_cons]

end

/-- All caches are empty, as they are where a path is made. -/
inductive IsNew : ClassPath → Prop where
  | place (p : Place) : IsNew (place p)
  | tagged {tag : Text} {path : ClassPath} : IsNew path → IsNew (tagged tag path)
  | loader {cache : Option ClassCache} {paths : List ClassPath} :
      (∀ entries, cache = some entries → entries = []) → (∀ path ∈ paths, IsNew path) →
      IsNew (loader cache paths)

theorem IsNew.remembering (h : ∀ path ∈ paths, IsNew path) :
    IsNew (ClassPath.loader (some []) paths) :=
  .loader (fun _ hentries => (Option.some.inj hentries).symm) h

/-- Under each name, caches hold only classes that answer for it. -/
inductive IsFaithful : ClassPath → Prop where
  | place (p : Place) : IsFaithful (place p)
  | tagged {tag : Text} {path : ClassPath} : IsFaithful path → IsFaithful (tagged tag path)
  | loader {cache : Option ClassCache} {paths : List ClassPath} :
      (∀ entries, cache = some entries → ∀ entry ∈ entries, entry.2.AnswersFor entry.1) →
      (∀ path ∈ paths, IsFaithful path) → IsFaithful (loader cache paths)

theorem IsNew.isFaithful (h : IsNew path) : IsFaithful path := by
  induction h with
  | place p => exact .place p
  | tagged _ ih => exact .tagged ih
  | loader hcache _ ih =>
    refine .loader (fun entries hentries entry hentry => ?_) ih
    rw [hcache entries hentries] at hentry
    cases hentry

/-- Only places that are admitted stand in the tree, and caches hold under each name only what is
told of it. -/
inductive Keeps (admits : Place → Prop) (tells : Text → FoundClass → Prop) : ClassPath → Prop where
  | place {p : Place} : admits p → Keeps admits tells (place p)
  | tagged {tag : Text} {path : ClassPath} :
      Keeps admits tells path → Keeps admits tells (tagged tag path)
  | loader {cache : Option ClassCache} {paths : List ClassPath} :
      (∀ entries, cache = some entries → ∀ entry ∈ entries, tells entry.1 entry.2) →
      (∀ path ∈ paths, Keeps admits tells path) → Keeps admits tells (loader cache paths)

section

variable {admits : Place → Prop} {tells : Text → FoundClass → Prop}

theorem tells_of_lookup {cache : ClassCache} {info : FoundClass}
    (hcache : ∀ entry ∈ cache, tells entry.1 entry.2) (h : cache.lookup name = some info) :
    tells name info := by
  induction cache with
  | nil => cases h
  | cons entry rest ih =>
    rw [List.lookup_cons] at h
    split at h
    · next heq =>
      cases h
      rw [eq_of_beq heq]
      exact hcache entry List.mem_cons_self
    · exact ih (fun later hlater => hcache later (List.mem_cons_of_mem _ hlater)) h

theorem tells_remember {cache : ClassCache} {answer : Except LookupError FoundClass}
    (hcache : ∀ entry ∈ cache, tells entry.1 entry.2)
    (hanswer : ∀ info, answer = .ok info → tells name info) :
    ∀ entry ∈ remember name cache answer, tells entry.1 entry.2 := by
  cases answer with
  | error cause => exact hcache
  | ok info =>
    intro entry hentry
    rcases List.mem_cons.mp hentry with rfl | hentry
    · exact hanswer info rfl
    · exact hcache entry hentry

mutual

theorem Keeps.find (files : FileTree) (name : Text)
    (hplaces : ∀ place, admits place → ∀ info, place.find files name = .ok info →
      tells name info) : (path : ClassPath) → Keeps admits tells path →
      (∀ info, (find files name path).answer = .ok info → tells name info) ∧
        Keeps admits tells (find files name path).after
  | place p, .place h => ⟨hplaces p h, .place h⟩
  | tagged tag path, .tagged h => by
    obtain ⟨hanswer, hafter⟩ := Keeps.find files name hplaces path h
    exact ⟨hanswer, .tagged hafter⟩
  | loader none paths, .loader hcache h => by
    obtain ⟨hanswer, hafter⟩ := keeps_findFirst files name hplaces paths h
    exact ⟨hanswer, .loader (fun entries hentries => by cases hentries) hafter⟩
  | loader (some cache) paths, .loader hcache h => by
    obtain ⟨hanswer, hafter⟩ := keeps_findFirst files name hplaces paths h
    have hentries := hcache cache rfl
    rw [ClassPath.find]
    split
    · next info hinfo =>
      refine ⟨fun found hfound => ?_, .loader hcache h⟩
      cases hfound
      exact tells_of_lookup hentries hinfo
    · refine ⟨hanswer, .loader (fun entries heq => ?_) hafter⟩
      cases heq
      exact tells_remember hentries hanswer

theorem keeps_findFirst (files : FileTree) (name : Text)
    (hplaces : ∀ place, admits place → ∀ info, place.find files name = .ok info →
      tells name info) : (paths : List ClassPath) → (∀ path ∈ paths, Keeps admits tells path) →
      (∀ info, (findFirst files name paths).answer = .ok info → tells name info) ∧
        ∀ path ∈ (findFirst files name paths).after, Keeps admits tells path
  | [], _ => ⟨fun _ hinfo => (by cases hinfo), fun _ hpath => (by cases hpath)⟩
  | path :: rest, h => by
    obtain ⟨hpath, hrest⟩ := List.forall_mem_cons.mp h
    obtain ⟨hanswer, hafter⟩ := Keeps.find files name hplaces path hpath
    obtain ⟨hlater, hlaterAfter⟩ := keeps_findFirst files name hplaces rest hrest
    rw [findFirst]
    split
    · exact ⟨hlater, List.forall_mem_cons.mpr ⟨hafter, hlaterAfter⟩⟩
    · exact ⟨hanswer, List.forall_mem_cons.mpr ⟨hafter, hrest⟩⟩

end

end

theorem isFaithful_iff_keeps :
    IsFaithful path ↔ Keeps (fun _ => True) (fun name info => info.AnswersFor name) path := by
  constructor
  · intro h
    induction h with
    | place p => exact .place trivial
    | tagged _ ih => exact .tagged ih
    | loader hcache _ ih => exact .loader hcache ih
  · intro h
    induction h with
    | place => exact .place _
    | tagged _ ih => exact .tagged ih
    | loader hcache _ ih => exact .loader hcache ih

theorem IsFaithful.find (files : FileTree) (name : Text) (path : ClassPath) (h : IsFaithful path) :
    (∀ info, (find files name path).answer = .ok info → info.AnswersFor name) ∧
      IsFaithful (find files name path).after := by
  obtain ⟨hanswer, hafter⟩ := Keeps.find files name
    (fun place _ info hinfo => Place.find_answersFor hinfo) path (isFaithful_iff_keeps.mp h)
  exact ⟨hanswer, isFaithful_iff_keeps.mpr hafter⟩

theorem mem_insertAll (tag name : Text) :
    path ∈ insertAll tag name paths → ∃ before ∈ paths, path = insert tag name before := by
  induction paths with
  | nil =>
    intro h
    cases h
  | cons first rest ih =>
    intro h
    rcases List.mem_cons.mp h with rfl | h
    · exact ⟨first, List.mem_cons_self, rfl⟩
    · obtain ⟨before, hmem, rfl⟩ := ih h
      exact ⟨before, List.mem_cons_of_mem _ hmem, rfl⟩

theorem IsFaithful.insert (tag name : Text) (h : IsFaithful path) :
    IsFaithful (insert tag name path) := by
  induction h with
  | place p => exact .place p
  | @tagged other path hpath ih =>
    rw [ClassPath.insert.eq_def]
    split
    · exact .place _
    · exact .tagged (.place _)
    · next heq =>
      cases heq
      exact .tagged ih
    · next heq => cases heq
  | @loader cache paths hcache _ ih =>
    refine .loader hcache fun path hpath => ?_
    obtain ⟨before, hmem, rfl⟩ := mem_insertAll tag name hpath
    exact ih before hmem

end ClassPath
end MethodLinkage
