import MethodLinkage.Proofs.ParentFirstResolution

/-!
# Missing classes in directories

A class is missing from a directory where the way to its file ends at a name that is
not there, or at a directory. A lookup reports it as missing then, and only then. It
fails where a plain file, or a name that no file system takes, stands in the way, or
where the whole path cannot be walked; a loader that searches several paths then
stops instead of going on to the next.
-/

namespace MethodLinkage

theorem Text.exists_segments_append (a : Text) {b : Text} (hb : '/' ∉ b) :
    ∃ init last, segments a = init ++ [last] ∧ segments (a ++ b) = init ++ [last ++ b] := by
  induction a with
  | nil => exact ⟨[], [], segments_nil, List.splitOn_eq_singleton hb⟩
  | cons c rest ih =>
    obtain ⟨init, last, hrest, happend⟩ := ih
    simp only [segments] at hrest happend ⊢
    rw [List.cons_append, List.splitOn_cons_eq_if_modifyHead, List.splitOn_cons_eq_if_modifyHead,
      hrest, happend]
    split
    · exact ⟨[] :: init, last, rfl, rfl⟩
    · cases init with
      | nil => exact ⟨[], c :: last, rfl, rfl⟩
      | cons part init => exact ⟨(c :: part) :: init, last, rfl, rfl⟩

namespace Node

variable {here child : Node} {above : List Node} {name : Text} {names rest : List Text}
  {entries : List (Text × Node)} {cause : AccessError}

/-- A segment that names an entry, and not the directory that it stands in or the one above. -/
def IsPlain (segment : Text) : Prop := isHere segment = false ∧ isParent segment = false

/-- The way down the names can be gone, as far as there is one, and does not end at a file. -/
inductive Lacks : Node → List Text → Prop where
  | directory (entries : List (Text × Node)) : Lacks (.directory entries) []
  | absent {entries : List (Text × Node)} {name : Text} (rest : List Text) :
      canExist name = true → entries.lookup name = none → Lacks (.directory entries) (name :: rest)
  | inside {entries : List (Text × Node)} {name : Text} {child : Node} {rest : List Text} :
      canExist name = true → entries.lookup name = some child → Lacks child rest →
      Lacks (.directory entries) (name :: rest)

/-- What stands in the way down the names. -/
inductive Obstructs : Node → List Text → AccessError → Prop where
  | file (content : ByteArray) (name : Text) (rest : List Text) :
      Obstructs (.file content) (name :: rest) .notADirectory
  | tooLong (entries : List (Text × Node)) {name : Text} (rest : List Text) :
      canExist name = false → Obstructs (.directory entries) (name :: rest) .nameTooLong
  | inside {entries : List (Text × Node)} {name : Text} {child : Node} {rest : List Text}
      {cause : AccessError} : canExist name = true → entries.lookup name = some child →
      Obstructs child rest cause → Obstructs (.directory entries) (name :: rest) cause

def enter (above : List Node) : Node → Text → Except AccessError (List Node × Node)
  | file _, _ => .error .notADirectory
  | directory entries, segment =>
    if isHere segment then .ok (above, directory entries)
    else if isParent segment then .ok (above.tail, above.headD (directory entries))
    else if canExist segment then
      match entries.lookup segment with
      | none => .error .notFound
      | some child => .ok (directory entries :: above, child)
    else .error .nameTooLong

theorem walk_cons (above : List Node) (here : Node) (segment : Text) (rest : List Text) :
    walk above here (segment :: rest) =
      match enter above here segment with
      | .error cause => .error cause
      | .ok (above, here) => walk above here rest := by
  cases here with
  | file content => rfl
  | directory entries =>
    rw [walk.eq_def, enter]
    dsimp only
    cases isHere segment with
    | true => rfl
    | false =>
      cases isParent segment with
      | true => cases above <;> rfl
      | false =>
        cases canExist segment with
        | false => rfl
        | true => cases entries.lookup segment <;> rfl

theorem enter_of_isPlain (above : List Node) (entries : List (Text × Node)) (h : IsPlain name) :
    enter above (.directory entries) name =
      if canExist name then
        match entries.lookup name with
        | none => .error .notFound
        | some child => .ok (.directory entries :: above, child)
      else .error .nameTooLong := by
  simp [enter, h.1, h.2]

theorem exists_walk_append {last : Node} (h : walk above here (names ++ rest) = .ok last) :
    ∃ others middle, (∀ more, walk above here (names ++ more) = walk others middle more) ∧
      walk others middle rest = .ok last := by
  induction names generalizing above here with
  | nil => exact ⟨above, here, fun _ => rfl, h⟩
  | cons segment names ih =>
    rw [List.cons_append, walk_cons] at h
    simp only [List.cons_append, walk_cons]
    cases hentered : enter above here segment with
    | error cause =>
      rw [hentered] at h
      cases h
    | ok entered =>
      rw [hentered] at h
      exact ih h

theorem walk_of_lacks (above : List Node) (h : Lacks here names)
    (hplain : ∀ name ∈ names, IsPlain name) :
    walk above here names = .error .notFound ∨
      ∃ entries, walk above here names = .ok (.directory entries) := by
  induction h generalizing above with
  | directory entries => exact .inr ⟨entries, rfl⟩
  | absent rest hexists hlookup =>
    obtain ⟨hname, -⟩ := List.forall_mem_cons.mp hplain
    rw [walk_cons, enter_of_isPlain above _ hname, hexists, hlookup]
    exact .inl rfl
  | inside hexists hlookup _ ih =>
    obtain ⟨hname, hrest⟩ := List.forall_mem_cons.mp hplain
    rw [walk_cons, enter_of_isPlain above _ hname, hexists, hlookup]
    exact ih _ hrest

theorem walk_of_obstructs (h : Obstructs here names cause)
    (hplain : ∀ name ∈ names, IsPlain name) : walk above here names = .error cause := by
  induction h generalizing above with
  | file content name rest => rfl
  | tooLong entries rest hexists =>
    obtain ⟨hname, -⟩ := List.forall_mem_cons.mp hplain
    rw [walk_cons, enter_of_isPlain above entries hname, hexists]
    rfl
  | inside hexists hlookup _ ih =>
    obtain ⟨hname, hrest⟩ := List.forall_mem_cons.mp hplain
    rw [walk_cons, enter_of_isPlain above _ hname, hexists, hlookup]
    exact ih hrest

theorem Obstructs.ne_notFound (h : Obstructs here names cause) : cause ≠ .notFound := by
  induction h with
  | file | tooLong => decide
  | inside _ _ _ ih => exact ih

theorem lacks_or_obstructs (here : Node) (names : List Text)
    (h : ∀ content, at? names (some here) ≠ some (.file content)) :
    Lacks here names ∨ ∃ cause, Obstructs here names cause := by
  induction names generalizing here with
  | nil =>
    cases here with
    | file content => exact absurd rfl (h content)
    | directory entries => exact .inl (.directory entries)
  | cons name rest ih =>
    cases here with
    | file content => exact .inr ⟨_, .file content name rest⟩
    | directory entries =>
      cases hexists : canExist name with
      | false => exact .inr ⟨_, .tooLong entries rest hexists⟩
      | true =>
        cases hlookup : entries.lookup name with
        | none => exact .inl (.absent rest hexists hlookup)
        | some child =>
          rw [at?, hlookup] at h
          rcases ih child h with hlacks | ⟨cause, hobstructs⟩
          · exact .inl (.inside hexists hlookup hlacks)
          · exact .inr ⟨cause, .inside hexists hlookup hobstructs⟩

end Node

namespace Place

open FileTree (pathError? isAbsolute)

variable {files : FileTree} {directory name : Text} {entries : List (Text × Node)}

/-- The names below a directory that lead to the file of a class. -/
def namesOf (name : Text) : List Text := (name ++ classEnding).segments

theorem isPlain_of_isIdentifier {part : Text} (h : IsIdentifier part) : Node.IsPlain part := by
  obtain ⟨hne, hclean⟩ := h
  have hdot : part.head? ≠ some '.' := fun hhead =>
    (hclean '.' (List.mem_of_mem_head? hhead)).1 rfl
  constructor
  · simp only [Node.isHere, Bool.or_eq_false_iff, decide_eq_false_iff_not]
    refine ⟨hne, ?_⟩
    rintro rfl
    exact hdot rfl
  · simp only [Node.isParent, decide_eq_false_iff_not]
    rintro rfl
    exact hdot rfl

theorem isPlain_append_classEnding (part : Text) : Node.IsPlain (part ++ classEnding) := by
  have hlength : (part ++ classEnding).length = part.length + 6 := List.length_append
  constructor
  · simp only [Node.isHere, Bool.or_eq_false_iff, decide_eq_false_iff_not]
    refine ⟨fun h => ?_, fun h => ?_⟩
    all_goals simp [h] at hlength
  · simp only [Node.isParent, decide_eq_false_iff_not]
    intro h
    simp [h] at hlength

theorem isPlain_of_mem_namesOf (h : IsBinaryName name) :
    ∀ part ∈ namesOf name, Node.IsPlain part := by
  obtain ⟨init, last, hname, happend⟩ :=
    Text.exists_segments_append name (show '/' ∉ classEnding by decide)
  rw [namesOf, happend, List.forall_mem_append]
  rw [IsBinaryName, hname, List.forall_mem_append] at h
  refine ⟨fun part hpart => isPlain_of_isIdentifier (h.1 part hpart), ?_⟩
  rw [List.forall_mem_singleton]
  exact isPlain_append_classEnding last

theorem head?_of_isBinaryName (h : IsBinaryName name) : name.head? ≠ some '/' ∧ name ≠ [] := by
  cases name with
  | nil => exact absurd rfl (h [] (by simp [Text.segments_nil])).1
  | cons c rest =>
    refine ⟨?_, List.cons_ne_nil c rest⟩
    intro hslash
    cases hslash
    exact absurd rfl (h [] (by simp [Text.segments, List.splitOn_cons_eq_if_modifyHead])).1

theorem segments_classFile (directory name : Text) :
    ∃ names rest, directory.segments = names ++ rest ∧ (rest = [] ∨ rest = [[]]) ∧
      (classFile directory name).segments = names ++ namesOf name := by
  rw [classFile, namesOf]
  split
  · next hbase =>
    rcases hbase with rfl | hlast
    · exact ⟨[], [[]], Text.segments_nil, .inr rfl, rfl⟩
    · obtain ⟨front, hfront⟩ := List.getLast?_eq_some_iff.mp hlast
      refine ⟨Text.segments front, [[]], ?_, .inr rfl, ?_⟩
      · rw [hfront, Text.segments_append_slash, Text.segments_nil]
      · simp [hfront, Text.segments_append_slash]
  · refine ⟨directory.segments, [], by simp, .inl rfl, ?_⟩
    simp [Text.segments_append_slash]

theorem isAbsolute_classFile (directory : Text) (h : IsBinaryName name) :
    isAbsolute (classFile directory name) = isAbsolute directory := by
  obtain ⟨hslash, hne⟩ := head?_of_isBinaryName h
  obtain ⟨c, rest, rfl⟩ := List.exists_cons_of_ne_nil hne
  cases directory with
  | nil => simpa [isAbsolute, classFile] using hslash
  | cons d more =>
    rw [classFile]
    split <;> rfl

theorem pathError?_of_locate {path : Text} {node : Node} (h : files.locate path = .ok node) :
    pathError? path = none := by
  rw [FileTree.locate] at h
  split at h
  · cases h
  · assumption

theorem locate_of_walkable {path : Text} (h : pathError? path = none) :
    files.locate path = files.root.walk [] (files.route path) := by
  rw [FileTree.locate, h]

theorem exists_walk_classFile (hdirectory : files.locate directory = .ok (.directory entries))
    (hname : IsBinaryName name) (hpath : pathError? (classFile directory name) = none) :
    ∃ above, files.locate (classFile directory name) =
      Node.walk above (.directory entries) (namesOf name) := by
  obtain ⟨names, rest, hsegments, hrest, hfile⟩ := segments_classFile directory name
  rw [locate_of_walkable (pathError?_of_locate hdirectory), FileTree.route, hsegments,
    ← List.append_assoc] at hdirectory
  obtain ⟨above, middle, hmore, hlast⟩ := Node.exists_walk_append hdirectory
  have hmiddle : middle = .directory entries := by
    rcases hrest with rfl | rfl
    · exact Except.ok.inj hlast
    · cases middle with
      | file content => cases hlast
      | directory others => exact Except.ok.inj hlast
  refine ⟨above, ?_⟩
  rw [locate_of_walkable hpath, FileTree.route, isAbsolute_classFile directory hname, hfile,
    ← List.append_assoc, hmore, hmiddle]

-- `d` is below the root and not below the working directory, which is below the root as well
example :
    let files := FileTree.empty.write "/d/p/A.class".toList ⟨#[]⟩
    findInDirectory files "/d".toList "p/A".toList =
        .ok ⟨"p/A".toList, .file "/d/p/A.class".toList⟩ ∧
      findInDirectory files "../d/".toList "p/A".toList =
        .ok ⟨"p/A".toList, .file "../d/p/A.class".toList⟩ ∧
      findInDirectory files "d".toList "p/A".toList = .error .notFound := by
  decide

/-- The whole path can be walked, and it leads to no file. -/
def IsAbsent (directory : Text) (entries : List (Text × Node)) (name : Text) : Prop :=
  pathError? (classFile directory name) = none ∧ (Node.directory entries).Lacks (namesOf name)

/-- The whole path cannot be walked, or something stands in the way below the directory. -/
def IsBlocked (directory : Text) (entries : List (Text × Node)) (name : Text)
    (cause : AccessError) : Prop :=
  pathError? (classFile directory name) = some cause ∨
    (pathError? (classFile directory name) = none ∧
      (Node.directory entries).Obstructs (namesOf name) cause)

theorem pathError?_ne_notFound (path : Text) : pathError? path ≠ some .notFound := by
  unfold pathError?
  split
  · decide
  · split <;> decide

theorem isAbsent_or_isBlocked (directory : Text)
    (h : ∀ content, Node.at? (namesOf name) (some (.directory entries)) ≠ some (.file content)) :
    IsAbsent directory entries name ∨ ∃ cause, IsBlocked directory entries name cause := by
  cases hpath : pathError? (classFile directory name) with
  | some cause => exact .inr ⟨cause, .inl hpath⟩
  | none =>
    rcases Node.lacks_or_obstructs (.directory entries) (namesOf name) h with hlacks | ⟨cause, hway⟩
    · exact .inl ⟨hpath, hlacks⟩
    · exact .inr ⟨cause, .inr ⟨hpath, hway⟩⟩

theorem findInDirectory_of_isAbsent
    (hdirectory : files.locate directory = .ok (.directory entries)) (hname : IsBinaryName name)
    (h : IsAbsent directory entries name) :
    findInDirectory files directory name = .error .notFound := by
  obtain ⟨above, hlocate⟩ := exists_walk_classFile hdirectory hname h.1
  rw [findInDirectory, if_pos hname, hlocate]
  rcases Node.walk_of_lacks above h.2 (isPlain_of_mem_namesOf hname) with
    hwalk | ⟨others, hwalk⟩ <;> rw [hwalk]

theorem findInDirectory_of_isBlocked {cause : AccessError}
    (hdirectory : files.locate directory = .ok (.directory entries)) (hname : IsBinaryName name)
    (h : IsBlocked directory entries name cause) :
    findInDirectory files directory name = .error (.unreadable cause none) := by
  have hlocate : files.locate (classFile directory name) = .error cause := by
    rcases h with hpath | ⟨hpath, hway⟩
    · rw [FileTree.locate, hpath]
    · obtain ⟨above, hlocate⟩ := exists_walk_classFile hdirectory hname hpath
      rw [hlocate]
      exact Node.walk_of_obstructs hway (isPlain_of_mem_namesOf hname)
  have hcause : cause ≠ .notFound := by
    rcases h with hpath | ⟨-, hway⟩
    · rintro rfl
      exact pathError?_ne_notFound _ hpath
    · exact hway.ne_notFound
  rw [findInDirectory, if_pos hname, hlocate]
  cases cause with
  | notFound => exact absurd rfl hcause
  | notADirectory | isADirectory | nameTooLong | nullInPath | unexpectedEnd | placeOutOfReach
  | unspecified => rfl

end Place

namespace LoaderSystem

variable {system : LoaderSystem} {id : LoaderIndex} {name directory : Text}

def SearchesDirectory (system : LoaderSystem) (id : LoaderIndex) (directory : Text) : Prop :=
  ∃ loader, system.loader? id = some loader ∧ loader.path = .place (.directory directory)

theorem SearchesDirectory.answer? (h : system.SearchesDirectory id directory) (name : Text) :
    system.answer? id name = some (Place.findInDirectory system.files directory name) := by
  obtain ⟨loader, hloader, hpath⟩ := h
  rw [LoaderSystem.answer?, hloader, Option.map_some, hpath]
  rfl

theorem answer_search_of_missing (h : system.answer? id name = some (.error .notFound))
    (below : List LoaderIndex) :
    (system.search name (id :: below)).1 = (system.search name below).1 := by
  rw [(search_spec system name (id :: below)).1, (search_spec system name below).1, verdict, h]

end LoaderSystem

namespace ClassPath

variable {files : FileTree} {name : Text} {place : Place} {cause : LookupError}

theorem findFirst_of_missing (h : place.find files name = .error .notFound)
    (later : List ClassPath) :
    (findFirst files name (.place place :: later)).answer =
      (findFirst files name later).answer := by
  rw [answer_findFirst_cons, find, h]

theorem findFirst_of_failure (h : place.find files name = .error cause)
    (hcause : cause ≠ .notFound) (later : List ClassPath) :
    (findFirst files name (.place place :: later)).answer = .error cause := by
  rw [answer_findFirst_cons, find, h]
  cases cause with
  | notFound => exact absurd rfl hcause
  | unreadable | other => rfl

end ClassPath

namespace Place

open FileTree (pathError?)

variable {files : FileTree} {directory name : Text} {entries : List (Text × Node)}

/-- A class that a directory does not have is reported as missing exactly if the whole path can
be walked and nothing stands in the way. Loaders then go on to their next path, and the search
to the next loader; otherwise both fail with what stands in the way. -/
theorem missing_class_reported_iff_absent
    (hdirectory : files.locate directory = .ok (.directory entries)) (hname : IsBinaryName name)
    (hnone : ∀ content,
      Node.at? (namesOf name) (some (.directory entries)) ≠ some (.file content)) :
    (findInDirectory files directory name = .error .notFound ↔
      IsAbsent directory entries name) ∧
    (IsAbsent directory entries name →
      (∀ later, (ClassPath.findFirst files name (.place (.directory directory) :: later)).answer =
        (ClassPath.findFirst files name later).answer) ∧
      ∀ (system : LoaderSystem) (id : LoaderIndex) (below : List LoaderIndex),
        system.files = files → system.SearchesDirectory id directory →
        (system.search name (id :: below)).1 = (system.search name below).1) ∧
    (¬ IsAbsent directory entries name → ∃ cause, IsBlocked directory entries name cause ∧
      (∀ later, (ClassPath.findFirst files name (.place (.directory directory) :: later)).answer =
        .error (.unreadable cause none)) ∧
      ∀ (system : LoaderSystem) (id : LoaderIndex) (below : List LoaderIndex),
        system.files = files → system.SearchesDirectory id directory →
        (system.search name (id :: below)).1 =
          .error (.classPath name id (.unreadable cause none))) := by
  have hcases := isAbsent_or_isBlocked directory hnone
  refine ⟨⟨fun hmissing => ?_, findInDirectory_of_isAbsent hdirectory hname⟩, fun habsent => ?_,
    fun hnot => ?_⟩
  · rcases hcases with habsent | ⟨cause, hblocked⟩
    · exact habsent
    · rw [findInDirectory_of_isBlocked hdirectory hname hblocked] at hmissing
      cases hmissing
  · have hfind := findInDirectory_of_isAbsent hdirectory hname habsent
    refine ⟨ClassPath.findFirst_of_missing hfind, fun system id below hfiles hsearches => ?_⟩
    subst hfiles
    have hanswer := hsearches.answer? name
    rw [hfind] at hanswer
    exact LoaderSystem.answer_search_of_missing hanswer below
  · obtain ⟨cause, hblocked⟩ := hcases.resolve_left hnot
    have hfind := findInDirectory_of_isBlocked hdirectory hname hblocked
    refine ⟨cause, hblocked, ClassPath.findFirst_of_failure hfind nofun,
      fun system id below hfiles hsearches => ?_⟩
    subst hfiles
    have hanswer := hsearches.answer? name
    rw [hfind] at hanswer
    have hcause : LookupError.unreadable cause none ≠ .notFound := nofun
    have hsearch := LoaderSystem.search_of_failure hcause (List.forall_mem_nil _) hanswer below
    exact congrArg Prod.fst hsearch

def besideAFile : FileTree := FileTree.empty.write ['d', '/', 'p'] ⟨#[]⟩

theorem class_behind_directory_is_found :
    findInDirectory besideAFile ['d'] ['q', '/', 'C'] = .error .notFound ∧
      (ClassPath.findFirst besideAFile ['q', '/', 'C'] [.place (.directory ['d']),
        .place (.memory [['q', '/', 'C']])]).answer = .ok ⟨['q', '/', 'C'], .memory⟩ := by
  have hnone : ∀ content, Node.at? (namesOf ['q', '/', 'C'])
      (some (.directory [(['p'], .file ⟨#[]⟩)])) ≠ some (.file content) := nofun
  have habsent : IsAbsent ['d'] [(['p'], .file ⟨#[]⟩)] ['q', '/', 'C'] :=
    ⟨by decide, .absent _ (by decide) rfl⟩
  have hdirectory : besideAFile.locate ['d'] = .ok (.directory [(['p'], .file ⟨#[]⟩)]) := rfl
  obtain ⟨hreported, hgoes, -⟩ :=
    missing_class_reported_iff_absent hdirectory (by decide) hnone
  exact ⟨hreported.mpr habsent, ((hgoes habsent).1 _).trans rfl⟩

/-- The file is in the way of a class `p/C`, which has no file. The lookup fails, a loader does not
go on to where the class is, and a method that mentions the class cannot be linked. -/
theorem file_blocks_its_package :
    let workspace := ((Workspace.start besideAFile (.place (.directory ['d']))).run
      [.intern (.loadedClass ['q'] .bootstrap)]).2
    let className : ClassName := ⟨['p', '/', 'C'], by decide⟩
    besideAFile.locate ['d'] = .ok (.directory [(['p'], .file ⟨#[]⟩)]) ∧
      (∀ content, Node.at? (namesOf className.text)
        (some (.directory [(['p'], .file ⟨#[]⟩)])) ≠ some (.file content)) ∧
      findInDirectory besideAFile ['d'] className.text =
        .error (.unreadable .notADirectory none) ∧
      (ClassPath.findFirst besideAFile className.text [.place (.directory ['d']),
        .place (.memory [className.text])]).answer = .error (.unreadable .notADirectory none) ∧
      (Signature.build ⟨⟨9⟩, []⟩ ⟨[⟨0, .object className, by decide⟩], .void⟩
        workspace.session.arena workspace.system).answer =
          .error (.error (.classPath className.text .bootstrap
            (.unreadable .notADirectory none))) :=
  ⟨rfl, nofun, rfl, rfl, rfl⟩

end Place
end MethodLinkage
