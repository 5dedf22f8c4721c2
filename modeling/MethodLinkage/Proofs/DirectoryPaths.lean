import MethodLinkage.Proofs.DescriptorGrammar
import MethodLinkage.Proofs.DirectoryLookups
import Mathlib.Data.List.DropRight

/-!
# Paths of class files

The path of a class file is made of the directory and the name in two steps that could each lead
elsewhere: a name that starts with a slash would take the place of the directory, and an extension
takes the place of what follows a full stop. Binary names have neither. So the path goes through the
directory and then through the identifiers of the name, and every class has a path of its own.
-/

namespace MethodLinkage

namespace FilePath

open FileTree (isAbsolute)

inductive Component where
  | root
  | current
  | parent
  | named (text : Text)
  deriving DecidableEq

def Component.isNamed : Component → Bool
  | named _ => true
  | _ => false

/-- An empty segment and the full stop are passed over. -/
def Component.ofSegment? (segment : Text) : Option Component :=
  if Node.isHere segment then none
  else if Node.isParent segment then some .parent
  else some (.named segment)

/-- A full stop counts where a path starts with it. -/
def start (path : Text) : List Component :=
  if isAbsolute path then [.root]
  else if path.segments.head? = some ['.'] then [.current]
  else []

def components (path : Text) : List Component :=
  start path ++ path.segments.filterMap Component.ofSegment?

def join (directory path : Text) : Text :=
  if isAbsolute path then path
  else if directory = [] ∨ directory.getLast? = some '/' then directory ++ path
  else directory ++ '/' :: path

/-- What stands in front of the last full stop, if anything does. -/
def stem (name : Text) : Text :=
  let front := (name.rdropWhile (· ≠ '.')).dropLast
  if front = [] then name else front

def withExtension (path extension : Text) : Text :=
  let named := path.segments.rdropWhile Node.isHere
  match named.getLast? with
  | none => path
  | some last =>
    if Node.isParent last then path
    else ['/'].intercalate (named.dropLast ++ [stem last ++ '.' :: extension])

/-- The names alone lead on from the directory, none of them to where it starts, back up or to
the root. -/
structure LeadsBelow (directory path : Text) (names : List Text) : Prop where
  components_eq : components path = components directory ++ names.map .named
  isName : ∀ name ∈ names, name ≠ [] ∧ name ≠ ['.'] ∧ name ≠ ['.', '.'] ∧ '/' ∉ name

variable {directory path name : Text} {parts : List Text}

theorem ofSegment?_of_isPlain {segment : Text} (h : Node.IsPlain segment) :
    Component.ofSegment? segment = some (.named segment) := by
  simp [Component.ofSegment?, h.1, h.2]

theorem filterMap_of_isPlain (h : ∀ part ∈ parts, Node.IsPlain part) :
    parts.filterMap Component.ofSegment? = parts.map .named := by
  rw [← List.filterMap_eq_map]
  exact List.filterMap_congr fun part hpart => ofSegment?_of_isPlain (h part hpart)

theorem head?_ne_of_isPlain (h : ∀ part ∈ parts, Node.IsPlain part) :
    parts.head? ≠ some ['.'] := by
  intro hdot
  exact absurd (h ['.'] (List.mem_of_mem_head? hdot)).1 (by decide)

theorem start_of_isPlain (hinside : isAbsolute path = false)
    (h : ∀ part ∈ path.segments, Node.IsPlain part) : start path = [] := by
  rw [start, hinside, if_neg Bool.false_ne_true, if_neg (head?_ne_of_isPlain h)]

theorem stem_of_not_mem (h : '.' ∉ name) : stem name = name := by
  have hnone : name.rdropWhile (· ≠ '.') = [] := by
    rw [List.rdropWhile_eq_nil_iff]
    intro c hc
    rw [decide_eq_true_iff]
    rintro rfl
    exact h hc
  rw [stem, hnone]
  rfl

theorem withExtension_of_isPlain {before : List Text} {last extension : Text}
    (hsegments : path.segments = before ++ [last]) (hplain : Node.IsPlain last) (hdot : '.' ∉ last)
    (hslash : '/' ∉ extension) : withExtension path extension = path ++ '.' :: extension := by
  have hnamed : path.segments.rdropWhile Node.isHere = before ++ [last] := by
    rw [hsegments, List.rdropWhile_concat_neg _ _ _ (by simp [hplain.1])]
  have hdotted : '/' ∉ '.' :: extension := by simpa using hslash
  obtain ⟨init, final, hpath, happend⟩ := Text.exists_segments_append path hdotted
  obtain ⟨rfl, hfinal⟩ := List.append_inj' (hpath.symm.trans hsegments) rfl
  rw [List.singleton_inj.mp hfinal] at happend
  rw [withExtension, hnamed, List.getLast?_concat, List.dropLast_concat]
  dsimp only
  rw [hplain.2, stem_of_not_mem hdot, ← happend, Text.intercalate_segments]
  rfl

theorem LeadsBelow.names_eq {others : List Text} (h : LeadsBelow directory path parts)
    (hothers : LeadsBelow directory path others) : parts = others := by
  have hsame := List.append_cancel_left (h.components_eq.symm.trans hothers.components_eq)
  exact List.map_injective_iff.mpr (fun a b hab => Component.named.inj hab) hsame

end FilePath

theorem Node.at?_of_walk {above : List Node} {here last : Node} {names : List Text}
    (h : walk above here names = .ok last) (hplain : ∀ name ∈ names, IsPlain name) :
    at? names (some here) = some last := by
  induction names generalizing above here with
  | nil => exact congrArg some (Except.ok.inj h)
  | cons name rest ih =>
    obtain ⟨hname, hrest⟩ := List.forall_mem_cons.mp hplain
    rw [walk_cons] at h
    cases here with
    | file content => cases h
    | directory entries =>
      rw [enter_of_isPlain above entries hname] at h
      cases hexists : canExist name with
      | false => simp [hexists] at h
      | true =>
        rw [hexists] at h
        rw [at?]
        cases hlookup : entries.lookup name with
        | none => simp [hlookup] at h
        | some child =>
          rw [hlookup] at h
          exact ih h hrest

namespace Place

open FilePath (Component components join withExtension LeadsBelow)

variable {files : FileTree} {directory name : Text}

def classExtension : Text := "class".toList

theorem classEnding_eq : classEnding = '.' :: classExtension := rfl

def examine (files : FileTree) (path : Text) : StateM (List Text) (Except AccessError Node) := do
  modify (· ++ [path])
  pure (files.locate path)

/-- Searches a directory with a note of every path that is examined. The path is put together from
the name, which has to be binary and without a step to the root or to where it starts. -/
def searchDirectory (files : FileTree) (directory name : Text) :
    StateM (List Text) (Except LookupError FoundClass) := do
  if IsBinaryName name ∧ (components name).all Component.isNamed then
    let path := withExtension (join directory name) classExtension
    match ← examine files path with
    | .ok (.file _) => pure (.ok ⟨name, .file path⟩)
    | .ok (.directory _) => pure (.error .notFound)
    | .error .notFound => pure (.error .notFound)
    | .error cause => pure (.error (.unreadable cause none))
  else pure (.error .notFound)

theorem not_isAbsolute (h : IsBinaryName name) : FileTree.isAbsolute name = false :=
  decide_eq_false (head?_of_isBinaryName h).1

theorem isPlain_of_mem_segments (h : IsBinaryName name) : ∀ part ∈ name.segments,
    Node.IsPlain part := fun part hpart => isPlain_of_isIdentifier (h part hpart)

theorem components_of_isBinaryName (h : IsBinaryName name) :
    components name = name.segments.map .named := by
  have hplain := isPlain_of_mem_segments h
  rw [components, FilePath.start_of_isPlain (not_isAbsolute h) hplain, List.nil_append,
    FilePath.filterMap_of_isPlain hplain]

theorem join_append_classEnding (directory : Text) (h : IsBinaryName name) :
    join directory name ++ classEnding = classFile directory name := by
  rw [join, not_isAbsolute h, if_neg Bool.false_ne_true, classFile]
  split <;> simp

theorem withExtension_join (directory : Text) (h : IsBinaryName name) :
    withExtension (join directory name) classExtension = classFile directory name := by
  have hending : '/' ∉ classEnding := by decide
  obtain ⟨front, last, hname, hnames⟩ := Text.exists_segments_append name hending
  obtain ⟨init, final, hpath, happend⟩ :=
    Text.exists_segments_append (join directory name) hending
  obtain ⟨names, -, -, -, hfile⟩ := segments_classFile directory name
  rw [join_append_classEnding directory h, hfile, namesOf, hnames, ← List.append_assoc] at happend
  obtain ⟨-, hlast⟩ := List.append_inj' happend rfl
  obtain rfl : last = final := List.append_cancel_right (List.singleton_inj.mp hlast)
  have hidentifier : IsIdentifier last := h last (by simp [hname])
  rw [FilePath.withExtension_of_isPlain hpath (isPlain_of_isIdentifier hidentifier)
    (fun hdot => (hidentifier.2 '.' hdot).1 rfl) (by decide), ← classEnding_eq,
    join_append_classEnding directory h]

-- neither is true of every name
example : join "cp".toList "/x".toList = "/x".toList ∧
    withExtension "cp/a.b".toList classExtension = "cp/a.class".toList := by
  decide

theorem components_classFile (directory : Text) (h : IsBinaryName name) :
    components (classFile directory name) =
      components directory ++ (namesOf name).map .named := by
  have hplain := isPlain_of_mem_namesOf h
  have hinside := isAbsolute_classFile directory h
  obtain ⟨names, rest, hdirectory, hrest, hfile⟩ := segments_classFile directory name
  have hpassed : rest.filterMap Component.ofSegment? = [] := by
    rcases hrest with rfl | rfl <;> rfl
  have hstart : FilePath.start (classFile directory name) = FilePath.start directory := by
    rw [FilePath.start, FilePath.start, hinside, hfile, hdirectory]
    cases names with
    | cons first names => rfl
    | nil =>
      have hhead : ([] ++ namesOf name).head? ≠ some ['.'] := FilePath.head?_ne_of_isPlain hplain
      have hempty : ([] ++ rest).head? ≠ some ['.'] := by
        rcases hrest with rfl | rfl <;> decide
      rw [if_neg hhead, if_neg hempty]
  rw [components, components, hstart, hfile, hdirectory, List.filterMap_append,
    List.filterMap_append, hpassed, List.append_nil, FilePath.filterMap_of_isPlain hplain,
    List.append_assoc]

theorem searchDirectory_run (files : FileTree) (directory name : Text) (noted : List Text) :
    (searchDirectory files directory name).run noted =
      (findInDirectory files directory name,
        noted ++ if IsBinaryName name then [classFile directory name] else []) := by
  by_cases h : IsBinaryName name
  · have hnamed : (components name).all Component.isNamed = true := by
      rw [components_of_isBinaryName h]
      simp [Component.isNamed]
    rw [searchDirectory, if_pos ⟨h, hnamed⟩, if_pos h, findInDirectory, if_pos h,
      withExtension_join directory h]
    simp only [examine]
    rcases files.locate (classFile directory name) with cause | content | entries
    · cases cause <;> rfl
    · rfl
    · rfl
  · rw [searchDirectory, if_neg fun hboth => h hboth.1, if_neg h, findInDirectory, if_neg h,
      List.append_nil]
    rfl

theorem leadsBelow_classFile (directory : Text) (h : IsBinaryName name) :
    LeadsBelow directory (classFile directory name) (namesOf name) := by
  refine ⟨components_classFile directory h, fun part hpart => ?_⟩
  obtain ⟨hhere, hparent⟩ := isPlain_of_mem_namesOf h part hpart
  refine ⟨?_, ?_, ?_, DescriptorGrammar.slash_not_mem_segment hpart⟩
  · rintro rfl
    exact absurd hhere (by decide)
  · rintro rfl
    exact absurd hhere (by decide)
  · rintro rfl
    exact absurd hparent (by decide)

theorem namesOf_injective {other : Text} (h : namesOf name = namesOf other) : name = other := by
  have hpaths := congrArg (['/'].intercalate ·) h
  simp only [namesOf, Text.intercalate_segments] at hpaths
  exact List.append_cancel_right hpaths

/-- A name that is not binary is missing from every directory, and no path is examined for it. For
a binary name one path is examined. It leads through the directory and from there through the
identifiers of the name, of which the last has the ending of a class file, so what is found at it
is below the directory; and no other binary name has a path that leads there. -/
theorem directory_keeps_classes_apart (directory name : Text) :
    (∀ files noted, (searchDirectory files directory name).run noted =
      (findInDirectory files directory name,
        noted ++ if IsBinaryName name then [classFile directory name] else [])) ∧
    (¬ IsBinaryName name → ∀ files, findInDirectory files directory name = .error .notFound) ∧
    (IsBinaryName name →
      ∃ front last, name.segments = front ++ [last] ∧
        LeadsBelow directory (classFile directory name) (front ++ [last ++ classEnding]) ∧
        (∀ files entries node, FileTree.locate files directory = .ok (.directory entries) →
          files.locate (classFile directory name) = .ok node →
          Node.at? (front ++ [last ++ classEnding]) (some (.directory entries)) = some node) ∧
        ∀ other, IsBinaryName other →
          components (classFile directory other) = components (classFile directory name) →
          other = name) := by
  refine ⟨fun files noted => searchDirectory_run files directory name noted, fun hnot files => ?_,
    fun hname => ?_⟩
  · rw [findInDirectory, if_neg hnot]
  have hbelow := leadsBelow_classFile directory hname
  obtain ⟨front, last, hsegments, hnames⟩ :=
    Text.exists_segments_append name (show '/' ∉ classEnding by decide)
  refine ⟨front, last, hsegments, hnames ▸ hbelow, fun files entries node hentries hnode => ?_,
    fun other hother hsame => ?_⟩
  · obtain ⟨above, hwalk⟩ := exists_walk_classFile hentries hname (pathError?_of_locate hnode)
    rw [hwalk] at hnode
    exact hnames ▸ Node.at?_of_walk hnode (isPlain_of_mem_namesOf hname)
  · have hothers := leadsBelow_classFile directory hother
    exact namesOf_injective
      (LeadsBelow.names_eq ⟨hsame ▸ hothers.components_eq, hothers.isName⟩ hbelow)

theorem only_one_class_at_its_path :
    let name : Text := ['p', '/', 'A']
    let path := classFile ['d'] name
    IsBinaryName name ∧
      (searchDirectory (.write .empty path ⟨#[]⟩) ['d'] name).run [] =
        (.ok ⟨name, .file path⟩, [path]) ∧
      ∀ other, IsBinaryName other → components (classFile ['d'] other) = components path →
        other = name := by
  intro name path
  obtain ⟨hrun, -, hpath⟩ := directory_keeps_classes_apart ['d'] name
  obtain ⟨_, _, -, -, -, honly⟩ := hpath Workspace.isBinaryName_shared
  exact ⟨Workspace.isBinaryName_shared, (hrun _ []).trans rfl, honly⟩

end Place

end MethodLinkage
