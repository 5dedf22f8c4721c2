import MethodLinkage.Proofs.IssuedNumbers

/-!
# Numbers and types correspond

An arena can be kept as two stores, the types by number and an index that has the
number of each type. A type that is interned is entered into both, which keeps them
inverse to each other, and they give the numbers that the arena gives. All that a
run does to its arena is to intern types. So in every workspace no type has two
numbers, and issued numbers are equal exactly when their types are. There are never
more types than numbers: what would be one too many is entered into neither store.
-/

namespace MethodLinkage

theorem getElem?_append_singleton {α : Type} {list : List α} {last item : α} {place : Nat} :
    (list ++ [last])[place]? = some item ↔
      list[place]? = some item ∨ place = list.length ∧ item = last := by
  rw [List.getElem?_append]
  split
  · next hlt => exact ⟨.inl, fun h => h.resolve_right fun hend => by omega⟩
  · next hge =>
    have hnone : list[place]? = none := List.getElem?_eq_none_iff.mpr (Nat.le_of_not_lt hge)
    have hend : place - list.length = 0 ↔ place = list.length := by omega
    rw [hnone, List.getElem?_singleton]
    simp [hend, eq_comm]

theorem TypeIndex.ofPrimitive_of_getElem? {place : Nat} {base : Primitive}
    (h : Primitive.all[place]? = some base) : ofPrimitive base = ⟨place⟩ := by
  have hnodup : Primitive.all.Nodup := by decide
  obtain ⟨hlt, rfl⟩ := List.getElem?_eq_some_iff.mp h
  exact congrArg TypeIndex.mk (hnodup.idxOf_getElem place hlt)

/-- The types by number, and the numbers by type; the index has its latest entries first. -/
structure TypeStores where
  types : List Ty
  index : List (Ty × TypeIndex)

namespace TypeStores

def empty : TypeStores := ⟨[], []⟩

def intern (stores : TypeStores) (type : Ty) : Except Fault TypeIndex × TypeStores :=
  match stores.index.lookup type with
  | some id => (.ok id, stores)
  | none =>
    if stores.types.length < numberLimit then
      (.ok ⟨stores.types.length⟩,
        ⟨stores.types ++ [type], (type, ⟨stores.types.length⟩) :: stores.index⟩)
    else (.error .arenaFull, stores)

def internEach (stores : TypeStores) (types : List Ty) : TypeStores :=
  types.foldl (fun stores type => (stores.intern type).2) stores

def fresh : TypeStores := empty.internEach (Primitive.all.map .primitive ++ [.void])

/-- The index has exactly the types that are stored, each with its place. -/
structure AreInverse (stores : TypeStores) : Prop where
  nodup : stores.types.Nodup
  index : ∀ type id, stores.index.lookup type = some id ↔ stores.types[id.toNat]? = some type

variable {stores : TypeStores} {type : Ty} {id : TypeIndex}

theorem areInverse_empty : empty.AreInverse :=
  ⟨List.nodup_nil, fun type id => by simp [empty]⟩

theorem AreInverse.intern_of_stored (h : stores.AreInverse)
    (hid : stores.types[id.toNat]? = some type) : stores.intern type = (.ok id, stores) := by
  rw [TypeStores.intern, (h.index type id).mpr hid]

theorem AreInverse.intern_of_new (h : stores.AreInverse) (hnew : type ∉ stores.types) :
    stores.intern type =
      if stores.types.length < numberLimit then
        (.ok ⟨stores.types.length⟩,
          ⟨stores.types ++ [type], (type, ⟨stores.types.length⟩) :: stores.index⟩)
      else (.error .arenaFull, stores) := by
  have hnone : stores.index.lookup type = none := by
    cases hlookup : stores.index.lookup type with
    | none => rfl
    | some id => exact absurd (List.mem_of_getElem? ((h.index type id).mp hlookup)) hnew
  rw [TypeStores.intern, hnone]

theorem AreInverse.enter (h : stores.AreInverse) (hnew : type ∉ stores.types) :
    AreInverse ⟨stores.types ++ [type], (type, ⟨stores.types.length⟩) :: stores.index⟩ := by
  refine ⟨?_, fun other id => ?_⟩
  · rw [← List.concat_eq_append]
    exact h.nodup.concat hnew
  · rw [List.lookup_cons, getElem?_append_singleton]
    by_cases hother : other = type
    · subst hother
      have hold : stores.types[id.toNat]? ≠ some other :=
        fun hid => hnew (List.mem_of_getElem? hid)
      have hnumber : TypeIndex.mk stores.types.length = id ↔ id.toNat = stores.types.length := by
        cases id
        simp [eq_comm]
      simp [hnumber, hold]
    · rw [beq_false_of_ne hother]
      simpa [hother] using h.index other id

theorem AreInverse.intern (h : stores.AreInverse) (type : Ty) :
    (stores.intern type).2.AreInverse := by
  by_cases hmem : type ∈ stores.types
  · obtain ⟨place, hplace⟩ := List.mem_iff_getElem?.mp hmem
    rw [h.intern_of_stored (show stores.types[(TypeIndex.mk place).toNat]? = some type from hplace)]
    exact h
  · rw [h.intern_of_new hmem]
    split
    · exact h.enter hmem
    · exact h

theorem AreInverse.internEach (h : stores.AreInverse) (types : List Ty) :
    (stores.internEach types).AreInverse := by
  induction types generalizing stores with
  | nil => exact h
  | cons type rest ih => exact ih (h.intern type)

end TypeStores

namespace Arena

def internEach (arena : Arena) (types : List Ty) : Arena :=
  types.foldl (fun arena type => (arena.intern type).2) arena

variable {arena : Arena} {type : Ty} {id other : TypeIndex}

theorem internEach_append (arena : Arena) (types later : List Ty) :
    arena.internEach (types ++ later) = (arena.internEach types).internEach later :=
  List.foldl_append

theorem types_prefix_internEach (arena : Arena) (types : List Ty) :
    arena.types <+: (arena.internEach types).types := by
  induction types generalizing arena with
  | nil => exact List.prefix_refl _
  | cons type rest ih => exact (types_prefix_intern arena type).trans (ih _)

theorem Valid.internEach (hvalid : arena.Valid) (types : List Ty) :
    (arena.internEach types).Valid := by
  induction types generalizing arena with
  | nil => exact hvalid
  | cons type rest ih => exact ih (hvalid.intern type)

theorem intern_of_new (hnew : type ∉ arena.types) :
    arena.intern type =
      if arena.size < numberLimit then (.ok ⟨arena.size⟩, ⟨arena.types ++ [type]⟩)
      else (.error .arenaFull, arena) := by
  rw [intern, idOf?_eq_none_iff.mpr hnew]

theorem size_intern_le_numberLimit (h : arena.size ≤ numberLimit) (type : Ty) :
    (arena.intern type).2.size ≤ numberLimit := by
  rcases arena.intern_cases type with ⟨_, -, heq⟩ | ⟨-, hroom, heq⟩ | ⟨-, -, heq⟩
  · rwa [heq]
  · rw [heq, size, List.length_append]
    exact hroom
  · rwa [heq]

theorem size_fresh_le_numberLimit : fresh.size ≤ numberLimit := by decide

theorem size_internEach_le_numberLimit (h : arena.size ≤ numberLimit) (types : List Ty) :
    (arena.internEach types).size ≤ numberLimit := by
  induction types generalizing arena with
  | nil => exact h
  | cons type rest ih => exact ih (size_intern_le_numberLimit h type)

theorem lt_size_iff : id.toNat < arena.size ↔ ∃ type, arena.get? id = some type :=
  ⟨fun hlt => ⟨_, List.getElem?_eq_getElem hlt⟩, fun ⟨_, htype⟩ => lt_size_of_get? htype⟩

theorem Valid.eq_iff_get? (hvalid : arena.Valid) (hid : id.toNat < arena.size) :
    id = other ↔ arena.get? id = arena.get? other := by
  obtain ⟨type, htype⟩ := lt_size_iff.mp hid
  exact ⟨congrArg arena.get?, fun heq => hvalid.eq_of_get? htype (heq ▸ htype)⟩

theorem Valid.intern_stores {stores : TypeStores} (hvalid : arena.Valid)
    (hinverse : stores.AreInverse) (htypes : stores.types = arena.types) (type : Ty) :
    (stores.intern type).1 = (arena.intern type).1 ∧
      (stores.intern type).2.types = (arena.intern type).2.types := by
  by_cases hmem : type ∈ arena.types
  · obtain ⟨place, hplace⟩ := List.mem_iff_getElem?.mp hmem
    have hget : arena.get? ⟨place⟩ = some type := hplace
    have hstored : stores.types[place]? = some type := htypes ▸ hplace
    rw [intern_of_get? hvalid hget, hinverse.intern_of_stored hstored]
    exact ⟨rfl, htypes⟩
  · rw [intern_of_new hmem, hinverse.intern_of_new (htypes ▸ hmem), htypes, size]
    split
    · exact ⟨rfl, rfl⟩
    · exact ⟨rfl, htypes⟩

theorem Valid.types_internEach {stores : TypeStores} (hvalid : arena.Valid)
    (hinverse : stores.AreInverse) (htypes : stores.types = arena.types) (types : List Ty) :
    (stores.internEach types).types = (arena.internEach types).types := by
  induction types generalizing arena stores with
  | nil => exact htypes
  | cons type rest ih =>
    exact ih (hvalid.intern type) (hinverse.intern type)
      (hvalid.intern_stores hinverse htypes type).2

end Arena

theorem Lookups.exists_interned {before after : Arena × LoaderSystem} (h : Lookups before after) :
    ∃ types, after.1 = before.1.internEach types := by
  induction h with
  | refl => exact ⟨[], rfl⟩
  | tail _ step ih =>
    obtain ⟨types, heq⟩ := ih
    cases step with
    | @intern _ _ type _ =>
      refine ⟨types ++ [type], ?_⟩
      rw [Arena.internEach_append, ← heq]
      rfl
    | ask _ _ => exact ⟨types, heq⟩

namespace Workspace

variable {workspace : Workspace}

theorem spans_interned :
    Spans (fun _ => True) fun before after => ∃ types, after.1 = before.1.internEach types where
  within view :=
    { refl := fun _ => ⟨[], rfl⟩
      trans := fun ⟨types, hfirst⟩ ⟨later, hsecond⟩ =>
        ⟨types ++ later, by rw [Arena.internEach_append, ← hfirst, hsecond]⟩
      resolve := fun arena system _ name _ =>
        (LoaderSystem.resolve_lookups system arena view name).exists_interned
      placeholder := fun _ _ name loader => ⟨[.placeholder name loader], rfl⟩ }
  still _ hsame := ⟨[], hsame⟩
  addLoader _ _ _ := ⟨[], rfl⟩
  intern {_ type} _ _ _ _ := ⟨[type], rfl⟩
  arrayOver arena element dimensions system :=
    (LoaderSystem.arrayOver_lookups system arena element dimensions).exists_interned
  resolve _ view arena system := (LoaderSystem.resolve_lookups system arena view _).exists_interned

theorem step_exists_interned (workspace : Workspace) (command : Command) :
    ∃ types, (workspace.step command).2.session.arena =
      workspace.session.arena.internEach types :=
  spans_interned.step workspace trivial

theorem run_exists_interned (workspace : Workspace) (commands : List Command) :
    ∃ types, (workspace.run commands).2.session.arena =
      workspace.session.arena.internEach types :=
  spans_interned.run workspace fun _ _ => trivial

theorem typeCount_le_of_mem_run {report : Report} (workspace : Workspace) (commands : List Command)
    (h : report ∈ (workspace.run commands).1) :
    report.typeCount ≤ (workspace.run commands).2.session.arena.size := by
  induction commands generalizing workspace with
  | nil => cases h
  | cons command rest ih =>
    rcases List.mem_cons.mp h with rfl | hrest
    · obtain ⟨types, hrun⟩ := run_exists_interned (workspace.step command).2 rest
      have hgrown := (workspace.step command).2.session.arena.types_prefix_internEach types
      rw [← hrun] at hgrown
      exact hgrown.length_le
    · exact ih _ hrest

theorem numbers_lt_typeCount (files : FileTree) (bootstrap : ClassPath) (commands : List Command) :
    ∀ report ∈ ((start files bootstrap).run commands).1, ∀ answer, report.answer = .ok answer →
      ∀ id ∈ answer.numbers, id.toNat < report.typeCount ∨
        ∃ before table name rest, commands = before ++ .addReference table name id :: rest ∧
          ((start files bootstrap).run before).2.session.arena.size ≤ id.toNat := by
  refine (known_start files bootstrap).run commands fun before table name id rest hsplit => ?_
  rcases Nat.lt_or_ge id.toNat ((start files bootstrap).run before).2.session.arena.size with
    hissued | hunissued
  · exact .inl (Arena.lt_size_iff.mp hissued)
  · exact .inr ⟨before, table, name, rest, hsplit, hunissued⟩

theorem perform_intern {form : TypeForm} {type : Ty} (hform : form.type? = some type) :
    workspace.perform (.intern form) =
      (workspace.withArena (workspace.session.arena.intern type).2).ofFault
        ((workspace.session.arena.intern type).1.map .type) := by
  dsimp only [perform]
  rw [hform]

theorem perform_intern_of_get? {form : TypeForm} {type : Ty} {id : TypeIndex}
    (hvalid : workspace.session.arena.Valid) (hform : form.type? = some type)
    (hid : workspace.session.arena.get? id = some type) :
    workspace.perform (.intern form) = workspace.answer (.type id) := by
  rw [perform_intern hform, Arena.intern_of_get? hvalid hid]
  rfl

theorem perform_intern_of_new {form : TypeForm} {type : Ty} (hform : form.type? = some type)
    (hnew : type ∉ workspace.session.arena.types) :
    workspace.perform (.intern form) =
      if workspace.session.arena.size < numberLimit then
        (workspace.withArena ⟨workspace.session.arena.types ++ [type]⟩).answer
          (.type ⟨workspace.session.arena.size⟩)
      else workspace.refuse (.failure (.fault .arenaFull)) := by
  rw [perform_intern hform, Arena.intern_of_new hnew]
  split <;> rfl

/-- After any commands, refused ones among them, the arena is what two stores hold that are inverse
to each other. The primitives and `void` have the first numbers, a number is handed out only below
the count of types, and interning adds the types that are new and no others. With a number for each
of 2^32 types, an arena refuses one more and stays as it is. -/
theorem numbers_and_types_correspond (files : FileTree) (bootstrap : ClassPath)
    (commands : List Command) :
    let history := (start files bootstrap).run commands
    let arena := history.2.session.arena
    (∃ types, arena = Arena.fresh.internEach types ∧
      (TypeStores.fresh.internEach types).AreInverse ∧
      (TypeStores.fresh.internEach types).types = arena.types ∧
      ∀ type, ((TypeStores.fresh.internEach types).intern type).1 = (arena.intern type).1) ∧
    arena.types.Nodup ∧ arena.size ≤ numberLimit ∧
    (∀ id, id.toNat < arena.size ↔ ∃ type, arena.get? id = some type) ∧
    (∀ report ∈ history.1, report.typeCount ≤ arena.size ∧
      ∀ answer, report.answer = .ok answer → ∀ id ∈ answer.numbers, id.toNat < report.typeCount ∨
        ∃ before table name rest, commands = before ++ .addReference table name id :: rest ∧
          ((start files bootstrap).run before).2.session.arena.size ≤ id.toNat) ∧
    (∀ place base, Primitive.all[place]? = some base →
      TypeIndex.ofPrimitive base = ⟨place⟩ ∧ arena.get? ⟨place⟩ = some (.primitive base)) ∧
    TypeIndex.void = ⟨8⟩ ∧ arena.get? ⟨8⟩ = some .void ∧
    (∀ id other, id.toNat < arena.size → (id = other ↔ arena.get? id = arena.get? other)) ∧
    (∀ form type id, TypeForm.type? form = some type → arena.get? id = some type →
      history.2.perform (.intern form) = history.2.answer (.type id)) ∧
    (∀ form type, TypeForm.type? form = some type → type ∉ arena.types →
      history.2.perform (.intern form) =
        if arena.size < numberLimit then
          (history.2.withArena ⟨arena.types ++ [type]⟩).answer (.type ⟨arena.size⟩)
        else history.2.refuse (.failure (.fault .arenaFull))) := by
  intro history arena
  obtain ⟨types, harena⟩ : ∃ types, arena = Arena.fresh.internEach types :=
    run_exists_interned (start files bootstrap) commands
  have hvalid : arena.Valid := harena ▸ Arena.valid_fresh.internEach types
  have hfresh : TypeStores.fresh.AreInverse := TypeStores.areInverse_empty.internEach _
  have hinverse := hfresh.internEach types
  have htypes : (TypeStores.fresh.internEach types).types = arena.types :=
    harena ▸ Arena.valid_fresh.types_internEach hfresh (by decide) types
  refine ⟨⟨types, harena, hinverse, htypes, fun type =>
      (hvalid.intern_stores hinverse htypes type).1⟩, hvalid.nodup,
    harena ▸ Arena.size_internEach_le_numberLimit Arena.size_fresh_le_numberLimit types,
    fun id => Arena.lt_size_iff,
    fun report hreport => ⟨typeCount_le_of_mem_run _ commands hreport,
      numbers_lt_typeCount files bootstrap commands report hreport⟩, ?_, rfl, hvalid.get?_void,
    fun id other => hvalid.eq_iff_get?, fun form type id => perform_intern_of_get? hvalid,
    fun form type => perform_intern_of_new⟩
  intro place base hbase
  have hplace := TypeIndex.ofPrimitive_of_getElem? hbase
  exact ⟨hplace, hplace ▸ hvalid.get?_ofPrimitive base⟩

end Workspace

end MethodLinkage
