import MethodLinkage.Proofs.LastingMeanings

/-!
# Array towers

An array over an array is the array of the dimensions of both, with the same number and over the
same types. It stands for what its element stood for before, under as many dimensions more: what is
interned on the way is no part of what was there, not even where an array was over a number that
had not been issued. A tower for which there are too few numbers stops where they end.
-/

namespace MethodLinkage
namespace Arena

variable {arena larger : Arena} {id other component array : TypeIndex} {element type : Ty}
  {dimensions depth inner count : Nat} {loader : Option LoaderIndex} {text : Text}

theorem arrayOver_add (h : (arena.arrayOver component dimensions).1 = .ok array) (more : Nat) :
    (arena.arrayOver component dimensions).2.arrayOver array more =
      arena.arrayOver component (dimensions + more) := by
  obtain ⟨hadmits, heq⟩ := exists_of_arrayOver h
  rw [heq] at h ⊢
  obtain ⟨outer, houter, hagain⟩ := hadmits.arrays h
  obtain ⟨type, hget, helement⟩ := hadmits
  rw [arrayOver_of_element houter hagain, arrayOver_of_element hget helement,
    ← Interned.arrays_add, ← h]

theorem arrayOver_add_of_error {fault : Fault} (hget : arena.get? component = some type)
    (helement : type.isArrayElement = true)
    (h : (arena.arrayOver component dimensions).1 = .error fault) (more : Nat) :
    arena.arrayOver component (dimensions + more) = arena.arrayOver component dimensions := by
  rw [arrayOver_of_element hget helement] at h ⊢
  rw [arrayOver_of_element hget helement, ← Interned.arrays_add]
  exact Interned.arrays_of_error h more

theorem Unfolds.of_array (hget : arena.get? id = some (.array component))
    (h : arena.Unfolds id depth element) :
    ∃ inner, depth = inner + 1 ∧ arena.Unfolds component inner element := by
  cases h with
  | element hget' hnot => exact absurd (Option.some.inj (hget'.symm.trans hget)) (hnot component)
  | @array _ below inner _ hget' hbelow =>
    obtain rfl := Ty.array.inj (Option.some.inj (hget'.symm.trans hget))
    exact ⟨inner, rfl, hbelow⟩

/-- What stands under a component has no more dimensions than the component, and so the array over
that component is not met on the way down. -/
theorem Unfolds.of_intern_array {found : Ty}
    (hcomponent : (arena.intern (.array component)).2.Unfolds component dimensions element)
    (h : (arena.intern (.array component)).2.Unfolds id depth found) (hdepth : depth ≤ dimensions) :
    arena.Unfolds id depth found := by
  induction h with
  | element hget hnot =>
    rcases get?_intern_cases hget with hold | ⟨harray, -⟩
    · exact .element hold hnot
    · exact absurd harray (hnot component)
  | array hget hbelow ih =>
    rcases get?_intern_cases hget with hold | ⟨harray, -⟩
    · exact .array hold (ih (by omega))
    · cases harray
      have hsame := (hbelow.unique hcomponent).1
      omega

theorem unfolds_arrays_iff
    (hid : (Interned.arrays (.ok component, arena) dimensions).1 = .ok id) :
    (Interned.arrays (.ok component, arena) dimensions).2.Unfolds id depth element ↔
      ∃ inner, arena.Unfolds component inner element ∧ depth = dimensions + inner := by
  constructor
  · intro h
    induction dimensions generalizing id depth with
    | zero =>
      cases hid
      exact ⟨depth, h, (Nat.zero_add depth).symm⟩
    | succ n ih =>
      obtain ⟨below, hbelow, heq⟩ := Interned.exists_of_arrays_succ hid
      rw [heq] at hid h
      obtain ⟨middle, rfl, hmiddle⟩ := h.of_array (get?_intern hid)
      obtain ⟨inner, hinner, rfl⟩ :=
        ih hbelow (hmiddle.of_intern_array hmiddle (Nat.le_refl middle))
      exact ⟨inner, hinner, by omega⟩
  · rintro ⟨inner, hinner, rfl⟩
    exact Interned.unfolds_arrays rfl hinner hid

theorem descriptor_arrays_iff
    (hid : (Interned.arrays (.ok component, arena) dimensions).1 = .ok id) :
    (Interned.arrays (.ok component, arena) dimensions).2.descriptor id = .ok text ↔
      ∃ own, arena.descriptor component = .ok own ∧
        text = List.replicate dimensions '[' ++ own := by
  constructor
  · intro h
    obtain ⟨depth, element, hunfolds, rfl⟩ := exists_unfolds_of_descriptor h
    obtain ⟨inner, hinner, rfl⟩ := (unfolds_arrays_iff hid).mp hunfolds
    refine ⟨_, descriptor_of_unfolds hinner, ?_⟩
    rw [← List.replicate_append_replicate, List.append_assoc]
  · rintro ⟨own, hown, rfl⟩
    obtain ⟨inner, element, hinner, rfl⟩ := exists_unfolds_of_descriptor hown
    rw [descriptor_of_unfolds (Interned.unfolds_arrays rfl hinner hid),
      ← List.replicate_append_replicate, List.append_assoc]

theorem definingLoader_eq_ok_iff :
    arena.definingLoader id = .ok loader ↔
      ∃ depth element, arena.Unfolds id depth element ∧ elementLoader depth element = loader := by
  constructor
  · intro h
    cases hinner : arena.innermost id with
    | error fault => simp [definingLoader, hinner, Except.map] at h
    | ok found =>
      have hunfolds := innermost_eq_ok_iff.mp hinner
      rw [definingLoader_of_unfolds hunfolds] at h
      exact ⟨found.1, found.2, hunfolds, Except.ok.inj h⟩
  · rintro ⟨depth, element, hunfolds, rfl⟩
    exact definingLoader_of_unfolds hunfolds

theorem elementLoader_add (h : inner = 0 → element.isPrimitive = false) (more : Nat) :
    elementLoader (more + inner) element = elementLoader inner element := by
  cases element with
  | primitive base =>
    cases inner with
    | zero => cases h rfl
    | succ n => rfl
  | loadedClass => cases more + inner <;> cases inner <;> rfl
  | void | placeholder | array => cases more + inner <;> cases inner <;> rfl

/-- Only a primitive, which has no loader, gets one by being the element of arrays. -/
theorem definingLoader_arrays_iff (hget : arena.get? component = some type)
    (hdimensions : dimensions ≠ 0)
    (hid : (Interned.arrays (.ok component, arena) dimensions).1 = .ok id) :
    (Interned.arrays (.ok component, arena) dimensions).2.definingLoader id = .ok loader ↔
      if type.isPrimitive then loader = some .bootstrap
      else arena.definingLoader component = .ok loader := by
  obtain ⟨n, rfl⟩ := Nat.exists_eq_succ_of_ne_zero hdimensions
  cases hprimitive : type.isPrimitive with
  | true =>
    obtain ⟨base, rfl⟩ : ∃ base, type = .primitive base := by
      cases type with
      | primitive base => exact ⟨base, rfl⟩
      | void | loadedClass | placeholder | array => cases hprimitive
    have hunfolds : arena.Unfolds component 0 (.primitive base) :=
      .element hget fun _ h => (by cases h)
    rw [definingLoader_of_unfolds (Interned.unfolds_arrays rfl hunfolds hid)]
    simp [elementLoader, eq_comm]
  | false =>
    -- A component that stands for a bare element is that element.
    have hbare {inner : Nat} {element : Ty} (hunfolds : arena.Unfolds component inner element)
        (hinner : inner = 0) : element.isPrimitive = false := by
      subst hinner
      cases hunfolds with
      | element hget' _ => rwa [Option.some.inj (hget'.symm.trans hget)]
    rw [if_neg Bool.false_ne_true, definingLoader_eq_ok_iff, definingLoader_eq_ok_iff]
    constructor
    · rintro ⟨depth, element, hunfolds, hloader⟩
      obtain ⟨inner, hinner, rfl⟩ := (unfolds_arrays_iff hid).mp hunfolds
      exact ⟨inner, element, hinner, (elementLoader_add (hbare hinner) (n + 1)).symm.trans hloader⟩
    · rintro ⟨inner, element, hinner, hloader⟩
      exact ⟨_, element, Interned.unfolds_arrays rfl hinner hid,
        (elementLoader_add (hbare hinner) (n + 1)).trans hloader⟩

end Arena

namespace Workspace

variable {workspace after : Workspace} {larger : Arena} {element array : TypeIndex} {type : Ty}
  {dimensions : Nat}

theorem session_arena_valid (files : FileTree) (bootstrap : ClassPath) (commands : List Command) :
    ((start files bootstrap).run commands).2.session.arena.Valid := by
  obtain ⟨types, hrun⟩ := run_exists_interned (start files bootstrap) commands
  exact hrun ▸ Arena.valid_fresh.internEach types

theorem perform_arrayOver_of_ok
    (h : (workspace.session.arena.arrayOver element dimensions).1 = .ok array) :
    workspace.perform (.arrayOver element dimensions) =
      (workspace.withArena (workspace.session.arena.arrayOver element dimensions).2).answer
        (.type array) := by
  dsimp only [perform]
  rw [h]
  rfl

theorem perform_arrayOver_of_error {fault : Fault}
    (h : (workspace.session.arena.arrayOver element dimensions).1 = .error fault) :
    workspace.perform (.arrayOver element dimensions) =
      (workspace.withArena (workspace.session.arena.arrayOver element dimensions).2).refuse
        (.failure (.fault fault)) := by
  dsimp only [perform]
  rw [h]
  rfl

theorem perform_arrayOver_add
    (h : (workspace.session.arena.arrayOver element dimensions).1 = .ok array) (more : Nat) :
    (workspace.withArena (workspace.session.arena.arrayOver element dimensions).2).perform
        (.arrayOver array more) =
      workspace.perform (.arrayOver element (dimensions + more)) := by
  have hadd := Arena.arrayOver_add h more
  dsimp only [perform]
  rw [← hadd]
  rfl

theorem eq_of_arrayOver {other : TypeIndex} {otherType : Ty} {count : Nat}
    (hvalid : after.session.arena.Valid)
    (hgrown : larger.types <+: after.session.arena.types)
    (helement : larger.Unfolds array dimensions type) (hget : larger.get? element = some type)
    (hother : after.session.arena.get? other = some otherType)
    (hnot : ∀ component, otherType ≠ .array component)
    (h : (after.perform (.arrayOver other count)).answer = .ok (.type array)) :
    element = other ∧ dimensions = count := by
  obtain ⟨found, hfound, hid⟩ := exists_of_map_eq_ok (of_mapError_eq_ok h)
  cases hid
  have hfound : (after.session.arena.arrayOver other count).1 = .ok array := hfound
  rw [(Arena.exists_of_arrayOver hfound).2] at hfound
  have hagain := Interned.unfolds_arrays rfl (.element hother hnot) hfound
  have hlast := Interned.types_prefix_arrays (.ok other, after.session.arena) count
  obtain ⟨hcount, rfl⟩ := hagain.unique (helement.mono (hgrown.trans hlast))
  exact ⟨hvalid.eq_of_get? (Arena.get?_mono hgrown hget) hother, by omega⟩

theorem session_arena_size_le (files : FileTree) (bootstrap : ClassPath)
    (commands : List Command) :
    ((start files bootstrap).run commands).2.session.arena.size ≤ numberLimit := by
  obtain ⟨types, hrun⟩ := run_exists_interned (start files bootstrap) commands
  exact hrun ▸ Arena.size_internEach_le_numberLimit Arena.size_fresh_le_numberLimit types

/-- The arrays of a tower are distinct types, of which there are never more than numbers. -/
theorem perform_arrayOver_of_numberLimit_le (files : FileTree) (bootstrap : ClassPath)
    (earlier : List Command)
    (hget : ((start files bootstrap).run earlier).2.session.arena.get? element = some type)
    (helement : type.isArrayElement = true) (hnot : ∀ component, type ≠ .array component)
    (hdimensions : numberLimit ≤ dimensions) :
    (((start files bootstrap).run earlier).2.perform (.arrayOver element dimensions)).answer =
      .error (.failure (.fault .arenaFull)) := by
  have hsize := session_arena_size_le files bootstrap earlier
  generalize ((start files bootstrap).run earlier).2 = workspace at hget hsize
  rcases Arena.ok_or_runsOut_arrayOver hget helement dimensions with ⟨array, harray⟩ | hout
  · obtain ⟨types, hinterned⟩ := (LoaderSystem.arrayOver_lookups workspace.system
      workspace.session.arena element dimensions).exists_interned
    have hlarger := Arena.size_internEach_le_numberLimit hsize types
    rw [← hinterned] at hlarger
    dsimp only at hlarger
    rw [Arena.arrayOver_of_element hget helement] at harray hlarger
    have htall := (Interned.unfolds_arrays rfl (.element hget hnot) harray).lt_size
    omega
  · rw [perform_arrayOver_of_error hout.answer]
    rfl

/-- After any commands, an array over an array is the array of the dimensions of both, with the same
number and leaving the same behind. It is described as its element under so many brackets, and has
the loader of its element, or the bootstrap loader when that is a primitive. Arrays over no arrays
share their number only if they share their element and the number of dimensions, whatever was done
in between. There is such an array unless there are too few numbers for as many types as it has
dimensions; then the arena is full, and this array and all above it are refused alike. Over
placeholders and `void` there are no arrays, of no dimensions either. -/
theorem array_towers_compose (files : FileTree) (bootstrap : ClassPath) (earlier : List Command) :
    let workspace := ((start files bootstrap).run earlier).2
    let arena := workspace.session.arena
    (∀ element type, arena.get? element = some type → type.isLoaded = true → type ≠ .void →
      ∀ dimensions, (∃ array larger,
        workspace.perform (.arrayOver element dimensions) =
          (workspace.withArena larger).answer (.type array) ∧
        (∀ more, (workspace.withArena larger).perform (.arrayOver array more) =
          workspace.perform (.arrayOver element (dimensions + more))) ∧
        (∀ text, larger.descriptor array = .ok text ↔
          ∃ own, arena.descriptor element = .ok own ∧
            text = List.replicate dimensions '[' ++ own) ∧
        (dimensions ≠ 0 → ∀ loader, larger.definingLoader array = .ok loader ↔
          if type.isPrimitive then loader = some .bootstrap
          else arena.definingLoader element = .ok loader) ∧
        ((∀ component, type ≠ .array component) → ∀ commands,
          let after := ((workspace.withArena larger).run commands).2
          ∀ other otherType count, after.session.arena.get? other = some otherType →
            (∀ component, otherType ≠ .array component) →
            (after.perform (.arrayOver other count)).answer = .ok (.type array) →
            element = other ∧ dimensions = count)) ∨
        ¬ arena.HasRoom dimensions ∧ ∃ full, arena.types <+: full.types ∧
          numberLimit ≤ full.size ∧
          ∀ more, workspace.perform (.arrayOver element (dimensions + more)) =
            (workspace.withArena full).refuse (.failure (.fault .arenaFull))) ∧
    ∀ id type, arena.get? id = some type → type.isLoaded = false ∨ type = .void →
      ∀ dimensions, workspace.perform (.arrayOver id dimensions) =
        workspace.refuse (.failure (.fault .badArrayElement)) := by
  intro workspace arena
  have hvalid : arena.Valid := session_arena_valid files bootstrap earlier
  refine ⟨fun element type hget hloaded hvoid dimensions => ?_,
    fun id type hget hbad dimensions => ?_⟩
  · have helement : type.isArrayElement = true := by simp [Ty.isArrayElement, hloaded, hvoid]
    have hover := Arena.arrayOver_of_element hget helement dimensions
    have hgrown := Interned.types_prefix_arrays (.ok element, arena) dimensions
    rcases Arena.ok_or_runsOut_arrayOver hget helement dimensions with ⟨array, harray⟩ | hout
    · refine .inl ⟨array, _, perform_arrayOver_of_ok harray, perform_arrayOver_add harray, ?_⟩
      rw [hover] at harray ⊢
      refine ⟨fun text => Arena.descriptor_arrays_iff harray,
        fun hdimensions loader => Arena.definingLoader_arrays_iff hget hdimensions harray, ?_⟩
      intro hnot commands after other otherType count hother hbare h
      obtain ⟨types, hrun⟩ := run_exists_interned (workspace.withArena
        (Interned.arrays (.ok element, arena) dimensions).2) commands
      exact eq_of_arrayOver (hrun ▸ (Interned.valid_arrays hvalid dimensions).internEach types)
        (types_prefix_run (workspace.withArena _) commands)
        (Interned.unfolds_arrays rfl (.element hget hnot) harray)
        (Arena.get?_mono hgrown hget) hother hbare h
    · refine .inr ⟨hout.noRoom, _, hover ▸ hgrown, hout.isFull, fun more => ?_⟩
      have htall := Arena.arrayOver_add_of_error hget helement hout.answer more
      rw [perform_arrayOver_of_error (htall ▸ hout.answer), htall]
  · have hbare : arena.arrayOver id dimensions = (.error .badArrayElement, arena) := by
      rw [Arena.arrayOver, hget]
      rcases hbad with hmissing | rfl
      · simp [Ty.isArrayElement, hmissing]
      · rfl
    rw [perform_arrayOver_of_error (congrArg Prod.fst hbare), hbare]
    rfl

theorem longs_tower_over_arrays :
    let workspace := ((start .empty (.place (.memory []))).run
      [.intern (.placeholder ['q'] .bootstrap)]).2
    ∃ larger, workspace.perform (.arrayOver (.ofPrimitive .long) 1) =
        (workspace.withArena larger).answer (.type ⟨10⟩) ∧
      (workspace.withArena larger).perform (.arrayOver ⟨10⟩ 2) =
        workspace.perform (.arrayOver (.ofPrimitive .long) 3) ∧
      larger.descriptor ⟨10⟩ = .ok ['[', 'J'] ∧
      larger.definingLoader ⟨10⟩ = .ok (some .bootstrap) ∧
      (∀ other otherType count, larger.get? other = some otherType →
        (∀ component, otherType ≠ .array component) →
        ((workspace.withArena larger).perform (.arrayOver other count)).answer =
          .ok (.type ⟨10⟩) → .ofPrimitive .long = other ∧ 1 = count) ∧
      workspace.perform (.arrayOver ⟨9⟩ 0) =
        workspace.refuse (.failure (.fault .badArrayElement)) := by
  intro workspace
  obtain ⟨htowers, hrefused⟩ := array_towers_compose .empty
    (.place (.memory [])) [.intern (.placeholder ['q'] .bootstrap)]
  have hroom : workspace.session.arena.HasRoom 1 :=
    (show workspace.session.arena.size + 1 ≤ numberLimit by decide)
  obtain ⟨array, larger, hperform, hmore, htext, hloader, hunique⟩ :=
    (htowers (.ofPrimitive .long) (.primitive .long) rfl rfl (by decide) 1).resolve_right
      fun hout => hout.1 hroom
  obtain rfl : (⟨10⟩ : TypeIndex) = array :=
    Answer.type.inj (Except.ok.inj (congrArg Performed.answer hperform))
  exact ⟨larger, hperform, hmore 2, (htext _).mpr ⟨['J'], rfl, rfl⟩,
    (hloader (by decide) _).mpr rfl, hunique (fun _ h => (by cases h)) [],
    hrefused ⟨9⟩ (.placeholder ['q'] .bootstrap) rfl (.inl rfl) 0⟩

end Workspace
end MethodLinkage
