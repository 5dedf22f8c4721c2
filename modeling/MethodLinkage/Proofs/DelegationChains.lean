import MethodLinkage.Proofs.ReachedStates

/-!
# Delegation chains

A loader keeps its ancestors from when it was registered. In a reached system they
are what is met by going from parent to parent, up to the bootstrap loader: a chain
is the loader and the chain of its parent, and its numbers get strictly smaller.
-/

namespace MethodLinkage
namespace LoaderSystem

variable {system extended : LoaderSystem} {id parent other : LoaderIndex}
  {chain : List LoaderIndex}

def parent? (system : LoaderSystem) (id : LoaderIndex) : Option LoaderIndex :=
  (system.loader? id).bind fun loader => loader.ancestors.head?

/-- The way from a loader to the bootstrap loader, from parent to parent. -/
inductive Delegates (system : LoaderSystem) : LoaderIndex → List LoaderIndex → Prop where
  | bootstrap {loader : Loader} : system.loader? .bootstrap = some loader →
      system.parent? .bootstrap = none → Delegates system .bootstrap [.bootstrap]
  | child {id parent : LoaderIndex} {chain : List LoaderIndex} : system.parent? id = some parent →
      Delegates system parent chain → Delegates system id (id :: chain)

theorem Delegates.unique {chain' : List LoaderIndex} (h : system.Delegates id chain)
    (h' : system.Delegates id chain') : chain = chain' := by
  induction h generalizing chain' with
  | bootstrap _ hroot =>
    cases h' with
    | bootstrap _ _ => rfl
    | child hparent _ => cases hroot.symm.trans hparent
  | child hparent _ ih =>
    cases h' with
    | bootstrap _ hroot => cases hroot.symm.trans hparent
    | child hparent' hrest' =>
      obtain rfl := Option.some.inj (hparent.symm.trans hparent')
      rw [ih hrest']

/-- A chain that is kept is the bootstrap loader's, or goes on with the chain of a loader that
was registered before. -/
def IsRooted (system : LoaderSystem) : Prop :=
  ∀ id chain, system.chain? id = some chain → (id = .bootstrap ∧ chain = [.bootstrap]) ∨
    ∃ parent rest, chain = id :: rest ∧ system.chain? parent = some rest ∧
      parent.toNat < id.toNat

theorem exists_loader_of_chain? (h : system.chain? id = some chain) :
    ∃ loader, system.loader? id = some loader ∧ chain = id :: loader.ancestors := by
  obtain ⟨loader, hloader, hchain⟩ := Option.map_eq_some_iff.mp h
  exact ⟨loader, hloader, hchain.symm⟩

theorem chain?_addLoader {path : ClassPath}
    (h : system.addLoader path parent = .ok (id, extended)) :
    ∃ ancestors, system.chain? parent = some ancestors ∧ parent.toNat < id.toNat ∧
      system.chain? id = none ∧ ∀ other, extended.chain? other =
        if other = id then some (id :: ancestors) else system.chain? other := by
  obtain ⟨ancestors, hparent, -, rfl, rfl⟩ := exists_of_addLoader h
  obtain ⟨entry, hentry, -⟩ := exists_loader_of_chain? hparent
  have hlt : parent.toNat < system.loaders.length := (List.getElem?_eq_some_iff.mp hentry).1
  refine ⟨ancestors, hparent, hlt, by simp [chain?, loader?], fun other => ?_⟩
  by_cases hother : other = ⟨system.loaders.length⟩
  · simp [chain?, loader?, hother]
  · have hnat : other.toNat ≠ system.loaders.length := fun heq => hother (by rw [← heq])
    have hsame : (system.loaders ++ [⟨path, ancestors⟩])[other.toNat]? =
        system.loaders[other.toNat]? := by
      rw [List.getElem?_append]
      split
      · rfl
      · rw [List.getElem?_eq_none (by simp; omega), List.getElem?_eq_none (by omega)]
    simp [chain?, loader?, hother, hsame]

theorem chain?_mono_addLoader {path : ClassPath}
    (h : system.addLoader path parent = .ok (id, extended))
    (hchain : system.chain? other = some chain) : extended.chain? other = some chain := by
  obtain ⟨_, -, -, hnew, hchains⟩ := chain?_addLoader h
  rw [hchains, if_neg, hchain]
  intro heq
  rw [heq, hnew] at hchain
  cases hchain

theorem chain?_insertClass (system : LoaderSystem) (tag name : Text) (id : LoaderIndex) :
    (system.insertClass tag name).chain? id = system.chain? id := by
  simp [chain?, loader?, insertClass, Function.comp_def]

def KeepsChains (system after : LoaderSystem) : Prop :=
  ∀ id chain, system.chain? id = some chain → after.chain? id = some chain

theorem SameAnswers.keepsChains {after : LoaderSystem} (h : SameAnswers system after) :
    system.KeepsChains after :=
  fun id _ hchain => (h.chain id).trans hchain

theorem spans_keepsChains :
    Workspace.Spans (fun _ => True) fun before after => before.2.KeepsChains after.2 where
  within view :=
    { refl := fun _ _ _ h => h
      trans := fun hfirst hsecond id chain h => hsecond id chain (hfirst id chain h)
      resolve := fun arena system _ name _ =>
        (resolve_lookups system arena view name).sameAnswers.keepsChains
      placeholder := fun _ _ _ _ _ _ h => h }
  still change _ := by
    cases change with
    | lookup step => exact (Lookups.sameAnswers (.single step)).keepsChains
    | addLoader _ hadd => exact fun _ _ => chain?_mono_addLoader hadd
    | insertClass => exact fun _ _ => (chain?_insertClass ..).trans
    | intern | setFiles | forgetProbes => exact fun _ _ h => h
  addLoader _ hadd _ _ _ := chain?_mono_addLoader hadd
  intern _ _ _ _ _ _ h := h
  arrayOver _ _ _ _ _ _ h := h
  resolve _ view arena system := (resolve_lookups system arena view _).sameAnswers.keepsChains

theorem keepsChains_run (workspace : Workspace) (commands : List Command) :
    workspace.system.KeepsChains (workspace.run commands).2.system :=
  spans_keepsChains.run workspace fun _ _ => trivial

theorem isRooted_of_chain? {after : LoaderSystem} (hsame : ∀ id, after.chain? id = system.chain? id)
    (h : system.IsRooted) : after.IsRooted := by
  intro id chain hchain
  simp only [hsame] at hchain ⊢
  exact h id chain hchain

theorem isRooted_addLoader {path : ClassPath}
    (hadd : system.addLoader path parent = .ok (id, extended)) (h : system.IsRooted) :
    extended.IsRooted := by
  obtain ⟨ancestors, hparent, hlt, -, hchains⟩ := chain?_addLoader hadd
  intro other chain hchain
  rw [hchains] at hchain
  split at hchain
  · next heq =>
    cases hchain
    exact .inr ⟨parent, ancestors, by rw [heq], chain?_mono_addLoader hadd hparent, heq ▸ hlt⟩
  · rcases h other chain hchain with hbootstrap | ⟨above, rest, hrest, habove, hless⟩
    · exact .inl hbootstrap
    · exact .inr ⟨above, rest, hrest, chain?_mono_addLoader hadd habove, hless⟩

theorem isRooted_start (files : FileTree) (bootstrap : ClassPath) :
    (start files bootstrap).IsRooted := by
  intro id chain hchain
  obtain ⟨loader, hloader, rfl⟩ := exists_loader_of_chain? hchain
  obtain ⟨hlt, rfl⟩ := List.getElem?_eq_some_iff.mp hloader
  have hzero : id = .bootstrap := by
    have hnat : id.toNat = 0 := by simpa [start] using hlt
    rw [LoaderIndex.bootstrap, ← hnat]
  exact .inl ⟨hzero, by simp [start, hzero]⟩

theorem Reached.isRooted (h : system.Reached) : system.IsRooted := by
  obtain ⟨workspace, hworkspace, rfl⟩ := h
  refine hworkspace.invariant (fun state => state.2.IsRooted)
    (fun files bootstrap _ => isRooted_start files bootstrap) fun before after change hrooted => ?_
  cases change with
  | lookup step =>
    cases step with
    | intern _ => exact hrooted
    | ask name hloader => exact isRooted_of_chain? (sameAnswers_ask hloader name).chain hrooted
  | addLoader _ hadd => exact isRooted_addLoader hadd hrooted
  | insertClass => exact isRooted_of_chain? (chain?_insertClass _ _ _) hrooted
  | setFiles | forgetProbes => exact isRooted_of_chain? (fun _ => rfl) hrooted
  | intern => exact hrooted

/-- A chain is the way to the bootstrap loader, and every loader on it was registered after those
that follow. -/
theorem IsRooted.delegates (h : system.IsRooted) (hchain : system.chain? id = some chain) :
    system.Delegates id chain ∧ chain.Pairwise fun loader above => above.toNat < loader.toNat := by
  -- the parent has a smaller number
  induction hnumber : id.toNat using Nat.strongRecOn generalizing id chain with
  | _ number ih =>
    obtain ⟨loader, hloader, hancestors⟩ := exists_loader_of_chain? hchain
    rcases h id chain hchain with ⟨rfl, rfl⟩ | ⟨parent, rest, rfl, hparent, hlt⟩
    · have hnone : loader.ancestors = [] := (List.cons.inj hancestors).2.symm
      have hroot : system.parent? .bootstrap = none := by simp [parent?, hloader, hnone]
      exact ⟨.bootstrap hloader hroot, List.pairwise_singleton _ _⟩
    · obtain ⟨hdelegates, hdescends⟩ := ih parent.toNat (hnumber ▸ hlt) hparent rfl
      obtain ⟨_, -, rfl⟩ := exists_loader_of_chain? hparent
      have habove : system.parent? id = some parent := by
        simp [parent?, hloader, ← (List.cons.inj hancestors).2]
      refine ⟨.child habove hdelegates, List.pairwise_cons.mpr ⟨?_, hdescends⟩⟩
      intro above hmem
      rcases List.mem_cons.mp hmem with rfl | hmem
      · exact hlt
      · exact Nat.lt_trans ((List.pairwise_cons.mp hdescends).1 above hmem) hlt

theorem Delegates.bootstrap_mem (h : system.Delegates id chain) : .bootstrap ∈ chain := by
  induction h with
  | bootstrap _ _ => exact List.mem_cons_self
  | child _ _ ih => exact List.mem_cons_of_mem _ ih

theorem IsRooted.chain?_of_append {before after : List LoaderIndex} (h : system.IsRooted)
    (hchain : system.chain? id = some (before ++ other :: after)) :
    system.chain? other = some (other :: after) := by
  induction before generalizing id with
  | nil =>
    obtain ⟨loader, -, hcons⟩ := exists_loader_of_chain? hchain
    have hid : other = id := (List.cons.inj hcons).1
    rw [hid]
    exact hid ▸ hchain
  | cons first before ih =>
    rcases h id _ hchain with ⟨-, hbootstrap⟩ | ⟨parent, rest, hcons, hparent, -⟩
    · simp at hbootstrap
    · have hrest : before ++ other :: after = rest := (List.cons.inj hcons).2
      exact ih (hrest ▸ hparent)

theorem IsRooted.chain?_of_reverse {above below : List LoaderIndex} (h : system.IsRooted)
    (hchain : system.chain? id = some chain) (hsplit : chain.reverse = above ++ other :: below) :
    chain = below.reverse ++ other :: above.reverse ∧
      system.chain? other = some (other :: above.reverse) := by
  have hparts : chain = below.reverse ++ other :: above.reverse := by
    rw [← List.reverse_reverse chain, hsplit]
    simp
  exact ⟨hparts, h.chain?_of_append (hparts ▸ hchain)⟩

theorem nodup_of_descends
    (h : chain.Pairwise fun loader above => above.toNat < loader.toNat) : chain.Nodup := by
  apply List.Pairwise.imp _ h
  intro loader above hlt heq
  rw [heq] at hlt
  exact Nat.lt_irrefl _ hlt

end LoaderSystem
end MethodLinkage
