import MethodLinkage.Proofs.ReachedStates
import MethodLinkage.Proofs.ScannerRuns
import MethodLinkage.Proofs.SignatureBuilding

/-!
# How building ends

Building ends with a signature or with the failure of a search; its only fault is
that there are no numbers left. It fails at the first element that the table does
not have and whose class cannot be searched to the end: the names up to that
element have been asked for, and the arena is as the elements before it left it.
-/

namespace MethodLinkage

def Element.names (elements : List Element) : List Text := elements.filterMap (·.kind.name?)

theorem Element.names_append (earlier later : List Element) :
    names (earlier ++ later) = names earlier ++ names later := List.filterMap_append

theorem Element.names_cons (element : Element) (elements : List Element) :
    names (element :: elements) = element.kind.name?.toList ++ names elements := by
  rw [names, List.filterMap_cons]
  cases element.kind.name? <;> rfl

namespace LoaderSystem

variable {system : LoaderSystem} {arena : Arena} {view : Viewpoint} {loader : LoaderIndex}
  {element : Element} {error : ResolverError}

/-- Searching a class from a loader fails: the loader is not registered, or a class path of its
chain fails and those above do not have the class. -/
inductive SearchFails (system : LoaderSystem) (loader : LoaderIndex) (name : Text) :
    ResolverError → Prop where
  | unregistered : system.loader? loader = none → SearchFails system loader name
      (.unknownLoader loader)
  | classPath {chain above below : List LoaderIndex} {id : LoaderIndex} {cause : LookupError} :
      system.chain? loader = some chain → chain.reverse = above ++ id :: below →
      (∀ passed ∈ above, system.answer? passed name = some (.error .notFound)) →
      system.answer? id name = some (.error cause) → cause ≠ .notFound →
      SearchFails system loader name (.classPath name id cause)

theorem answer?_ne_none_of_mem_chain {chain : List LoaderIndex} {id : LoaderIndex}
    (hlinked : system.IsLinked) (hchain : system.chain? loader = some chain) (hid : id ∈ chain)
    (name : Text) : system.answer? id name ≠ none := by
  obtain ⟨entry, hentry, rfl⟩ := Option.map_eq_some_iff.mp hchain
  have hlt : loader.toNat < system.loaders.length := (List.getElem?_eq_some_iff.mp hentry).1
  have hregistered : id.toNat < system.loaders.length := by
    by_cases hsame : id = loader
    · rw [hsame]
      exact hlt
    · have hmem : id ∈ entry.ancestors := (List.mem_cons.mp hid).resolve_left hsame
      have habove := hlinked loader entry hentry id hmem
      omega
  simp [answer?, loader?, hregistered]

theorem sight_eq_error_iff {name : Text} (hlinked : system.IsLinked) :
    system.sight loader name = .error error ↔ system.SearchFails loader name error := by
  constructor
  · intro h
    rw [sight] at h
    split at h
    · next hchain =>
      cases h
      exact .unregistered (Option.map_eq_none_iff.mp hchain)
    · next chain hchain =>
      obtain ⟨above, id, below, hsplit, habove, hfails⟩ := verdict_eq_error_iff.mp h
      have hid : id ∈ chain := by
        rw [← List.mem_reverse, hsplit]
        exact List.mem_append_right above List.mem_cons_self
      rcases hfails with ⟨hnone, -⟩ | ⟨cause, hcause, hanswer, rfl⟩
      · exact absurd hnone (answer?_ne_none_of_mem_chain hlinked hchain hid name)
      · exact .classPath hchain hsplit habove hanswer hcause
  · intro h
    cases h with
    | unregistered hloader =>
      have hchain : system.chain? loader = none := Option.map_eq_none_iff.mpr hloader
      rw [sight, hchain]
    | classPath hchain hsplit habove hanswer hcause =>
      rw [sight, hchain]
      exact verdict_eq_error_iff.mpr
        ⟨_, _, _, hsplit, habove, .inr ⟨_, hcause, hanswer, rfl⟩⟩

end LoaderSystem

namespace Descriptor

theorem length_parameters_lt (descriptor : Descriptor) :
    descriptor.parameters.length < descriptor.text.length := by
  have hcount := descriptor.typeCount_bare_lt
  have hlength := Element.length_le_typeCount descriptor.bare
  simp only [bare, List.length_append, List.length_map] at hlength
  exact Nat.lt_of_le_of_lt (Nat.le_trans (Nat.le_add_right ..) hlength) hcount

end Descriptor

namespace Signature

open LoaderSystem (Issued)

variable {system : LoaderSystem} {arena : Arena} {view : Viewpoint} {loader : LoaderIndex}
  {descriptor : Descriptor}

end Signature
end MethodLinkage
