import MethodLinkage.Workspace
import MethodLinkage.Descriptor.Scanner
import MethodLinkage.Proofs.ScannerRuns
import MethodLinkage.Proofs.DescriptorGrammar
import MethodLinkage.Proofs.ArenaUnfolding
import MethodLinkage.Proofs.ClassPathAnswers
import MethodLinkage.Proofs.ParentFirstSearch
import MethodLinkage.Proofs.CursorLoops
import MethodLinkage.Proofs.ResolutionSteps
import MethodLinkage.Proofs.ReachedStates
import MethodLinkage.Proofs.ElementResolution
import MethodLinkage.Proofs.ResolverCorrespondence
import MethodLinkage.Proofs.SignatureBuilding
import MethodLinkage.Proofs.SignatureSpelling
import MethodLinkage.Proofs.BuildOutcome
import MethodLinkage.Proofs.CrossContextEquality
import MethodLinkage.Proofs.LazyMatching
import MethodLinkage.Proofs.ScannedElements
import MethodLinkage.Proofs.DelegationChains
import MethodLinkage.Proofs.ParentFirstResolution
import MethodLinkage.Proofs.IssuedNumbers
import MethodLinkage.Proofs.ArenaBijection
import MethodLinkage.Proofs.SelfResolution
import MethodLinkage.Proofs.ArrayCoherence
import MethodLinkage.Proofs.DirectoryLookups
import MethodLinkage.Proofs.ArenaGrowth
import MethodLinkage.Proofs.ArenaRenaming
import MethodLinkage.Proofs.PlacementOrder
import MethodLinkage.Proofs.BuildOrder
import MethodLinkage.Proofs.LastingMeanings
import MethodLinkage.Proofs.TypeIdentity
import MethodLinkage.Proofs.Rebuilding
import MethodLinkage.Proofs.LoaderIsolation
import MethodLinkage.Proofs.CacheHistories
import MethodLinkage.Proofs.TruthfulCaches
import MethodLinkage.Proofs.InvisibleCaches
import MethodLinkage.Proofs.CursorLockstep
import MethodLinkage.Proofs.LazyCursors
import MethodLinkage.Proofs.FirstDifference
import MethodLinkage.Proofs.AdvancedCursors
import MethodLinkage.Proofs.TracelessResolution
import MethodLinkage.Proofs.SignatureEquality
import MethodLinkage.Proofs.ArrayTowers
import MethodLinkage.Proofs.ArgumentSlots
import MethodLinkage.Proofs.MissingTypes
import MethodLinkage.Proofs.GrowingClassPaths
import MethodLinkage.Proofs.ClassOrigins
import MethodLinkage.Proofs.CursorsAsLists
import MethodLinkage.Proofs.DirectoryPaths
import MethodLinkage.Proofs.NestedLoaders
import MethodLinkage.Proofs.FoundedArenas
import MethodLinkage.Proofs.ParentLinks
import MethodLinkage.Proofs.SelfDelimitingElements
