import NameBinding.Main
import NameBinding.Proofs.ClearedSlots
import NameBinding.Proofs.DeclarationAccounts
import NameBinding.Proofs.DeclarationPoint
import NameBinding.Proofs.Denotation
import NameBinding.Proofs.DistinctNames
import NameBinding.Proofs.FirstBindings
import NameBinding.Proofs.FullNames
import NameBinding.Proofs.ImplicitBase
import NameBinding.Proofs.MemberOrder
import NameBinding.Proofs.NamelessUses
import NameBinding.Proofs.OuterReceivers
import NameBinding.Proofs.ReceiverSpellings
import NameBinding.Proofs.ReportedIssues
import NameBinding.Proofs.SiblingLocals
import NameBinding.Proofs.StoredNames
import NameBinding.Proofs.SuperclassChains
import NameBinding.Proofs.TypeNames
import NameBinding.Proofs.UnitOrder
import NameBinding.Proofs.UnresolvedNotes
import NameBinding.Proofs.UseCoverage
import NameBinding.Proofs.VariableTypes
import NameBinding.Proofs.VisitCounts
import NameBinding.Proofs.VisitedTrees
import NameBinding.Proofs.WrittenTrees
import NameBinding.Syntax.Construct
