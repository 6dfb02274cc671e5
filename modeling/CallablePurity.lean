import CallablePurity.Analysis
import CallablePurity.LiteralBinding
import CallablePurity.Proofs.Walk.Pruning
import CallablePurity.Report.Console
import CallablePurity.Tree.Draft
import CallablePurity.Proofs.Walk.Located
import CallablePurity.Proofs.Outcome
import CallablePurity.Proofs.OwnVerdict
import CallablePurity.Proofs.CallTargets
import CallablePurity.Proofs.TypeMembers
import CallablePurity.Proofs.CallGraph
import CallablePurity.Proofs.Soundness
import CallablePurity.Proofs.DepthLimit
import CallablePurity.Proofs.Walk.Address
import CallablePurity.Proofs.Walk.Exactness
import CallablePurity.Proofs.Explanation
import CallablePurity.Proofs.KnownTexts
import CallablePurity.Proofs.Monotonicity
import CallablePurity.Proofs.DepthCut
import CallablePurity.Proofs.Composition
import CallablePurity.Proofs.Narrowing
import CallablePurity.Proofs.NestedScopes
import CallablePurity.Proofs.LiteralRule
import CallablePurity.Proofs.Nesting
import CallablePurity.Proofs.Json.Reader
import CallablePurity.Proofs.Json.RoundTrip
import CallablePurity.Proofs.ReportDocument
import CallablePurity.Proofs.Tree.Schema
import CallablePurity.Proofs.Tree.Checking
import CallablePurity.Proofs.Tree.Construction
import CallablePurity.Proofs.ElementFetches
import CallablePurity.Proofs.OtherWrites
import CallablePurity.Proofs.ResolutionFaults
import CallablePurity.Proofs.Walk.Layers
import CallablePurity.Proofs.ReceiverClasses
import CallablePurity.Proofs.TypeUnions
import CallablePurity.Proofs.ConfiguredNames
import CallablePurity.Proofs.IdentityKeys
import CallablePurity.Proofs.TypePrecedence
import CallablePurity.Proofs.OverwrittenVariables
