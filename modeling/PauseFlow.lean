import PauseFlow.Assist.Stages
import PauseFlow.Logging.Filter
import PauseFlow.Pattern.Body
import PauseFlow.Settings.Loading
import PauseFlow.Settings.Schema
import PauseFlow.Proofs.Data.Lookup
import PauseFlow.Proofs.Abstract.Regular
import PauseFlow.Proofs.Variable.Qualification
import PauseFlow.Proofs.Flow.Assignment
import PauseFlow.Proofs.Flow.Hints
import PauseFlow.Proofs.Assist.Seeding
import PauseFlow.Proofs.Memory.Coherence
import PauseFlow.Proofs.Flow.Reachability
import PauseFlow.Proofs.Flow.Survival
import PauseFlow.Proofs.Debuggee.Conduct
import PauseFlow.Proofs.Assist.Reading
import PauseFlow.Proofs.Assist.Undisturbed
import PauseFlow.Proofs.Hierarchy.OpenWorld
import PauseFlow.Proofs.Assist.Capping
import PauseFlow.Proofs.Assist.DerivedFields
import PauseFlow.Proofs.Snapshot.Batching
import PauseFlow.Proofs.Assist.ReadAccess
import PauseFlow.Proofs.Memory.Comparison
import PauseFlow.Proofs.Memory.Integers
import PauseFlow.Proofs.Memory.Dependents
import PauseFlow.Proofs.Memory.NarrowingOrder
import PauseFlow.Proofs.Abstract.Canonical
import PauseFlow.Proofs.Memory.NumericLearning
import PauseFlow.Proofs.Memory.Symmetry
import PauseFlow.Proofs.Flow.Stopping
import PauseFlow.Proofs.Assist.Repetition
import PauseFlow.Proofs.Snapshot.EnumNaming
import PauseFlow.Proofs.Assist.Hiding
import PauseFlow.Proofs.Assist.Partition
import PauseFlow.Proofs.Snapshot.LoaderAncestry
import PauseFlow.Proofs.Abstract.Rooting
import PauseFlow.Proofs.Hierarchy.Descriptor
import PauseFlow.Proofs.Flow.Verdicts
import PauseFlow.Proofs.Debuggee.Writing
import PauseFlow.Proofs.Hierarchy.Closure
import PauseFlow.Proofs.Variable.Interning
import PauseFlow.Proofs.Assist.Staleness
import PauseFlow.Proofs.Settings.Agreement
