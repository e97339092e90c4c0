import WidgetFlow.Main
import WidgetFlow.Proofs.Containment
import WidgetFlow.Proofs.Exactness
import WidgetFlow.Proofs.Passes
import WidgetFlow.Proofs.Queries
import WidgetFlow.Proofs.Repetition
import WidgetFlow.Proofs.Termination
import WidgetFlow.Solution.Query
import WidgetFlow.Proofs.Monotonicity
import WidgetFlow.Proofs.Stability
import WidgetFlow.Proofs.Retries
import WidgetFlow.Proofs.Shape
import WidgetFlow.Proofs.Typing
import WidgetFlow.Proofs.Planting
import WidgetFlow.Proofs.Counting
import WidgetFlow.Proofs.DialogCalls
import WidgetFlow.Proofs.Interning
import WidgetFlow.Proofs.References
import WidgetFlow.Proofs.Registration
import WidgetFlow.Proofs.CallBinding
import WidgetFlow.Proofs.Copying
import WidgetFlow.Proofs.Captions
import WidgetFlow.Proofs.Reproduction
import WidgetFlow.Proofs.Routes
import WidgetFlow.Proofs.NearestId
import WidgetFlow.Proofs.Dispatching
import WidgetFlow.Proofs.History
import WidgetFlow.Proofs.IdQueries
import WidgetFlow.Proofs.Traces
import WidgetFlow.Proofs.DialogContent
import WidgetFlow.Proofs.Arrays
import WidgetFlow.Proofs.ItemLayouts
import WidgetFlow.Proofs.Outlines
import WidgetFlow.Proofs.Summaries
import WidgetFlow.Proofs.FreshLocals
import WidgetFlow.Proofs.Ties
