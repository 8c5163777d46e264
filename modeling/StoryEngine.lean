import StoryEngine.Engine.Basic
import StoryEngine.Stock.Table
import StoryEngine.Proofs.Expression.Tree
import StoryEngine.Proofs.Expression.Lexing
import StoryEngine.Proofs.Expression.Longest
import StoryEngine.Proofs.Expression.Munch
import StoryEngine.Proofs.Expression.Joining
import StoryEngine.Proofs.Expression.Reading
import StoryEngine.Proofs.Expression.Meaning
import StoryEngine.Proofs.Expression.Outline
import StoryEngine.Proofs.Expression.Grammar
import StoryEngine.Proofs.Expression.Parsing
import StoryEngine.Proofs.Expression.Malformed
import StoryEngine.Proofs.Expression.Acceptance
import StoryEngine.Proofs.Engine.Calls
import StoryEngine.Proofs.Engine.Suspension
import StoryEngine.Proofs.Engine.Gates
import StoryEngine.Proofs.Engine.Dispatch
import StoryEngine.Proofs.Engine.Processing
import StoryEngine.Proofs.Engine.Occurrence
import StoryEngine.Proofs.Signal.Arrivals
import StoryEngine.Proofs.Catalog.History
import StoryEngine.Proofs.Catalog.Listing
import StoryEngine.Proofs.Catalog.Leftovers
import StoryEngine.Proofs.Engine.Setup
import StoryEngine.Proofs.Engine.OwnTrigger
import StoryEngine.Proofs.Engine.Stopping
import StoryEngine.Proofs.Engine.Chronicle
import StoryEngine.Proofs.Engine.Exclusion
import StoryEngine.Proofs.Engine.Display
import StoryEngine.Proofs.Engine.Journal
import StoryEngine.Proofs.Engine.Batches
import StoryEngine.Proofs.Engine.Disabled
import StoryEngine.Proofs.Engine.Failing
import StoryEngine.Proofs.Expression.Counter
import StoryEngine.Proofs.Expression.Completion
import StoryEngine.Proofs.Expression.Levels
import StoryEngine.Proofs.Expression.Depth
import StoryEngine.Proofs.Expression.Walk
import StoryEngine.Proofs.Expression.Progress
import StoryEngine.Proofs.Number.Order
import StoryEngine.Proofs.Number.Clamp
import StoryEngine.Proofs.Number.Value
import StoryEngine.Proofs.Number.Rounding
import StoryEngine.Proofs.Number.Modulo
import StoryEngine.Proofs.Engine.Probabilities
import StoryEngine.Proofs.Engine.Restart
import StoryEngine.Proofs.Param.Reading
import StoryEngine.Proofs.Event.Reading
import StoryEngine.Proofs.Store.Saving
import StoryEngine.Proofs.Store.Limits
import StoryEngine.Proofs.Store.Items
import StoryEngine.Proofs.Store.Total
