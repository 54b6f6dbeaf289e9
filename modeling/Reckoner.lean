import Reckoner.Text.Numeral
import Reckoner.Text.Case
import Reckoner.Text.Quoted
import Reckoner.Text.Path
import Reckoner.Binary64.Text
import Reckoner.Json.Writer
import Reckoner.Json.Display
import Reckoner.Json.Reader
import Reckoner.Validation
import Reckoner.Expression.Evaluation
import Reckoner.Expression.Draft
import Reckoner.Expression.Json
import Reckoner.Log.Journal
import Reckoner.Settings
import Reckoner.Release
import Reckoner.Service
import Reckoner.Web.App
import Reckoner.Terminal.Run
import Reckoner.Main
import Reckoner.Proofs.Expression.Grammar
import Reckoner.Proofs.Expression.Reading
import Reckoner.Proofs.Expression.Parsing
import Reckoner.Proofs.Expression.Blame
import Reckoner.Proofs.Expression.Acceptance
import Reckoner.Proofs.Expression.Unambiguity
import Reckoner.Proofs.Binary64.Rounding
import Reckoner.Proofs.Binary64.Shortest
import Reckoner.Proofs.Text.Numeral
import Reckoner.Proofs.Expression.Literal
import Reckoner.Proofs.Expression.Source
import Reckoner.Proofs.Expression.Rendering
import Reckoner.Proofs.Expression.Tiling
import Reckoner.Proofs.Binary64.Text
import Reckoner.Proofs.History.Refinement
import Reckoner.Proofs.History.Holding
import Reckoner.Proofs.Web.Body
import Reckoner.Proofs.Web.History
import Reckoner.Proofs.Expression.Origin
import Reckoner.Proofs.Expression.Evaluation
import Reckoner.Proofs.Expression.Fault
import Reckoner.Proofs.Expression.Misplacement
import Reckoner.Proofs.Binary64.SignedZero
import Reckoner.Proofs.Expression.Canonical
import Reckoner.Proofs.Expression.Excess
import Reckoner.Proofs.Expression.Consumption
import Reckoner.Proofs.Expression.Moved
import Reckoner.Proofs.Expression.Grouping
import Reckoner.Proofs.Service.Step
import Reckoner.Proofs.Service.Recording
import Reckoner.Proofs.Service.Outcome
import Reckoner.Proofs.Service.Atomicity
import Reckoner.Proofs.Service.Coherence
import Reckoner.Proofs.Service.Paging
import Reckoner.Proofs.Json.Standard
import Reckoner.Proofs.Web.Sent
import Reckoner.Proofs.Web.Listing
import Reckoner.Proofs.Web.Calculation
import Reckoner.Proofs.Log.Archive
import Reckoner.Proofs.Log.Rotation
import Reckoner.Proofs.Json.Visible
import Reckoner.Proofs.Json.Limits
import Reckoner.Proofs.Service.Line
import Reckoner.Proofs.Binary64.Printing
import Reckoner.Proofs.Expression.Exactness
import Reckoner.Proofs.Text.Blank
import Reckoner.Proofs.Text.Integer
import Reckoner.Proofs.Expression.Machine
import Reckoner.Proofs.Expression.Progress
import Reckoner.Proofs.Settings
