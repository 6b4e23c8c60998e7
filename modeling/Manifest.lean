import Manifest.Main
import Manifest.Value.Comparison
import Manifest.Proofs.Document.Recognition
import Manifest.Proofs.Dispatch.Prediction
import Manifest.Proofs.Load.Append
import Manifest.Proofs.Token.Tiling
import Manifest.Proofs.Token.Unexpected
import Manifest.Proofs.Dispatch.Trace
import Manifest.Proofs.Document.Blame
import Manifest.Proofs.Load.Failure
import Manifest.Proofs.Dispatch.Standard
import Manifest.Proofs.Document.Literal
import Manifest.Proofs.Load.Totality
import Manifest.Proofs.Dispatch.Selection
import Manifest.Proofs.Load.Confinement
import Manifest.Proofs.Document.Viability
import Manifest.Proofs.Number.Fraction
import Manifest.Proofs.Document.Image
import Manifest.Proofs.Document.Printing
import Manifest.Proofs.Dispatch.Idempotence
import Manifest.Proofs.Token.Spacing
import Manifest.Proofs.Document.Separators
import Manifest.Proofs.Document.Places
import Manifest.Proofs.Load.Layout
import Manifest.Proofs.Json.Number
import Manifest.Proofs.Json.Text
import Manifest.Proofs.Json.RoundTrip
import Manifest.Proofs.Json.Projection
import Manifest.Proofs.Load.Diagnosis
import Manifest.Proofs.Load.Directive
import Manifest.Proofs.Document.Point
import Manifest.Proofs.Json.Float
import Manifest.Proofs.Json.Finite
import Manifest.Proofs.CommandLine.Run
import Manifest.Proofs.Dispatch.Independence
import Manifest.Proofs.Dispatch.Taking
import Manifest.Proofs.Load.Refusal
import Manifest.Proofs.Text.Location
import Manifest.Proofs.Value.Lookup
import Manifest.Proofs.Call.Agreement
import Manifest.Proofs.Number.Grid
import Manifest.Proofs.Number.Candidate
import Manifest.Proofs.Number.Twice
import Manifest.Proofs.Number.Fewest
import Manifest.Proofs.Dispatch.Number
import Manifest.Proofs.Load.Number
import Manifest.Proofs.Number.Edge
import Manifest.Proofs.Number.Neighbours
import Manifest.Proofs.Number.Script
import Manifest.Proofs.Document.Cursor
