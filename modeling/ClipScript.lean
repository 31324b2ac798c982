import ClipScript.CommandLine.Run
import ClipScript.Main
import ClipScript.Web.Service
import ClipScript.Proofs.Matching.Outcome
import ClipScript.Proofs.Matching.Parameters
import ClipScript.Proofs.Matching.Reading
import ClipScript.Proofs.Directives.Slots
import ClipScript.Proofs.Directives.Conversions
import ClipScript.Proofs.Compilation.Building
import ClipScript.Proofs.Compilation.CommandLine
import ClipScript.Proofs.Script.Echo
import ClipScript.Proofs.Compilation.Failures
import ClipScript.Proofs.Cropping.Bounds
import ClipScript.Proofs.Cropping.Merging
import ClipScript.Proofs.Compilation.Outcomes
import ClipScript.Proofs.Json.Faults
import ClipScript.Proofs.Media.Reading
import ClipScript.Proofs.Web.Compiling
import ClipScript.Proofs.Matching.Cutting
import ClipScript.Proofs.Script.Appending
import ClipScript.Proofs.Filter.Scanning
import ClipScript.Proofs.Filter.Texts
import ClipScript.Proofs.Text.ShellReading
import ClipScript.Proofs.Script.Diagnostics
import ClipScript.Proofs.Cropping.Fitting
import ClipScript.Proofs.Json.RoundTrip
import ClipScript.Proofs.Compilation.Dependence
import ClipScript.Proofs.Web.Agreement
import ClipScript.Proofs.Web.Forms
import ClipScript.Proofs.Token.Spans
import ClipScript.Proofs.Token.Positions
import ClipScript.Proofs.CommandLine.Checking
import ClipScript.Proofs.CommandLine.Probing
import ClipScript.Proofs.Token.Styles
import ClipScript.Proofs.Script.Layouts
import ClipScript.Proofs.Compilation.Blocks
import ClipScript.Proofs.Script.Safety
import ClipScript.Proofs.Filter.Unquoting
import ClipScript.Proofs.Filter.Labels
import ClipScript.Proofs.Script.Trims
import ClipScript.Proofs.Filter.Fading
import ClipScript.Proofs.Cropping.Edges
import ClipScript.Proofs.Compilation.Inputs
import ClipScript.Proofs.Media.RoundTrip
import ClipScript.Proofs.Filter.Digits
