import LineScript.Main
import LineScript.Enclosed
import LineScript.Page
import LineScript.RunQueue
import LineScript.Stmt.Listing
import LineScript.Proofs.StepLimit
import LineScript.Proofs.Capture
import LineScript.Proofs.RoundTrip
import LineScript.Proofs.TokenPlace
import LineScript.Proofs.FaultOrigin
import LineScript.Proofs.Passage
import LineScript.Proofs.Entry
import LineScript.Proofs.FaultPlace
import LineScript.Proofs.LineOrder
import LineScript.Proofs.Coverage
import LineScript.Proofs.Moved
import LineScript.Proofs.Relocation
import LineScript.Proofs.Isolation
import LineScript.Proofs.Wrapping
import LineScript.Proofs.FormValue
import LineScript.Proofs.NonNegative
import LineScript.Proofs.Exact
import LineScript.Proofs.Serving
import LineScript.Proofs.Aside
import LineScript.Proofs.Bare
import LineScript.Proofs.Spread
import LineScript.Proofs.Annotation
import LineScript.Proofs.DepthScan
import LineScript.Proofs.Answering
import LineScript.Proofs.WireRoundTrip
import LineScript.Proofs.FrontEnds
import LineScript.Proofs.BlockEnd
import LineScript.Proofs.Translation
import LineScript.Proofs.SourceOrder
import LineScript.Proofs.LongestMatch
import LineScript.Proofs.Interleaving
import LineScript.Proofs.Respacing
import LineScript.Proofs.Grammar
import LineScript.Proofs.Growth
import LineScript.Proofs.CountingLoop
import LineScript.Proofs.Reporting
import LineScript.Proofs.LineEnding
import LineScript.Proofs.Snippet
import LineScript.Proofs.Color
import LineScript.Proofs.FlagOrder
import LineScript.Proofs.ByteOrder
import LineScript.Proofs.FiniteMap
import LineScript.Proofs.Unclosed
import LineScript.Proofs.Progress
