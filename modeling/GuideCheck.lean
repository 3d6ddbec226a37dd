import GuideCheck.Main
import GuideCheck.Schema.Compile
import GuideCheck.Proofs.Feed
import GuideCheck.Proofs.Grouping
import GuideCheck.Proofs.Placement
import GuideCheck.Proofs.Separation
import GuideCheck.Proofs.Compilation
import GuideCheck.Proofs.Validation
import GuideCheck.Proofs.Escaping
import GuideCheck.Proofs.Declaration
import GuideCheck.Proofs.Acceptance
import GuideCheck.Proofs.ReadErrors
import GuideCheck.Proofs.Markers
import GuideCheck.Proofs.Reports
import GuideCheck.Proofs.Reordering
import GuideCheck.Proofs.Lockstep
import GuideCheck.Proofs.Locality
import GuideCheck.Proofs.Reading
import GuideCheck.Proofs.CarriageReturns
import GuideCheck.Proofs.LineEndings
import GuideCheck.Proofs.Rounding
import GuideCheck.Proofs.Loosening
import GuideCheck.Proofs.Silencing
import GuideCheck.Proofs.Collecting
import GuideCheck.Proofs.ExitCodes
import GuideCheck.Proofs.RoundTrip
import GuideCheck.Proofs.Framing
import GuideCheck.Proofs.Pointers
import GuideCheck.Proofs.Keys
import GuideCheck.Proofs.Governing
import GuideCheck.Proofs.Violations
import GuideCheck.Proofs.Pairs
import GuideCheck.Proofs.LoneSurrogates
import GuideCheck.Proofs.Encoding
import GuideCheck.Proofs.Scanning
import GuideCheck.Proofs.Links
import GuideCheck.Proofs.References
import GuideCheck.Proofs.Sending
import GuideCheck.Proofs.KeyLines
import GuideCheck.Proofs.Wrapping
import GuideCheck.Proofs.TreeProblems
import GuideCheck.Proofs.Stopping
import GuideCheck.Proofs.Columns
import GuideCheck.Proofs.TextReports
import GuideCheck.Proofs.Bounds
import GuideCheck.Proofs.SchemaFaults
import GuideCheck.Proofs.Appending
import GuideCheck.Proofs.Enumeration
import GuideCheck.Proofs.Listing
import GuideCheck.Proofs.Browsing
import GuideCheck.Proofs.Saving
import GuideCheck.Proofs.Routes
import GuideCheck.Proofs.Commands
