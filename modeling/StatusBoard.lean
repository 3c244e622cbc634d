import StatusBoard.Document
import StatusBoard.Session
import StatusBoard.Proofs.Access
import StatusBoard.Proofs.Binary64.Spacing
import StatusBoard.Proofs.Binary64.Written
import StatusBoard.Proofs.Calendar.Written
import StatusBoard.Proofs.Classifier
import StatusBoard.Proofs.Filter.Dimension
import StatusBoard.Proofs.Filter.LetterCase
import StatusBoard.Proofs.Filter.Lists
import StatusBoard.Proofs.Filter.Parse
import StatusBoard.Proofs.Filter.Query
import StatusBoard.Proofs.Hierarchy.Depth
import StatusBoard.Proofs.Hierarchy.Idempotence
import StatusBoard.Proofs.Hierarchy.LetterCase
import StatusBoard.Proofs.Hierarchy.Narrowing
import StatusBoard.Proofs.Hierarchy.Outage
import StatusBoard.Proofs.Hierarchy.Position
import StatusBoard.Proofs.Hierarchy.Pruning
import StatusBoard.Proofs.Hierarchy.Reads
import StatusBoard.Proofs.Hierarchy.Visit
import StatusBoard.Proofs.Json.Written
import StatusBoard.Proofs.Marker.Index
import StatusBoard.Proofs.Marker.Label
import StatusBoard.Proofs.Marker.Order
import StatusBoard.Proofs.Marker.Scan
import StatusBoard.Proofs.Sample.LetterCase
import StatusBoard.Proofs.Sample.Record
import StatusBoard.Proofs.Session.Classification
import StatusBoard.Proofs.Session.History
import StatusBoard.Proofs.Session.Isolation
import StatusBoard.Proofs.Session.Lookup
import StatusBoard.Proofs.Session.Records
import StatusBoard.Proofs.Session.Step
import StatusBoard.Proofs.Text.Blank
import StatusBoard.Proofs.Text.Cut
import StatusBoard.Proofs.Text.Lowercase
import StatusBoard.Proofs.Threshold.Canonical
import StatusBoard.Proofs.Threshold.Departure
import StatusBoard.Proofs.Threshold.Fragments
import StatusBoard.Proofs.Threshold.Nearest
import StatusBoard.Proofs.Threshold.Nudge
import StatusBoard.Proofs.Threshold.Overlap
import StatusBoard.Proofs.Threshold.Permutation
import StatusBoard.Proofs.Threshold.Precedence
import StatusBoard.Proofs.Threshold.Remainder
import StatusBoard.Proofs.Threshold.Search
import StatusBoard.Proofs.Threshold.Sweep
import StatusBoard.Proofs.Threshold.Termination
