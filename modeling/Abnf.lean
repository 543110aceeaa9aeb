import Abnf.Main
import Abnf.Service
import Abnf.Proofs.Boundary
import Abnf.Proofs.Spelling
import Abnf.Proofs.Reading
import Abnf.Proofs.Tiling
import Abnf.Proofs.Pieces
import Abnf.Proofs.Positions
import Abnf.Proofs.Reports
import Abnf.Proofs.Pulling
import Abnf.Proofs.Schedule
import Abnf.Proofs.Lines
import Abnf.Proofs.LineFeeds
import Abnf.Proofs.Joining
import Abnf.Proofs.Caret
import Abnf.Proofs.Circles
import Abnf.Proofs.Logging
import Abnf.Proofs.Verdict
import Abnf.Proofs.Mandates
import Abnf.Proofs.Marks
import Abnf.Proofs.Moves
import Abnf.Proofs.Rewinding
import Abnf.Proofs.Uses
import Abnf.Proofs.Peeking
import Abnf.Proofs.Rounds
import Abnf.Proofs.SinkPaths
import Abnf.Proofs.Rings
import Abnf.Proofs.Acts
import Abnf.Proofs.Delivery
import Abnf.Proofs.OpenSpans
import Abnf.Proofs.Appending
import Abnf.Proofs.RingHistory
import Abnf.Proofs.JsonTexts
import Abnf.Proofs.Unescaping
import Abnf.Proofs.OutputRows
import Abnf.Proofs.Running
import Abnf.Proofs.Outcome
import Abnf.Proofs.LogSettings
import Abnf.Proofs.Complaints
import Abnf.Proofs.SpanBalance
import Abnf.Proofs.ExcerptWindow
import Abnf.Proofs.LineCuts
import Abnf.Proofs.ScannedLines
import Abnf.Proofs.Notices
import Abnf.Proofs.DirectRings
import Abnf.Proofs.Transcript
import Abnf.Proofs.Openings
import Abnf.Proofs.Precedence
import Abnf.Proofs.FlatLoggers
import Abnf.Proofs.Setups
import Abnf.Proofs.HandingOn
import Abnf.Proofs.LogFiles
import Abnf.Proofs.JsonReading
import Abnf.Proofs.JsonPassing
import Abnf.Proofs.ShapeReading
import Abnf.Proofs.RecordMembers
import Abnf.Proofs.ProjectMembers
import Abnf.Proofs.ReadingBack
import Abnf.Proofs.KindCounts
import Abnf.Proofs.ProjectPaths
import Abnf.Proofs.Stopgaps
import Abnf.Proofs.Stamps
