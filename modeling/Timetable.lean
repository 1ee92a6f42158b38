import Timetable.Calendar.Date
import Timetable.Calendar.Iso8601
import Timetable.Calendar.Period
import Timetable.Calendar.Reading
import Timetable.Calendar.Rfc3339
import Timetable.Calendar.Year
import Timetable.Command
import Timetable.CommandLine.Arguments
import Timetable.CommandLine.Invocation
import Timetable.CommandLine.Run
import Timetable.Duration.Basic
import Timetable.Duration.Error
import Timetable.Duration.Evaluate
import Timetable.Duration.Json
import Timetable.Duration.Parser
import Timetable.Duration.Printer
import Timetable.Duration.Shorthand
import Timetable.Engine
import Timetable.Error
import Timetable.Expression
import Timetable.Field.Basic
import Timetable.Field.Error
import Timetable.Field.Parser
import Timetable.Journal
import Timetable.Json.Basic
import Timetable.Json.Decode
import Timetable.Json.Numeral
import Timetable.Json.Shortest
import Timetable.Schedule.Basic
import Timetable.Schedule.Clauses
import Timetable.Schedule.Json
import Timetable.Schedule.Parser
import Timetable.Search.Move
import Timetable.Search.Occurrence
import Timetable.Search.Plan
import Timetable.Search.Progress
import Timetable.Search.Seek
import Timetable.Settings.Basic
import Timetable.Settings.Issue
import Timetable.Settings.Json
import Timetable.Settings.Toml
import Timetable.Text.Blank
import Timetable.Text.Hidden
import Timetable.Text.Numeral
import Timetable.Text.Quoted
import Timetable.Text.Split
import Timetable.Toml.Basic
import Timetable.Toml.Parser
import Timetable.Toml.Printer
import Timetable.Toml.Scalar
import Timetable.Toml.Table
import Timetable.Zone.Basic
import Timetable.Zone.Named
import Timetable.Zone.Known
import Timetable.Zone.Table
import Timetable.Main
import Timetable.Proofs.Field.Values
import Timetable.Proofs.Calendar.Order
import Timetable.Proofs.Search.Admits
import Timetable.Proofs.Search.Forward
import Timetable.Proofs.Search.Backward
import Timetable.Proofs.Zone.Face
import Timetable.Proofs.Search.FirstMatch
import Timetable.Proofs.Engine.Basic
import Timetable.Proofs.Engine.Next
import Timetable.Proofs.Search.LastMatch
import Timetable.Proofs.Engine.Prev
import Timetable.Proofs.Duration.WellFormed
import Timetable.Proofs.Duration.RoundTrip
import Timetable.Proofs.Field.Normal
import Timetable.Proofs.Schedule.Sound
import Timetable.Proofs.Schedule.Words
import Timetable.Proofs.Schedule.Clauses
import Timetable.Proofs.Schedule.RoundTrip
import Timetable.Proofs.Schedule.Obtainable
import Timetable.Proofs.Engine.Compile
import Timetable.Proofs.Field.Denotation
import Timetable.Proofs.Engine.Matching
import Timetable.Proofs.Schedule.Agreement
import Timetable.Proofs.Engine.Canonical
import Timetable.Proofs.Calendar.Months
import Timetable.Proofs.Engine.Inverse
import Timetable.Proofs.Engine.Run
import Timetable.Proofs.Schedule.Spelling
import Timetable.Proofs.Calendar.Advance
import Timetable.Proofs.Zone.Resolve
import Timetable.Proofs.Engine.Ending
import Timetable.Proofs.Calendar.Cycle
import Timetable.Proofs.Engine.Complete
import Timetable.Proofs.Json.Members
import Timetable.Proofs.Schedule.Json
import Timetable.Proofs.Schedule.Malformed
import Timetable.Proofs.Command.ExitCode
import Timetable.Proofs.Duration.Measures
import Timetable.Proofs.Duration.Grammar
import Timetable.Proofs.Calendar.Tiling
import Timetable.Proofs.Duration.Evaluate
import Timetable.Proofs.Duration.Reach
import Timetable.Proofs.Duration.Anchored
import Timetable.Proofs.Duration.Overflow
import Timetable.Proofs.Zone.Meaning
import Timetable.Proofs.Engine.Boundary
import Timetable.Proofs.Duration.Stepwise
import Timetable.Proofs.Field.Numeric
import Timetable.Proofs.Calendar.Weekdays
import Timetable.Proofs.Field.DayTerms
import Timetable.Proofs.Field.QuestionMark
import Timetable.Proofs.Field.Respelling
import Timetable.Proofs.Field.Names
import Timetable.Proofs.Schedule.Arrangement
import Timetable.Proofs.Schedule.Trailing
import Timetable.Proofs.Search.Scan
import Timetable.Proofs.Search.Edge
import Timetable.Proofs.Engine.Edge
import Timetable.Proofs.Calendar.LeapYears
import Timetable.Proofs.Engine.LeapDays
import Timetable.Proofs.Calendar.Stamp
import Timetable.Proofs.Command.Printed
import Timetable.Proofs.Engine.Length
import Timetable.Proofs.Calendar.MonthEnds
