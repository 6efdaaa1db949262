import ZoneTables.Anchor
import ZoneTables.Buffer.Candidate
import ZoneTables.Buffer.Error
import ZoneTables.Buffer.Replay
import ZoneTables.Buffer.Size
import ZoneTables.Buffer.Span
import ZoneTables.Calendar.Date
import ZoneTables.Calendar.DaySpec
import ZoneTables.Calendar.Month
import ZoneTables.Calendar.Weekday
import ZoneTables.Calendar.Year
import ZoneTables.Choice
import ZoneTables.Clock
import ZoneTables.CommandLine.Arguments
import ZoneTables.CommandLine.FileTree
import ZoneTables.CommandLine.Path
import ZoneTables.CommandLine.Run
import ZoneTables.CommandLine.Settings
import ZoneTables.Compilation
import ZoneTables.Database.Anomaly
import ZoneTables.Database.Basic
import ZoneTables.Database.Comments
import ZoneTables.Database.Finding
import ZoneTables.Database.OfSource
import ZoneTables.Database.Options
import ZoneTables.Database.Record
import ZoneTables.Database.Reference
import ZoneTables.Database.Resolution
import ZoneTables.Database.Review
import ZoneTables.Database.SimpleRules
import ZoneTables.Document.Basic
import ZoneTables.Document.Coding
import ZoneTables.Document.Decoding
import ZoneTables.Document.OfDatabase
import ZoneTables.Document.Text
import ZoneTables.Document.Version
import ZoneTables.Json
import ZoneTables.Log
import ZoneTables.Main
import ZoneTables.Name.Basic
import ZoneTables.Name.Fragment
import ZoneTables.Name.StringTable
import ZoneTables.NameMap
import ZoneTables.NameMap.Lookup
import ZoneTables.Report
import ZoneTables.Retention.Eras
import ZoneTables.Retention.Rules
import ZoneTables.Scope
import ZoneTables.Sort
import ZoneTables.Source.Error
import ZoneTables.Source.Field
import ZoneTables.Source.NameList
import ZoneTables.Source.Reader
import ZoneTables.Source.Record
import ZoneTables.Text.Blank
import ZoneTables.Text.Decimal
import ZoneTables.Text.Lines
import ZoneTables.Text.Quoted
import ZoneTables.Text.Visible
import ZoneTables.TimeFrame
import ZoneTables.Proofs.Buffer.Acceptance
import ZoneTables.Proofs.Buffer.Alike
import ZoneTables.Proofs.Buffer.Chain
import ZoneTables.Proofs.Buffer.Correspondence
import ZoneTables.Proofs.Buffer.KeptEras
import ZoneTables.Proofs.Buffer.Lookback
import ZoneTables.Proofs.Buffer.Overlap
import ZoneTables.Proofs.Buffer.Sizes
import ZoneTables.Proofs.Buffer.Spans
import ZoneTables.Proofs.Buffer.Truncation
import ZoneTables.Proofs.Buffer.Widening
import ZoneTables.Proofs.Buffer.Years
import ZoneTables.Proofs.Calendar.DayText
import ZoneTables.Proofs.Calendar.Days
import ZoneTables.Proofs.Calendar.Months
import ZoneTables.Proofs.Calendar.Order
import ZoneTables.Proofs.Calendar.YearStart
import ZoneTables.Proofs.Choice
import ZoneTables.Proofs.Clock
import ZoneTables.Proofs.Database.Accounts
import ZoneTables.Proofs.Database.Comments
import ZoneTables.Proofs.Database.Contents
import ZoneTables.Proofs.Database.Dates
import ZoneTables.Proofs.Database.EraOrder
import ZoneTables.Proofs.Database.Faults
import ZoneTables.Proofs.Database.Inclusion
import ZoneTables.Proofs.Database.Made
import ZoneTables.Proofs.Database.Parts
import ZoneTables.Proofs.Database.Places
import ZoneTables.Proofs.Database.PolicyShape
import ZoneTables.Proofs.Database.Provenance
import ZoneTables.Proofs.Database.References
import ZoneTables.Proofs.Database.Removals
import ZoneTables.Proofs.Database.Resolution
import ZoneTables.Proofs.Database.Simplicity
import ZoneTables.Proofs.Database.Survival
import ZoneTables.Proofs.Document.Arrangement
import ZoneTables.Proofs.Document.Coding
import ZoneTables.Proofs.Document.Lossless
import ZoneTables.Proofs.Positions
import ZoneTables.Proofs.Retention.Accuracy
import ZoneTables.Proofs.Retention.Covering
import ZoneTables.Proofs.Retention.Eras
import ZoneTables.Proofs.Retention.Lookback
import ZoneTables.Proofs.Retention.Nesting
import ZoneTables.Proofs.Retention.Rules
import ZoneTables.Proofs.Retention.Trimming
import ZoneTables.Proofs.Sort
import ZoneTables.Proofs.Source.Arrangement
import ZoneTables.Proofs.Source.Blocks
import ZoneTables.Proofs.Source.Counts
import ZoneTables.Proofs.Source.Fields
import ZoneTables.Proofs.Source.Grammar
import ZoneTables.Proofs.Source.Places
import ZoneTables.Proofs.Source.Reading
import ZoneTables.Proofs.Source.Recognition
import ZoneTables.Proofs.Source.WellFormed
import ZoneTables.Proofs.Success
import ZoneTables.Proofs.Text.Digits
import ZoneTables.Proofs.Buffer.Peaks
import ZoneTables.Proofs.Buffer.Ties
import ZoneTables.Proofs.Document.Uncoded
import ZoneTables.Proofs.Buffer.Renaming
import ZoneTables.Proofs.CommandLine.Replacement
import ZoneTables.Proofs.CommandLine.Outcome
import ZoneTables.Proofs.Retention.InForce
import ZoneTables.Proofs.Database.Merging
import ZoneTables.Proofs.Database.Notes
import ZoneTables.Proofs.Buffer.Chaining
import ZoneTables.Proofs.Retention.YearRules
import ZoneTables.Proofs.Database.Occurrences
import ZoneTables.Proofs.Buffer.LatestTimes
import ZoneTables.Proofs.Retention.Anchor
import ZoneTables.Proofs.Buffer.Settling
import ZoneTables.Proofs.Buffer.Coverage
import ZoneTables.Proofs.Buffer.OneEra
import ZoneTables.Proofs.Buffer.Slack
import ZoneTables.Proofs.Source.TimeFields
import ZoneTables.Proofs.Source.DayFields
import ZoneTables.Proofs.Name.Fragments
import ZoneTables.Proofs.Calendar.DayNumbers
import ZoneTables.Proofs.Calendar.ChosenDates
import ZoneTables.Proofs.Calendar.YearEnds
import ZoneTables.Proofs.Text.Letters
import ZoneTables.Proofs.Checked.Word
import ZoneTables.Proofs.Checked.Reading
import ZoneTables.Proofs.Checked.Making
import ZoneTables.Proofs.Checked.Measuring
import ZoneTables.Proofs.Checked.Compilation
