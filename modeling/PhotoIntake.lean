import PhotoIntake.Main
import PhotoIntake.Proofs.Download.Attempts
import PhotoIntake.Proofs.Download.Confinement
import PhotoIntake.Proofs.Download.Delivery
import PhotoIntake.Proofs.Download.FreeName
import PhotoIntake.Proofs.Download.Numbering
import PhotoIntake.Proofs.Download.Preservation
import PhotoIntake.Proofs.FileTree.Actions
import PhotoIntake.Proofs.FileTree.Entries
import PhotoIntake.Proofs.FileTree.Following
import PhotoIntake.Proofs.Path.Components
import PhotoIntake.Proofs.Sequence.Counting
import PhotoIntake.Proofs.Worker.Course
import PhotoIntake.Proofs.Decimal.Digits
import PhotoIntake.Proofs.Json.RoundTrip
import PhotoIntake.Proofs.Sequence.RoundTrip
import PhotoIntake.Proofs.FileTree.ReadBack
import PhotoIntake.Proofs.Sequence.Saving
import PhotoIntake.Proofs.Worker.Passages
import PhotoIntake.Proofs.Download.Effects
import PhotoIntake.Proofs.Download.Continuity
import PhotoIntake.Proofs.Calendar.RoundTrip
import PhotoIntake.Proofs.Text.Base64
import PhotoIntake.Proofs.Text.Cutting
import PhotoIntake.Proofs.Text.Lines
import PhotoIntake.Proofs.Worker.SendingOrder
import PhotoIntake.Proofs.Worker.Stream
import PhotoIntake.Proofs.Metadata.Answers
import PhotoIntake.Proofs.Download.Preview
import PhotoIntake.Proofs.Sequence.DirtyFlag
import PhotoIntake.Proofs.Metadata.Recovery
import PhotoIntake.Proofs.FileTree.FailedWrite
import PhotoIntake.Proofs.Json.Prefix
import PhotoIntake.Proofs.StateFiles
import PhotoIntake.Proofs.Download.Folders
import PhotoIntake.Proofs.Download.WorkingSet
import PhotoIntake.Proofs.Download.Resumption
import PhotoIntake.Proofs.History.Identity
import PhotoIntake.Proofs.History.Records
import PhotoIntake.Proofs.Source.Scanning
import PhotoIntake.Proofs.FileTree.Descent
import PhotoIntake.Proofs.Download.Reporting
import PhotoIntake.Proofs.Session.Arrivals
import PhotoIntake.Proofs.Session.Gathering
import PhotoIntake.Proofs.Source.Walking
import PhotoIntake.Proofs.Session.Downloading
import PhotoIntake.Proofs.Session.Bookkeeping
import PhotoIntake.Proofs.Session.Repetition
import PhotoIntake.Proofs.Session.KeptSource
import PhotoIntake.Proofs.Source.Batches
import PhotoIntake.Proofs.Naming.Shelves
import PhotoIntake.Proofs.Naming.Reloading
import PhotoIntake.Proofs.Console.TemplateEdits
import PhotoIntake.Proofs.FileTree.Bypassing
import PhotoIntake.Proofs.FileTree.Relocation
import PhotoIntake.Proofs.FileTree.Indifference
import PhotoIntake.Proofs.FileTree.Stored
import PhotoIntake.Proofs.Sequence.Rollover
import PhotoIntake.Proofs.Download.Unobserved
import PhotoIntake.Proofs.Text.Casing
import PhotoIntake.Proofs.Sequence.Letters
import PhotoIntake.Proofs.Naming.Distinctness
import PhotoIntake.Proofs.Download.Suffix
import PhotoIntake.Proofs.Download.FailedTransfer
import PhotoIntake.Proofs.Source.Interruption
import PhotoIntake.Proofs.Download.Marking
import PhotoIntake.Proofs.Download.Indexing
import PhotoIntake.Proofs.Naming.Editing
import PhotoIntake.Proofs.Naming.Decoding
import PhotoIntake.Proofs.Metadata.Framing
import PhotoIntake.Proofs.Sequence.DayText
import PhotoIntake.Proofs.Sequence.DayCount
import PhotoIntake.Proofs.Metadata.Thumbnails
import PhotoIntake.Proofs.Metadata.Loading
import PhotoIntake.Proofs.Metadata.CaptureDates
import PhotoIntake.Proofs.Naming.Boundaries
import PhotoIntake.Proofs.Naming.OriginalName
import PhotoIntake.Proofs.Naming.Meaning
import PhotoIntake.Proofs.Naming.ImageNumber
import PhotoIntake.Proofs.Naming.CaptureOrder
import PhotoIntake.Proofs.History.Reopening
