import Aquarium.CodeBox.Basic
import Aquarium.CodeBox.Listing
import Aquarium.CodeBox.Margin
import Aquarium.CodeBox.Source
import Aquarium.Command.Configuration
import Aquarium.Command.FileTree
import Aquarium.Command.Flag
import Aquarium.Command.Report
import Aquarium.Command.Script
import Aquarium.Command.Session
import Aquarium.Command.Standard
import Aquarium.Compass.Basic
import Aquarium.Compass.Generator
import Aquarium.Compass.Stirring
import Aquarium.Fault
import Aquarium.Heading
import Aquarium.Input
import Aquarium.Instruction
import Aquarium.Machine.Basic
import Aquarium.Machine.Run
import Aquarium.Machine.Setup
import Aquarium.Machine.Snapshot
import Aquarium.Machine.Step
import Aquarium.Main
import Aquarium.Number.Basic
import Aquarium.Number.Decimal
import Aquarium.Number.Literal
import Aquarium.Number.Numeral
import Aquarium.Number.Rounding
import Aquarium.Number.Series
import Aquarium.Output
import Aquarium.Proofs.Cancellation
import Aquarium.Proofs.Decoding
import Aquarium.Proofs.Execution
import Aquarium.Proofs.Failing
import Aquarium.Proofs.History
import Aquarium.Proofs.InputStream
import Aquarium.Proofs.Isolation
import Aquarium.Proofs.Literals
import Aquarium.Proofs.Pacing
import Aquarium.Proofs.Pictures
import Aquarium.Proofs.Running
import Aquarium.Proofs.SourceText
import Aquarium.Proofs.Symbols
import Aquarium.Proofs.WellFormed
import Aquarium.Relay
import Aquarium.Text.Blank
import Aquarium.Text.Glyph
import Aquarium.Text.Printable
import Aquarium.Text.Quoted
import Aquarium.Toml.Document
import Aquarium.Toml.Node
import Aquarium.Toml.Outline
import Aquarium.Toml.Quotation
import Aquarium.Toml.Value
import Aquarium.Toml.Word
import Aquarium.Tower
import Aquarium.Proofs.Lifecycle
import Aquarium.Proofs.Rounding
import Aquarium.Proofs.Bedding
import Aquarium.Proofs.Store
import Aquarium.Proofs.Writers
import Aquarium.Proofs.Tracing
import Aquarium.Proofs.Echo
import Aquarium.Proofs.Numerals
import Aquarium.Proofs.Snapshots
import Aquarium.Proofs.Sessions
import Aquarium.Proofs.Reports
import Aquarium.Proofs.Layout
import Aquarium.Proofs.Nesting
import Aquarium.Proofs.FaultConditions
import Aquarium.Proofs.InputFiles
import Aquarium.Proofs.Counts
import Aquarium.Proofs.Relaying
import Aquarium.Proofs.Reassembly
import Aquarium.Proofs.Listings
import Aquarium.Proofs.TraceLines
import Aquarium.Proofs.Seeding
import Aquarium.Proofs.Configuring
import Aquarium.Proofs.Contacts
import Aquarium.Proofs.Discarding
import Aquarium.Proofs.Remainders
import Aquarium.Proofs.Shuffling
import Aquarium.Proofs.Torus
