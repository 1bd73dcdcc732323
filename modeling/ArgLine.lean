import ArgLine.Buffer.Script
import ArgLine.Checkers
import ArgLine.ExitCheck.Package
import ArgLine.Main
import ArgLine.Proofs.Buffer.Confinement
import ArgLine.Proofs.Buffer.Scoped
import ArgLine.Proofs.Buffer.Shapes
import ArgLine.Proofs.ExitCheck.Reports
import ArgLine.Proofs.Stdout
import ArgLine.Record.Script
import ArgLine.Session
import ArgLine.Proofs.Buffer.Relocation
import ArgLine.Proofs.Buffer.Sharing
import ArgLine.Proofs.Buffer.Appending
import ArgLine.Proofs.Buffer.Acquisition
import ArgLine.Proofs.ExitCheck.Invariance
import ArgLine.Proofs.Line
import ArgLine.Proofs.Neutrality
import ArgLine.Proofs.Text.Literal
import ArgLine.Proofs.ExitCheck.Imports
import ArgLine.Proofs.ExitCheck.Nesting
import ArgLine.Proofs.ExitCheck.SourceOrder
import ArgLine.Proofs.Checkers
import ArgLine.Proofs.Settings
import ArgLine.Proofs.Naming
import ArgLine.Proofs.Buffer.Padding
import ArgLine.Proofs.Record.Equality
import ArgLine.Proofs.Record.Kinds
