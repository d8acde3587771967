import Octoglyph.Alphabet
import Octoglyph.Binding
import Octoglyph.Chain.Eval
import Octoglyph.Chain.Reader
import Octoglyph.Chain.Tree
import Octoglyph.Command.Arguments
import Octoglyph.Command.Run
import Octoglyph.Command.Syntax
import Octoglyph.Command.Workspace
import Octoglyph.DigitName
import Octoglyph.Encoder.Config
import Octoglyph.Encoder.ConfigFile
import Octoglyph.Encoder.Encode
import Octoglyph.Encoder.Error
import Octoglyph.Evaluation
import Octoglyph.Fault
import Octoglyph.Format
import Octoglyph.Growth.Sample
import Octoglyph.Growth.Source
import Octoglyph.Growth.Tenths
import Octoglyph.Harness.Check
import Octoglyph.Harness.Report
import Octoglyph.Harness.Suite
import Octoglyph.Main
import Octoglyph.Numeral
import Octoglyph.Process.Digest
import Octoglyph.Process.Host
import Octoglyph.Process.Interpreter
import Octoglyph.Process.Shell
import Octoglyph.Process.Tool
import Octoglyph.Statement
import Octoglyph.Strategy
import Octoglyph.Template
import Octoglyph.Text
import Octoglyph.Text.Glyph
import Octoglyph.Text.Quoted
import Octoglyph.Text.Utf8
import Octoglyph.Toml.Document
import Octoglyph.Toml.Reader
import Octoglyph.Toml.Value
import Octoglyph.Value
import Octoglyph.Proofs.Binding
import Octoglyph.Proofs.Recognition
import Octoglyph.Proofs.Filling
import Octoglyph.Proofs.Application
import Octoglyph.Proofs.Statement
import Octoglyph.Proofs.CodeSet
import Octoglyph.Proofs.Trace
import Octoglyph.Proofs.Consumed
import Octoglyph.Proofs.Meaning
import Octoglyph.Proofs.Alphabet
import Octoglyph.Proofs.RenderedLength
import Octoglyph.Proofs.Capacity
import Octoglyph.Proofs.Encoding
import Octoglyph.Proofs.Outcome
import Octoglyph.Proofs.Editing
import Octoglyph.Proofs.Missing
import Octoglyph.Proofs.Growth
import Octoglyph.Proofs.Size
import Octoglyph.Proofs.Merging
import Octoglyph.Proofs.Accounting
import Octoglyph.Proofs.Command
import Octoglyph.Proofs.Extension
import Octoglyph.Proofs.Effect
import Octoglyph.Proofs.Sampling
import Octoglyph.Proofs.Viability
import Octoglyph.Proofs.Escaping
import Octoglyph.Proofs.NameCoding
