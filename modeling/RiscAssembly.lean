import RiscAssembly.Isa.Pseudo
import RiscAssembly.Isa.Word
import RiscAssembly.Program.Assemble
import RiscAssembly.Report.Diagnostic
import RiscAssembly.Report.Listing
import RiscAssembly.Yaml.Artifact
import RiscAssembly.Command.Session
import RiscAssembly.Main
import RiscAssembly.Proofs.Text
import RiscAssembly.Proofs.BitString
import RiscAssembly.Proofs.BitArithmetic
import RiscAssembly.Proofs.Literal
import RiscAssembly.Proofs.Encoding
import RiscAssembly.Proofs.Operands
import RiscAssembly.Proofs.Spelling
import RiscAssembly.Proofs.Statement
import RiscAssembly.Proofs.Expansion
import RiscAssembly.Proofs.Placement
import RiscAssembly.Proofs.Resolution
import RiscAssembly.Proofs.Layout
import RiscAssembly.Proofs.Fields
import RiscAssembly.Proofs.Transfer
import RiscAssembly.Proofs.Precedence
import RiscAssembly.Proofs.LoadImmediate
import RiscAssembly.Proofs.LoadAddress
import RiscAssembly.Proofs.Disassembly
import RiscAssembly.Proofs.DataGrammar
import RiscAssembly.Proofs.DataStream
import RiscAssembly.Proofs.DataSegment
import RiscAssembly.Proofs.Reassembly
import RiscAssembly.Proofs.SyntaxErrors
import RiscAssembly.Proofs.Sectioning
import RiscAssembly.Proofs.Agreement
import RiscAssembly.Proofs.Renumbering
import RiscAssembly.Proofs.Decoration
import RiscAssembly.Proofs.Interchange
import RiscAssembly.Proofs.Relocation
import RiscAssembly.Proofs.OperandGrammar
import RiscAssembly.Proofs.FirstFailure
import RiscAssembly.Proofs.Faults
import RiscAssembly.Proofs.StringLiterals
import RiscAssembly.Proofs.LiteralGrammar
import RiscAssembly.Proofs.RegisterNames
import RiscAssembly.Proofs.LineGrammar
import RiscAssembly.Proofs.Redefinition
import RiscAssembly.Proofs.Listing
import RiscAssembly.Proofs.Escapes
import RiscAssembly.Proofs.MachineForm
import RiscAssembly.Proofs.RegisterJump
import RiscAssembly.Proofs.CommandRun
