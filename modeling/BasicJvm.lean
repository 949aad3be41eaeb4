import BasicJvm.Text.Printable
import BasicJvm.Text.Quoted
import BasicJvm.Text.Upper
import BasicJvm.Text.Blank
import BasicJvm.Number.Binary
import BasicJvm.Number.Reading
import BasicJvm.Number.Decimal
import BasicJvm.Source.Token
import BasicJvm.Source.Lexer
import BasicJvm.Source.Fold
import BasicJvm.Bytecode.Opcode
import BasicJvm.Syntax.Builtin
import BasicJvm.Syntax.Ast
import BasicJvm.Syntax.Parser
import BasicJvm.Syntax.Listing
import BasicJvm.Files.Path
import BasicJvm.Machine.Format
import BasicJvm.Text.Utf16
import BasicJvm.ClassFile.ModifiedUtf8
import BasicJvm.ClassFile.Error
import BasicJvm.ClassFile.Pool
import BasicJvm.ClassFile.Class
import BasicJvm.ClassFile.Reader
import BasicJvm.ClassFile.Writer
import BasicJvm.ClassFile.Code
import BasicJvm.ClassFile.Template
import BasicJvm.Bytecode.Types
import BasicJvm.Bytecode.Instr
import BasicJvm.Bytecode.Decode
import BasicJvm.Bytecode.Assemble
import BasicJvm.Compiler.Error
import BasicJvm.Compiler.Generate
import BasicJvm.Compiler.Compile
import BasicJvm.Machine.Run
import BasicJvm.Tools.Config
import BasicJvm.Text.Utf8
import BasicJvm.Text.Width
import BasicJvm.Console.Disk
import BasicJvm.Console.Flags
import BasicJvm.Console.Help
import BasicJvm.Console.LogLine
import BasicJvm.Console.Table
import BasicJvm.Console.Session
import BasicJvm.Tools.Loading
import BasicJvm.Tools.Build
import BasicJvm.Tools.Dump
import BasicJvm.Tools.Runner
import BasicJvm.Tools.Programs
import BasicJvm.Main
import BasicJvm.Proofs.ClassFile.RoundTrip
import BasicJvm.Proofs.Bytecode.Simulation
import BasicJvm.Proofs.ClassFile.Constants
import BasicJvm.Proofs.ClassFile.Editing
import BasicJvm.Proofs.Bytecode.Layout
import BasicJvm.Proofs.Compiler.Emitted
import BasicJvm.Proofs.Bytecode.Decoding
import BasicJvm.Proofs.Bytecode.Provenance
import BasicJvm.Proofs.Bytecode.Landing
import BasicJvm.Proofs.Bytecode.StackMap
import BasicJvm.Proofs.Bytecode.Termination
import BasicJvm.Proofs.Bytecode.Certificate
import BasicJvm.Proofs.Bytecode.Dispatch
import BasicJvm.Proofs.ClassFile.Canonical
import BasicJvm.Proofs.ClassFile.Assembled
import BasicJvm.Proofs.Syntax.Climbing
import BasicJvm.Proofs.Syntax.Programs
import BasicJvm.Proofs.Syntax.Lexemes
import BasicJvm.Proofs.Syntax.Segments
import BasicJvm.Proofs.Machine.Descriptors
import BasicJvm.Proofs.Bytecode.Tiling
import BasicJvm.Proofs.ClassFile.Renaming
import BasicJvm.Proofs.Compiler.LiveTargets
import BasicJvm.Proofs.ClassFile.Encoding
import BasicJvm.Proofs.Machine.Arrays
import BasicJvm.Proofs.Machine.Tab
import BasicJvm.Proofs.Syntax.Folding
import BasicJvm.Proofs.Bytecode.Turns
import BasicJvm.Proofs.ClassFile.Interning
import BasicJvm.Proofs.Bytecode.Widening
import BasicJvm.Proofs.Bytecode.Readback
