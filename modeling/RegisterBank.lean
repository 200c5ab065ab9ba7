import RegisterBank.Allocation.Basic
import RegisterBank.Arithmetic.Block
import RegisterBank.Arithmetic.Word
import RegisterBank.Artifacts
import RegisterBank.Build
import RegisterBank.Bus.Interface
import RegisterBank.Bus.Settings
import RegisterBank.Error
import RegisterBank.Expr.Basic
import RegisterBank.Expr.Eval
import RegisterBank.Expr.Formula
import RegisterBank.Expr.Parser
import RegisterBank.Expr.Substitution
import RegisterBank.Expr.Token
import RegisterBank.Hardware.Element
import RegisterBank.Hardware.Protocol
import RegisterBank.Hardware.Read
import RegisterBank.Hardware.RegisterFile
import RegisterBank.Hardware.Section
import RegisterBank.Hardware.Signals
import RegisterBank.Hardware.Write
import RegisterBank.Header.Definition
import RegisterBank.Header.Files
import RegisterBank.Header.Line
import RegisterBank.Main
import RegisterBank.Manual.Escape
import RegisterBank.Manual.Files
import RegisterBank.Module.Basic
import RegisterBank.Module.Description
import RegisterBank.Module.Reading
import RegisterBank.Parameter.Basic
import RegisterBank.Parameter.Environment
import RegisterBank.Parameter.Mode
import RegisterBank.Parameter.Resolution
import RegisterBank.Register.Access
import RegisterBank.Register.Basic
import RegisterBank.Register.Layout
import RegisterBank.Software.Accessor
import RegisterBank.Software.Files
import RegisterBank.Text.Blank
import RegisterBank.Text.Case
import RegisterBank.Text.Case.Capitals
import RegisterBank.Text.Invisible
import RegisterBank.Text.Lines
import RegisterBank.Text.Numeral
import RegisterBank.Text.Pieces
import RegisterBank.Text.Quoted
import RegisterBank.TextFile
import RegisterBank.Toml.Moment
import RegisterBank.Toml.Number
import RegisterBank.Toml.Reader
import RegisterBank.Toml.Text
import RegisterBank.Toml.Tree
import RegisterBank.Toml.Value
import RegisterBank.Verilog.Fragment
import RegisterBank.Verilog.Phrase
import RegisterBank.Verilog.Render
import RegisterBank.Verilog.Width
import RegisterBank.Version.Basic
import RegisterBank.Version.Reading
import RegisterBank.Workspace.Command
import RegisterBank.Workspace.FileTree
import RegisterBank.Workspace.Path
import RegisterBank.Proofs.Failure
import RegisterBank.Proofs.Arithmetic.Block
import RegisterBank.Proofs.Arithmetic.Word
import RegisterBank.Proofs.Register.Layout
import RegisterBank.Proofs.Allocation.Run
import RegisterBank.Proofs.Allocation.Separation
import RegisterBank.Proofs.Allocation.Rerun
import RegisterBank.Proofs.Allocation.Overlap
import RegisterBank.Proofs.Allocation.Rules
import RegisterBank.Proofs.Allocation.Conformance
import RegisterBank.Proofs.Allocation.Extension
import RegisterBank.Proofs.Expr.Grammar
import RegisterBank.Proofs.Expr.Token.Gap
import RegisterBank.Proofs.Expr.Token.Number
import RegisterBank.Proofs.Expr.Token.Name
import RegisterBank.Proofs.Expr.Operators
import RegisterBank.Proofs.Expr.Soundness
import RegisterBank.Proofs.Expr.Ending
import RegisterBank.Proofs.Expr.Reading
import RegisterBank.Proofs.Expr.Completeness
import RegisterBank.Proofs.Expr.Blank
import RegisterBank.Proofs.Expr.Formula
import RegisterBank.Proofs.Expr.Token.Decimal
import RegisterBank.Proofs.Expr.Adjacent
import RegisterBank.Proofs.Expr.Joining
import RegisterBank.Proofs.Expr.Evaluation
import RegisterBank.Proofs.Expr.Numeral
import RegisterBank.Proofs.Expr.Exact
import RegisterBank.Proofs.Expr.Growing
import RegisterBank.Proofs.Expr.Faithful
import RegisterBank.Proofs.Parameter.Environment
import RegisterBank.Proofs.Expr.Substitution
import RegisterBank.Proofs.Parameter.Graph
import RegisterBank.Proofs.Parameter.Worklist
import RegisterBank.Proofs.Parameter.Resolution
import RegisterBank.Proofs.Parameter.Dependency
import RegisterBank.Proofs.Parameter.Independence
import RegisterBank.Proofs.Parameter.Reading
import RegisterBank.Proofs.Parameter.Words
import RegisterBank.Proofs.Verilog.Width
import RegisterBank.Proofs.Verilog.Larger
import RegisterBank.Proofs.Software.Accessor
import RegisterBank.Proofs.Module.Table
import RegisterBank.Proofs.Module.Completion
import RegisterBank.Proofs.Header.Definition
import RegisterBank.Proofs.Hardware.RegisterFile
import RegisterBank.Proofs.Build
import RegisterBank.Proofs.Exclusive
import RegisterBank.Proofs.Hardware.Element
import RegisterBank.Proofs.Hardware.Slot
import RegisterBank.Proofs.Hardware.Snippet
import RegisterBank.Proofs.Hardware.Write
import RegisterBank.Proofs.Hardware.Lane
import RegisterBank.Proofs.Hardware.Read
import RegisterBank.Proofs.Hardware.Completion
import RegisterBank.Proofs.Version.Reading
import RegisterBank.Proofs.Register.Reserve
import RegisterBank.Proofs.Register.Stated
import RegisterBank.Proofs.Register.Tightness
import RegisterBank.Proofs.Module.Statement
import RegisterBank.Proofs.Header.Agreement
import RegisterBank.Proofs.Text.Family
import RegisterBank.Proofs.Text.Capitals
import RegisterBank.Proofs.Module.Registers
import RegisterBank.Proofs.Module.Identifiers
import RegisterBank.Proofs.Artifacts
import RegisterBank.Proofs.Header.Lines
import RegisterBank.Proofs.Text.Lines
import RegisterBank.Proofs.Manual.Table
import RegisterBank.Proofs.FileNames
import RegisterBank.Proofs.Software.Functions
import RegisterBank.Proofs.Software.Library
import RegisterBank.Proofs.Software.Files
import RegisterBank.Proofs.Header.Dialect
import RegisterBank.Proofs.Header.Contents
import RegisterBank.Proofs.Header.Names
import RegisterBank.Proofs.Address
import RegisterBank.Proofs.Hardware.Role
import RegisterBank.Proofs.Hardware.Identifiers
import RegisterBank.Proofs.Hardware.Netlist
import RegisterBank.Proofs.Hardware.Reset
import RegisterBank.Proofs.Workspace.FileTree
import RegisterBank.Proofs.Workspace.Path
import RegisterBank.Proofs.Workspace.Command
import RegisterBank.Proofs.Verilog.Listing
import RegisterBank.Proofs.Manual.Escape
import RegisterBank.Proofs.Manual.Row
import RegisterBank.Proofs.Machine.Word
import RegisterBank.Proofs.Machine.Layout
import RegisterBank.Proofs.Machine.Allocation
import RegisterBank.Proofs.Machine.Decode
import RegisterBank.Proofs.Machine.Module
import RegisterBank.Proofs.Module.Described
