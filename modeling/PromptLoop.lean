import PromptLoop.CommandLine.Program
import PromptLoop.LineCommands
import PromptLoop.Lines.Reader
import PromptLoop.Main
import PromptLoop.Proofs.Lines.Contract
import PromptLoop.Proofs.Lines.Representation
import PromptLoop.Proofs.Lines.Schedule
import PromptLoop.Proofs.Script.Completion
import PromptLoop.Proofs.Script.Finality
import PromptLoop.Proofs.Script.HighestTree
import PromptLoop.Proofs.Script.ReadBack
import PromptLoop.Proofs.Session.Abandonment
import PromptLoop.Proofs.Session.Accumulation
import PromptLoop.Proofs.Session.DelayTimes
import PromptLoop.Proofs.Session.EchoRun
import PromptLoop.Proofs.Session.Ending
import PromptLoop.Proofs.Session.PromptOrder
import PromptLoop.Proofs.Session.Reset
import PromptLoop.Proofs.Session.Snapshot
import PromptLoop.Proofs.Session.WriteLimit
import PromptLoop.Script.Form
import PromptLoop.Session.Transforms
import PromptLoop.Proofs.Script.Brackets
import PromptLoop.Proofs.Script.FirstError
import PromptLoop.Proofs.Script.Evaluated
import PromptLoop.Proofs.Value.Printable
import PromptLoop.Proofs.Script.StringLiterals
import PromptLoop.Proofs.Script.Equality
import PromptLoop.Proofs.Script.Arithmetic
import PromptLoop.Proofs.CommandLine.BindingSyntax
import PromptLoop.Proofs.Lines.Decoding
import PromptLoop.Proofs.Script.Descent.Siblings
