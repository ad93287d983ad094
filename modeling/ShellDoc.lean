import ShellDoc.Check.File
import ShellDoc.Check.Integer
import ShellDoc.Check.Text
import ShellDoc.Main
import ShellDoc.Proofs.CommandHelp
import ShellDoc.Proofs.CommentText
import ShellDoc.Proofs.ConfigIssues
import ShellDoc.Proofs.Decoration
import ShellDoc.Proofs.FunctionNames
import ShellDoc.Proofs.HeaderName
import ShellDoc.Proofs.HeaderSpelling
import ShellDoc.Proofs.Indentation
import ShellDoc.Proofs.LineEndings
import ShellDoc.Proofs.OptionColumns
import ShellDoc.Proofs.OptionDeclarations
import ShellDoc.Proofs.OptionPlacement
import ShellDoc.Proofs.PathChecks
import ShellDoc.Proofs.ScannerHistory
import ShellDoc.Proofs.ScriptTarget
import ShellDoc.Proofs.ScriptParts
import ShellDoc.Proofs.UsageCommands
