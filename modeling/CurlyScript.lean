import CurlyScript.Main
import CurlyScript.Proofs.Inquiry.Contract
import CurlyScript.Proofs.Session.Afresh
import CurlyScript.Proofs.Session.Need
import CurlyScript.Proofs.Session.Verdict
import CurlyScript.Proofs.Grammar.Word
import CurlyScript.Proofs.Grammar.Callee
import CurlyScript.Proofs.Session.Calls
import CurlyScript.Proofs.Session.Known
import CurlyScript.Proofs.Session.Recorder
import CurlyScript.Proofs.Session.Sharing
import CurlyScript.Proofs.Session.Memory
import CurlyScript.Proofs.Script.Outcome
import CurlyScript.Proofs.Grammar.Opening
import CurlyScript.Proofs.Grammar.Quoted
import CurlyScript.Proofs.Grammar.Afterword
import CurlyScript.Proofs.Grammar.Listing
import CurlyScript.Proofs.Grammar.Lookahead
import CurlyScript.Proofs.Grammar.Agreement
import CurlyScript.Proofs.Lexing.Loop
import CurlyScript.Proofs.Lexing.Segments
import CurlyScript.Proofs.Layout.Lexing
import CurlyScript.Proofs.Layout.Rendering
import CurlyScript.Proofs.Layout.Placing
import CurlyScript.Proofs.Layout.Spelling
import CurlyScript.Proofs.Layout.Parsing
import CurlyScript.Proofs.Layout.RoundTrip
import CurlyScript.Proofs.Session.History
import CurlyScript.Proofs.Grammar.Evidence
import CurlyScript.Proofs.Grammar.Failing
import CurlyScript.Proofs.Grammar.Extent
import CurlyScript.Proofs.Grammar.Prefix
import CurlyScript.Proofs.Grammar.Completion
import CurlyScript.Proofs.Grammar.Viability
import CurlyScript.Proofs.Session.Depth
import CurlyScript.Proofs.Script.Diagnosis
import CurlyScript.Proofs.Grammar.Duties
import CurlyScript.Proofs.Grammar.Allotment
import CurlyScript.Proofs.Grammar.Accounts
import CurlyScript.Proofs.Script.Ownership
import CurlyScript.Proofs.Grammar.Brackets
import CurlyScript.Proofs.Session.Balance
import CurlyScript.Proofs.Grammar.Carried
import CurlyScript.Proofs.Grammar.Parts
import CurlyScript.Proofs.Script.Spans
import CurlyScript.Proofs.Grammar.Within
import CurlyScript.Proofs.Grammar.Levels
import CurlyScript.Proofs.Grammar.Displacement
import CurlyScript.Proofs.Grammar.Continuing
import CurlyScript.Proofs.Grammar.Portability
import CurlyScript.Proofs.Script.Reparsing
import CurlyScript.Proofs.Lexing.Canonical
import CurlyScript.Proofs.Session.Nesting
import CurlyScript.Proofs.Inquiry.Conduct
import CurlyScript.Proofs.Session.Entered
import CurlyScript.Proofs.Inquiry.Choice
import CurlyScript.Proofs.Script.Missing
import CurlyScript.Proofs.Session.Filtered
import CurlyScript.Proofs.Grammar.Standing
import CurlyScript.Proofs.Session.Called
import CurlyScript.Proofs.Session.Parenthesised
import CurlyScript.Proofs.Script.Verbatim
import CurlyScript.Proofs.Dump.Escaping
import CurlyScript.Proofs.Dump.Lines
import CurlyScript.Proofs.Dump.Outline
import CurlyScript.Proofs.Dump.Lossless
import CurlyScript.Proofs.Lexing.Places
import CurlyScript.Proofs.Script.Locating
import CurlyScript.Proofs.Session.Leftover
import CurlyScript.Proofs.Cursor.Unquoted
import CurlyScript.Proofs.Cursor.Accounting
import CurlyScript.Proofs.Cursor.Overflow
import CurlyScript.Proofs.CommandLine.Arguments
import CurlyScript.Proofs.CommandLine.Files
import CurlyScript.Proofs.CommandLine.Status
import CurlyScript.Proofs.CommandLine.Listing
import CurlyScript.Proofs.Lexing.Joining
import CurlyScript.Proofs.Session.Marks
import CurlyScript.Proofs.Session.WellNested
import CurlyScript.Proofs.Session.InTurn
import CurlyScript.Proofs.Script.Logged
