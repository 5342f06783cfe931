import SmtSession.Attribute
import SmtSession.Command
import SmtSession.Constant
import SmtSession.Dialect
import SmtSession.Failure
import SmtSession.Formatter.Basic
import SmtSession.Formatter.Node
import SmtSession.Host.Basic
import SmtSession.Host.Disk
import SmtSession.Host.Pipe
import SmtSession.Host.Reply
import SmtSession.Host.Scripted
import SmtSession.Json
import SmtSession.Location
import SmtSession.Proofs.Command.Encoding
import SmtSession.Proofs.Command.Head
import SmtSession.Proofs.Command.Text
import SmtSession.Proofs.Formatter.Composition
import SmtSession.Proofs.Formatter.Layout
import SmtSession.Proofs.Formatter.Printing
import SmtSession.Proofs.Formatter.Refusal
import SmtSession.Proofs.Host.Comments
import SmtSession.Proofs.Host.Framing
import SmtSession.Proofs.Host.Replies
import SmtSession.Proofs.Location
import SmtSession.Proofs.Response.BitVector
import SmtSession.Proofs.Response.ErrorReport
import SmtSession.Proofs.Response.Messages
import SmtSession.Proofs.Response.Normalization
import SmtSession.Proofs.Response.Offset
import SmtSession.Proofs.Response.RoundTrip
import SmtSession.Proofs.SExpr.Blame
import SmtSession.Proofs.SExpr.Extent
import SmtSession.Proofs.SExpr.Nodes
import SmtSession.Proofs.SExpr.Reading
import SmtSession.Proofs.SExpr.RoundTrip
import SmtSession.Proofs.SExpr.Tokens
import SmtSession.Proofs.Session.Answering
import SmtSession.Proofs.Session.Asking
import SmtSession.Proofs.Session.Channels
import SmtSession.Proofs.Session.Conversation
import SmtSession.Proofs.Session.Delivery
import SmtSession.Proofs.Session.Execution
import SmtSession.Proofs.Session.Failure
import SmtSession.Proofs.Session.Gate
import SmtSession.Proofs.Session.History
import SmtSession.Proofs.Session.Invariant
import SmtSession.Proofs.Session.Keeping
import SmtSession.Proofs.Session.LineNumbers
import SmtSession.Proofs.Session.Plan
import SmtSession.Proofs.Session.Recall
import SmtSession.Proofs.Session.Recording
import SmtSession.Proofs.Session.Reopening
import SmtSession.Proofs.Session.Reset
import SmtSession.Proofs.Session.Run
import SmtSession.Proofs.Session.Simulation
import SmtSession.Proofs.Session.Termination
import SmtSession.Proofs.Session.Transparency
import SmtSession.Proofs.Session.Unsupported
import SmtSession.Proofs.Session.Verbosity
import SmtSession.Proofs.Session.Wire
import SmtSession.Proofs.Slice
import SmtSession.Proofs.Term.Encoding
import SmtSession.Proofs.Term.Exactness
import SmtSession.Proofs.Term.Grouping
import SmtSession.Proofs.Term.Meaning
import SmtSession.Proofs.Term.RoundTrip
import SmtSession.Proofs.Token.Bare
import SmtSession.Proofs.Token.Grammar
import SmtSession.Proofs.Token.Layout
import SmtSession.Proofs.Token.Nesting
import SmtSession.Proofs.Token.Spelling
import SmtSession.Proofs.Token.Tiling
import SmtSession.Proofs.Token.Written
import SmtSession.Response.Basic
import SmtSession.Response.BitVector
import SmtSession.Response.Decoder
import SmtSession.Response.ErrorReport
import SmtSession.SExpr.Basic
import SmtSession.SExpr.Parser
import SmtSession.Session.Basic
import SmtSession.Session.Config
import SmtSession.Session.Error
import SmtSession.Session.Options
import SmtSession.Session.Query
import SmtSession.Session.State
import SmtSession.Source
import SmtSession.Symbol
import SmtSession.SyntaxError
import SmtSession.Term.Basic
import SmtSession.Term.Reader
import SmtSession.Term.Text
import SmtSession.Text.Blank
import SmtSession.Text.Visible
import SmtSession.Token
import SmtSession.Token.Lexer
