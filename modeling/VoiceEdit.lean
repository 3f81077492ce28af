import VoiceEdit.Code.Argument
import VoiceEdit.Code.Block
import VoiceEdit.Code.Bracket
import VoiceEdit.Code.Call
import VoiceEdit.Code.Comment
import VoiceEdit.Code.Literal
import VoiceEdit.Command.Basic
import VoiceEdit.Command.Run
import VoiceEdit.Editor.Basic
import VoiceEdit.Editor.Compile
import VoiceEdit.Editor.Edit
import VoiceEdit.Editor.Keystroke
import VoiceEdit.Exchange.Command
import VoiceEdit.Exchange.Edit
import VoiceEdit.Exchange.Record
import VoiceEdit.Exchange.Settings
import VoiceEdit.Exchange.Span
import VoiceEdit.Exchange.Toml
import VoiceEdit.Json.Basic
import VoiceEdit.Json.Reader
import VoiceEdit.Json.Writer
import VoiceEdit.Layout.Line
import VoiceEdit.Modifier.Basic
import VoiceEdit.Modifier.Kind
import VoiceEdit.Proofs.Code.Nested
import VoiceEdit.Proofs.Code.Quoted
import VoiceEdit.Proofs.Command.NetEffect
import VoiceEdit.Proofs.Editor.Agreement
import VoiceEdit.Proofs.Editor.Spelling
import VoiceEdit.Proofs.Modifier.Bounds
import VoiceEdit.Proofs.Modifier.Within
import VoiceEdit.Proofs.Prose.Bounds
import VoiceEdit.Proofs.Session.Safety
import VoiceEdit.Proofs.Text.Lines
import VoiceEdit.Proofs.Word.Bounds
import VoiceEdit.Proofs.Yields
import VoiceEdit.Prose.Markdown
import VoiceEdit.Prose.Sentence
import VoiceEdit.Settings
import VoiceEdit.Span
import VoiceEdit.Target
import VoiceEdit.Text.Basic
import VoiceEdit.Text.Casing
import VoiceEdit.Text.CharClass
import VoiceEdit.Text.Chunks
import VoiceEdit.Text.Lines
import VoiceEdit.Text.Nesting
import VoiceEdit.Toml.Basic
import VoiceEdit.Toml.Reader
import VoiceEdit.Toml.Scalar
import VoiceEdit.Unicode.Alphabetic
import VoiceEdit.Unicode.CaseIgnorable
import VoiceEdit.Unicode.Cased
import VoiceEdit.Unicode.CodeRun
import VoiceEdit.Unicode.Folding
import VoiceEdit.Unicode.LowerMapping
import VoiceEdit.Unicode.Lowercase
import VoiceEdit.Unicode.Numeric
import VoiceEdit.Unicode.UpperMapping
import VoiceEdit.Unicode.Uppercase
import VoiceEdit.Unicode.Whitespace
import VoiceEdit.Word.Homophones
import VoiceEdit.Word.Pattern
import VoiceEdit.Word.Phrase
import VoiceEdit.Word.Search
import VoiceEdit.Word.Token
import VoiceEdit.Proofs.Editor.Excerpt
import VoiceEdit.Proofs.Text.Runs
import VoiceEdit.Proofs.Word.Reading
import VoiceEdit.Proofs.Word.Candidates
import VoiceEdit.Proofs.Modifier.PhraseSearch
import VoiceEdit.Proofs.Word.Progress
import VoiceEdit.Proofs.Code.Progress
import VoiceEdit.Proofs.Prose.Progress
import VoiceEdit.Proofs.Modifier.Progress
import VoiceEdit.Proofs.Text.Lowercase
import VoiceEdit.Proofs.Word.Homophony
import VoiceEdit.Proofs.Editor.Failure
import VoiceEdit.Proofs.Exchange.Lossless
import VoiceEdit.Proofs.Text.Rescan
import VoiceEdit.Proofs.Code.Rest
import VoiceEdit.Proofs.Prose.Rest
import VoiceEdit.Proofs.Modifier.Rest
import VoiceEdit.Proofs.Command.Bookkeeping
import VoiceEdit.Proofs.Editor.Pressing
import VoiceEdit.Proofs.Modifier.Clearing
import VoiceEdit.Proofs.Word.Fragments
import VoiceEdit.Proofs.Word.Choice
import VoiceEdit.Proofs.Modifier.WordSearch
import VoiceEdit.Proofs.Text.Depth
import VoiceEdit.Proofs.Text.Trimming
import VoiceEdit.Proofs.Code.Listing
import VoiceEdit.Proofs.Code.Enumeration
import VoiceEdit.Proofs.Modifier.Arguments
import VoiceEdit.Proofs.Modifier.PhraseFound
import VoiceEdit.Proofs.Modifier.FirstArgument
import VoiceEdit.Proofs.Text.Pairs
import VoiceEdit.Proofs.Code.Enclosing
import VoiceEdit.Proofs.Code.Braces
import VoiceEdit.Proofs.Modifier.Answers
import VoiceEdit.Proofs.Modifier.Enclosing
import VoiceEdit.Proofs.Text.Rows
import VoiceEdit.Proofs.Code.Indented
import VoiceEdit.Proofs.Modifier.Indented
import VoiceEdit.Proofs.Code.Marked
import VoiceEdit.Proofs.Modifier.Comments
import VoiceEdit.Proofs.Code.Delimited
import VoiceEdit.Proofs.Modifier.Literals
import VoiceEdit.Proofs.Code.Overlapping
import VoiceEdit.Proofs.Modifier.Overlapping
import VoiceEdit.Proofs.Code.Chains
import VoiceEdit.Proofs.Modifier.Calls
import VoiceEdit.Proofs.Modifier.Escaped
import VoiceEdit.Proofs.Modifier.Sentences
import VoiceEdit.Proofs.Prose.Neighbours
import VoiceEdit.Proofs.Modifier.Neighbours
import VoiceEdit.Proofs.Prose.Sections
import VoiceEdit.Proofs.Modifier.Sections
import VoiceEdit.Proofs.Word.Tokens
import VoiceEdit.Proofs.Modifier.Tokens
import VoiceEdit.Proofs.Command.Reaching
import VoiceEdit.Proofs.Editor.Shortest
import VoiceEdit.Proofs.Editor.Grid
import VoiceEdit.Proofs.Text.Contents
import VoiceEdit.Proofs.Word.Pattern
import VoiceEdit.Proofs.Text.Capitals
import VoiceEdit.Proofs.Command.Respelling
import VoiceEdit.Proofs.Code.Overrunning
import VoiceEdit.Proofs.Modifier.Overrunning
import VoiceEdit.Proofs.Code.Slashes
import VoiceEdit.Proofs.Modifier.Slashes
import VoiceEdit.Proofs.Code.Matching
import VoiceEdit.Proofs.Text.Uppercase
import VoiceEdit.Proofs.Text.Titles
import VoiceEdit.Proofs.Command.Retitling
