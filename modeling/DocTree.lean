import DocTree.Cast
import DocTree.Main
import DocTree.Proofs.Parse.Subject
import DocTree.Proofs.Parse.Transparent
import DocTree.Proofs.Token.Positions
import DocTree.Proofs.Parse.Promise
import DocTree.Proofs.Token.Unions
import DocTree.Proofs.Token.Law
import DocTree.Proofs.Parse.Law
import DocTree.Proofs.Parse.Whitelist
import DocTree.Proofs.Parse.WellFormed
import DocTree.Proofs.Parse.Later
import DocTree.Proofs.Parse.Limit
import DocTree.Proofs.Parse.Repeat
import DocTree.Proofs.Names
import DocTree.Proofs.Parse.Nested
import DocTree.Proofs.Parse.Depth
import DocTree.Proofs.Parse.Arguments
import DocTree.Proofs.Parse.Pairing
import DocTree.Proofs.Parse.Alone
import DocTree.Proofs.Literal.Sound
import DocTree.Proofs.Literal.Atoms
import DocTree.Proofs.Literal.RoundTrip
import DocTree.Proofs.Literal.Inline
import DocTree.Proofs.Literal.Scanned
import DocTree.Proofs.Literal.Integers
import DocTree.Proofs.Literal.Adjacent
import DocTree.Proofs.Markup.TypeBody
import DocTree.Proofs.Markup.Defaults
import DocTree.Proofs.Resolve
import DocTree.Proofs.Markup.Chunks
import DocTree.Proofs.Markup.BlankLines
import DocTree.Proofs.Markup.Visible
import DocTree.Proofs.Markup.FieldList
import DocTree.Proofs.Markup.Param
import DocTree.Proofs.Parse.Signature
import DocTree.Proofs.Markup.Sections
import DocTree.Proofs.Markup.ParamLines
import DocTree.Proofs.Markup.Mentions
import DocTree.Proofs.Markup.ParamSections
import DocTree.Proofs.Markup.Heads
import DocTree.Proofs.Literal.Bytes
import DocTree.Proofs.Markup.Nesting
import DocTree.Proofs.Markup.Headers
import DocTree.Proofs.Markup.Content
import DocTree.Proofs.Strategies
import DocTree.Proofs.Host.Lookup
import DocTree.Proofs.Host.Calls
import DocTree.Proofs.Markup.LineNumbers
import DocTree.Proofs.Markup.Groups
import DocTree.Proofs.Markup.EntryParts
import DocTree.Proofs.Text.Pieces
import DocTree.Proofs.Literal.Unambiguous
import DocTree.Proofs.Cast.Belongs
import DocTree.Proofs.Cast.Repeats
import DocTree.Proofs.Cast.Choices
