import Unmask.Cipher.Aes
import Unmask.Cipher.Hmac
import Unmask.Cipher.Text
import Unmask.Codec.Basic
import Unmask.Codec.Lzma.Container
import Unmask.Codec.Lzma.Stream
import Unmask.Codec.Radix
import Unmask.Codec.Zlib
import Unmask.CommandLine.Arguments
import Unmask.CommandLine.Run
import Unmask.Decimal
import Unmask.Disguise.Basic
import Unmask.Disguise.BlankObf.Folding
import Unmask.Disguise.BlankObf.Layers
import Unmask.Disguise.Fct
import Unmask.Disguise.Hyperion
import Unmask.Disguise.LzmaSpam
import Unmask.Disguise.Pyobfuscate
import Unmask.Disguise.Vare
import Unmask.Dispatch
import Unmask.Layers
import Unmask.Logging
import Unmask.Main
import Unmask.Mock.Basic
import Unmask.Mock.Call
import Unmask.Named
import Unmask.Proofs.Asking
import Unmask.Proofs.Base85Writing
import Unmask.Proofs.BoundFolds
import Unmask.Proofs.BoundNames
import Unmask.Proofs.BuiltLayers
import Unmask.Proofs.CallFolding
import Unmask.Proofs.CallFree
import Unmask.Proofs.CallResolving
import Unmask.Proofs.Capture
import Unmask.Proofs.Choices
import Unmask.Proofs.ChunkCollection
import Unmask.Proofs.CleaningTwice
import Unmask.Proofs.CodeObjects
import Unmask.Proofs.ConstantBindings
import Unmask.Proofs.Courses
import Unmask.Proofs.DanglingNames
import Unmask.Proofs.DecimalTexts
import Unmask.Proofs.Dispatch
import Unmask.Proofs.EntryTokens
import Unmask.Proofs.EvalChains
import Unmask.Proofs.Evaluation
import Unmask.Proofs.ExactArithmetic
import Unmask.Proofs.ExecNesting
import Unmask.Proofs.ExecTexts
import Unmask.Proofs.Findings
import Unmask.Proofs.FirstLiterals
import Unmask.Proofs.FoldSoundness
import Unmask.Proofs.FoldedParts
import Unmask.Proofs.ForeignNames
import Unmask.Proofs.Gaps
import Unmask.Proofs.HexDigits
import Unmask.Proofs.HyperionLayers
import Unmask.Proofs.KeptText
import Unmask.Proofs.LateImports
import Unmask.Proofs.Legible.Constants
import Unmask.Proofs.Legible.Lists
import Unmask.Proofs.LetterCase
import Unmask.Proofs.LinkedFolds
import Unmask.Proofs.LiteralElements
import Unmask.Proofs.LiteralReading
import Unmask.Proofs.LiteralTokens
import Unmask.Proofs.MarshalledPayloads
import Unmask.Proofs.MaskSearch
import Unmask.Proofs.MethodArguments
import Unmask.Proofs.MockEquality
import Unmask.Proofs.MockInvariants
import Unmask.Proofs.Nesting
import Unmask.Proofs.OpaqueCalls
import Unmask.Proofs.Peeling
import Unmask.Proofs.Places.Constants
import Unmask.Proofs.Places.Cursors
import Unmask.Proofs.Places.Expressions
import Unmask.Proofs.Places.SimpleStatements
import Unmask.Proofs.Places.Statements
import Unmask.Proofs.RadixWriting
import Unmask.Proofs.Registration
import Unmask.Proofs.Renaming
import Unmask.Proofs.Rounds
import Unmask.Proofs.ScannedLiterals
import Unmask.Proofs.ScopeWrites
import Unmask.Proofs.SelectedEntries
import Unmask.Proofs.Sizes
import Unmask.Proofs.Slicing
import Unmask.Proofs.StoredStreams
import Unmask.Proofs.StringLiterals
import Unmask.Proofs.Substitution
import Unmask.Proofs.Templates
import Unmask.Proofs.TextMatches
import Unmask.Proofs.TextOctets
import Unmask.Proofs.TextParts
import Unmask.Proofs.TreeWalks
import Unmask.Proofs.Tupleless
import Unmask.Proofs.TypedEvaluation
import Unmask.Proofs.TypedFolding
import Unmask.Proofs.TypedNodes
import Unmask.Proofs.TypedOperations
import Unmask.Proofs.ValueEquality
import Unmask.Proofs.VareLayers
import Unmask.Proofs.VisitOrder
import Unmask.Proofs.WebhookPieces
import Unmask.Proofs.WordSlices
import Unmask.Proofs.WrittenMocks
import Unmask.Proofs.WrittenNames
import Unmask.Proofs.WrittenValues
import Unmask.Resolve.Expression
import Unmask.Resolve.Program
import Unmask.Syntax.Equality
import Unmask.Syntax.Fold
import Unmask.Syntax.Grammar.Basic
import Unmask.Syntax.Grammar.Expression
import Unmask.Syntax.Grammar.Primary
import Unmask.Syntax.Grammar.Simple
import Unmask.Syntax.Grammar.Statement
import Unmask.Syntax.Literal
import Unmask.Syntax.Printer
import Unmask.Syntax.Token
import Unmask.Syntax.Tree
import Unmask.Syntax.Visit
import Unmask.Text.Basic
import Unmask.Text.Property
import Unmask.Text.Utf8
import Unmask.Value.Arithmetic
import Unmask.Value.Basic
import Unmask.Value.Compare
