import SqlEngine.Alias
import SqlEngine.Alias.Candidate
import SqlEngine.Alias.Target
import SqlEngine.Call
import SqlEngine.Call.Argument
import SqlEngine.Call.Frame
import SqlEngine.Call.Result
import SqlEngine.Compiler
import SqlEngine.Condition
import SqlEngine.DataType
import SqlEngine.DataType.Document
import SqlEngine.Decimal.Basic
import SqlEngine.Decimal.Binary
import SqlEngine.Decimal.Text
import SqlEngine.Engine.Basic
import SqlEngine.Engine.Registry
import SqlEngine.EngineError
import SqlEngine.Eval
import SqlEngine.Eval.Typing
import SqlEngine.Expr.Basic
import SqlEngine.Expr.Text
import SqlEngine.Index
import SqlEngine.Json.Basic
import SqlEngine.Json.Parser
import SqlEngine.Json.Printer
import SqlEngine.Library
import SqlEngine.Membership
import SqlEngine.Membership.ConstantSet
import SqlEngine.Native.Interaction
import SqlEngine.Native.Method
import SqlEngine.Native.Object
import SqlEngine.Native.Script
import SqlEngine.Native.Type
import SqlEngine.Native.Value
import SqlEngine.Numeric.Binary
import SqlEngine.Numeric.Bits
import SqlEngine.Numeric.Literal
import SqlEngine.Numeric.Shortest
import SqlEngine.Proofs.Composition
import SqlEngine.Proofs.Effects
import SqlEngine.Proofs.SessionState
import SqlEngine.Schema
import SqlEngine.Session
import SqlEngine.Session.Connection
import SqlEngine.Settings
import SqlEngine.Temporal.Date
import SqlEngine.Temporal.Time
import SqlEngine.Temporal.Timestamp
import SqlEngine.Text.Blank
import SqlEngine.Text.Case
import SqlEngine.Text.Hex
import SqlEngine.Text.Number
import SqlEngine.Text.Order
import SqlEngine.Text.Quoted
import SqlEngine.Text.Split
import SqlEngine.Toml.Basic
import SqlEngine.Toml.Parser
import SqlEngine.Toml.Scalar
import SqlEngine.Truth
import SqlEngine.Value.Arithmetic
import SqlEngine.Value.Basic
import SqlEngine.Value.Comparison
import SqlEngine.Value.Convert
import SqlEngine.Value.Document
import SqlEngine.Value.Order
import SqlEngine.Value.Text
import SqlEngine.ValueError
import SqlEngine.Proofs.BinaryRounding
import SqlEngine.Proofs.DecimalScale
import SqlEngine.Proofs.Outcomes
import SqlEngine.Proofs.TypedValues
import SqlEngine.Proofs.Retention
import SqlEngine.Proofs.TypeSoundness
import SqlEngine.Proofs.PureEvaluation
import SqlEngine.Proofs.SortedSearch
import SqlEngine.Proofs.ValueOrder
import SqlEngine.Proofs.MembershipVerdicts
import SqlEngine.Proofs.Planning
import SqlEngine.Proofs.PlannedTests
import SqlEngine.Proofs.ShortCircuit
import SqlEngine.Proofs.MergedEqualities
import SqlEngine.Proofs.ConditionMeaning
import SqlEngine.Proofs.EqualityMerging
import SqlEngine.Proofs.TotalOrder
import SqlEngine.Proofs.MembershipHistory
import SqlEngine.Proofs.IndexLookups
import SqlEngine.Proofs.ConvertedConstants
import SqlEngine.Proofs.CallFrames
import SqlEngine.Proofs.ConditionEffects
import SqlEngine.Proofs.ColumnCalls
import SqlEngine.Proofs.MixedNumbers
import SqlEngine.Proofs.ConversionResults
import SqlEngine.Proofs.NativeRoundTrip
import SqlEngine.Proofs.ConnectionLife
import SqlEngine.Proofs.CallContext
import SqlEngine.Proofs.Confinement
import SqlEngine.Proofs.SessionIndependence
import SqlEngine.Proofs.RegistryEffects
import SqlEngine.Proofs.AliasRegistry
import SqlEngine.Proofs.CandidateOrder
import SqlEngine.Proofs.OverloadSelection
import SqlEngine.Proofs.ClassResolution
import SqlEngine.Proofs.MarshaledFrames
import SqlEngine.Proofs.FrameConformance
import SqlEngine.Proofs.SkippedCalls
import SqlEngine.Proofs.ConstantSets
import SqlEngine.Proofs.AliasResolution
import SqlEngine.Proofs.AlikeValues
import SqlEngine.Proofs.EqualTexts
import SqlEngine.Proofs.MatchedOperands
import SqlEngine.Proofs.DecimalValues
import SqlEngine.Proofs.ExactValues
import SqlEngine.Proofs.ComparisonOperators
import SqlEngine.Proofs.ListedEqualities
import SqlEngine.Proofs.RoundedNumbers
import SqlEngine.Proofs.NumericTexts
import SqlEngine.Proofs.RefinedOrder
import SqlEngine.Proofs.NearestWhole
import SqlEngine.Proofs.WholeConversions
import SqlEngine.Proofs.DecimalConversions
import SqlEngine.Proofs.GrowingTests
import SqlEngine.Proofs.TimeTexts
import SqlEngine.Proofs.DateTexts
import SqlEngine.Proofs.ExactTexts
import SqlEngine.Proofs.PaddedTexts
import SqlEngine.Proofs.Declarations
import SqlEngine.Proofs.TemporalGrammar
import SqlEngine.Proofs.HexTexts
import SqlEngine.Proofs.KleeneLogic
import SqlEngine.Proofs.WholeArithmetic
import SqlEngine.Proofs.ConstantEvaluation
import SqlEngine.Proofs.CompilerCache
