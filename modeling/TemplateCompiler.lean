import TemplateCompiler.CommandLine.Arguments
import TemplateCompiler.CommandLine.Delimiters
import TemplateCompiler.CommandLine.Path
import TemplateCompiler.CommandLine.Run
import TemplateCompiler.Compiler
import TemplateCompiler.Emit.Expression
import TemplateCompiler.Emit.Function
import TemplateCompiler.Emit.Node
import TemplateCompiler.Emit.Piece
import TemplateCompiler.Emit.View
import TemplateCompiler.Lowering.Contribution
import TemplateCompiler.Lowering.Element
import TemplateCompiler.Lowering.Expression
import TemplateCompiler.Lowering.Handler
import TemplateCompiler.Lowering.LoopExpression
import TemplateCompiler.Lowering.Pass
import TemplateCompiler.Lowering.Pass.Conditional
import TemplateCompiler.Lowering.Pass.Element
import TemplateCompiler.Lowering.Pass.Loop
import TemplateCompiler.Lowering.Pass.Memo
import TemplateCompiler.Lowering.Pass.Once
import TemplateCompiler.Lowering.Pass.Probe
import TemplateCompiler.Lowering.Pass.TextRun
import TemplateCompiler.Lowering.Progress
import TemplateCompiler.Lowering.Properties
import TemplateCompiler.Lowering.Scope
import TemplateCompiler.Lowering.Site
import TemplateCompiler.Lowering.Template
import TemplateCompiler.Main
import TemplateCompiler.Markup.Name
import TemplateCompiler.Markup.Tag
import TemplateCompiler.Problem
import TemplateCompiler.Problem.Reported
import TemplateCompiler.Proofs.CacheCells
import TemplateCompiler.Proofs.HoistSoundness
import TemplateCompiler.Proofs.Lineage
import TemplateCompiler.Proofs.LoweringStages
import TemplateCompiler.Proofs.MarkupPrinting
import TemplateCompiler.Proofs.MarkupRoundTrip
import TemplateCompiler.Proofs.MarkupScanning
import TemplateCompiler.Proofs.MirroredCode
import TemplateCompiler.Proofs.NodeNumbering
import TemplateCompiler.Proofs.PlanConsistency
import TemplateCompiler.Proofs.ResolvedNames
import TemplateCompiler.Proofs.ScopeIsolation
import TemplateCompiler.Proofs.Settlement
import TemplateCompiler.Proofs.StaticHoisting
import TemplateCompiler.Proofs.Subexpressions
import TemplateCompiler.Proofs.TextRuns
import TemplateCompiler.Proofs.WalkEntering
import TemplateCompiler.Proofs.WalkGrouping
import TemplateCompiler.Proofs.WalkLeaving
import TemplateCompiler.Proofs.WalkSettling
import TemplateCompiler.Proofs.WalkState
import TemplateCompiler.Render.Cache
import TemplateCompiler.Render.Code
import TemplateCompiler.Render.Expr
import TemplateCompiler.Render.Helper
import TemplateCompiler.Render.Hoist
import TemplateCompiler.Render.Level
import TemplateCompiler.Render.PatchFlag
import TemplateCompiler.Render.Plan
import TemplateCompiler.Report.Document
import TemplateCompiler.Report.Render
import TemplateCompiler.Report.Scalar
import TemplateCompiler.Report.Template
import TemplateCompiler.Report.Yaml
import TemplateCompiler.Script.Bracket
import TemplateCompiler.Script.Enclosure
import TemplateCompiler.Script.Expression
import TemplateCompiler.Script.Grammar
import TemplateCompiler.Script.Identifier
import TemplateCompiler.Script.Lexeme
import TemplateCompiler.Script.Lexer
import TemplateCompiler.Script.ParameterGuess
import TemplateCompiler.Script.Pattern
import TemplateCompiler.Script.Reader
import TemplateCompiler.Script.Rule
import TemplateCompiler.Script.Statement
import TemplateCompiler.Script.TypeExpression
import TemplateCompiler.Source.Cursor
import TemplateCompiler.Source.Encoding
import TemplateCompiler.Source.Position
import TemplateCompiler.Template.Builder
import TemplateCompiler.Template.DirectiveName
import TemplateCompiler.Template.Node
import TemplateCompiler.Template.Property
import TemplateCompiler.Text.Alphanumeric
import TemplateCompiler.Text.Phrase
import TemplateCompiler.Text.Quoted
import TemplateCompiler.Text.Reference
import TemplateCompiler.Text.ReferenceName
import TemplateCompiler.Text.Search
import TemplateCompiler.Text.UpperCase
import TemplateCompiler.Token.Basic
import TemplateCompiler.Token.Lexer
import TemplateCompiler.Token.Lexer.Attribute
import TemplateCompiler.Token.Lexer.Comment
import TemplateCompiler.Token.Lexer.Piece
import TemplateCompiler.Token.Lexer.RawText
import TemplateCompiler.Token.Lexer.Tag
import TemplateCompiler.Token.Lexer.Text
import TemplateCompiler.Proofs.CellNumbering
import TemplateCompiler.Proofs.HoistRelocation
import TemplateCompiler.Proofs.RepeatedHoisting
import TemplateCompiler.Proofs.SharedCells
import TemplateCompiler.Proofs.TokenTiling
import TemplateCompiler.Proofs.RawTextEnd
import TemplateCompiler.Proofs.ScanTotality
import TemplateCompiler.Proofs.WalkTotality
import TemplateCompiler.Proofs.WalkBalance
import TemplateCompiler.Proofs.PatchFlags
import TemplateCompiler.Proofs.CollectedProperties
import TemplateCompiler.Proofs.DynamicProperties
import TemplateCompiler.Proofs.BuilderSteps
import TemplateCompiler.Proofs.NodeOrder
import TemplateCompiler.Proofs.CondensedTrees
import TemplateCompiler.Proofs.CondensedText
import TemplateCompiler.Proofs.SourcePlaces
import TemplateCompiler.Proofs.CondensedTemplates
import TemplateCompiler.Proofs.CondensedEdges
import TemplateCompiler.Proofs.ParsedPlaces
import TemplateCompiler.Proofs.LoweredProblems
import TemplateCompiler.Proofs.WalkPlaces
import TemplateCompiler.Proofs.LoweredPlaces
import TemplateCompiler.Proofs.EmittedPlaces
import TemplateCompiler.Proofs.CompiledPlaces
import TemplateCompiler.Proofs.UnfoldedViews
import TemplateCompiler.Proofs.SpelledCode
import TemplateCompiler.Proofs.VisitedNodes
import TemplateCompiler.Proofs.ImportedHelpers
import TemplateCompiler.Proofs.MappedNodes
import TemplateCompiler.Proofs.AssetIdentifiers
import TemplateCompiler.Proofs.DeclaredAssets
import TemplateCompiler.Proofs.EscapedReferences
import TemplateCompiler.Proofs.FaithfulText
import TemplateCompiler.Proofs.RememberedLevels
import TemplateCompiler.Proofs.OutermostHoisting
import TemplateCompiler.Proofs.RegroupedSiblings
import TemplateCompiler.Proofs.StrayProblems
import TemplateCompiler.Proofs.TokenGrammar
import TemplateCompiler.Proofs.GroupedSiblings
import TemplateCompiler.Proofs.OnceMarks
import TemplateCompiler.Proofs.OnceCells
import TemplateCompiler.Proofs.WalkShapes
import TemplateCompiler.Proofs.CommentEnds
import TemplateCompiler.Proofs.SubstitutedNames
import TemplateCompiler.Proofs.HandlerPlaces
import TemplateCompiler.Proofs.KeptHandlers
import TemplateCompiler.Proofs.InterleavedProperties
import TemplateCompiler.Proofs.MergedEntries
import TemplateCompiler.Proofs.WalkContents
import TemplateCompiler.Proofs.NamedArguments
import TemplateCompiler.Proofs.ListenerKeys
import TemplateCompiler.Proofs.FinalProperties
import TemplateCompiler.Proofs.MergedObjects
import TemplateCompiler.Proofs.CollectedHandlers
import TemplateCompiler.Proofs.LoopAliases
import TemplateCompiler.Proofs.ContributedNames
import TemplateCompiler.Proofs.BranchKeys
import TemplateCompiler.Proofs.ParameterNames
import TemplateCompiler.Proofs.LoopParameters
import TemplateCompiler.Proofs.DirectiveNames
import TemplateCompiler.Proofs.DelimitedText
import TemplateCompiler.Proofs.StatementHandlers
import TemplateCompiler.Proofs.FinishedPlans
import TemplateCompiler.Proofs.WalkCallbacks
import TemplateCompiler.Proofs.JoinedTexts
import TemplateCompiler.Proofs.WrittenTexts
import TemplateCompiler.Proofs.MalformedReferences
import TemplateCompiler.Proofs.NestedPlaces
import TemplateCompiler.Proofs.NestedTags
import TemplateCompiler.Proofs.WrittenLiterals
import TemplateCompiler.Proofs.NumericReferences
import TemplateCompiler.Proofs.ItemParameters
import TemplateCompiler.Proofs.IndentLevels
