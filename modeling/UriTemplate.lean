import UriTemplate.Template.Parser
import UriTemplate.Expansion
import UriTemplate.Context
import UriTemplate.Value.Expansion
import UriTemplate.Resolver.Basic
import UriTemplate.Resolver.Document
import UriTemplate.Value.Rule
import UriTemplate.Proofs.Grammar
import UriTemplate.Proofs.ParserSound
import UriTemplate.Proofs.ParserComplete
import UriTemplate.Proofs.ExpansionSteps
import UriTemplate.Proofs.Merging
import UriTemplate.Proofs.ParserCorrect
import UriTemplate.Proofs.SequentialExpansion
import UriTemplate.Proofs.UriText
import UriTemplate.Proofs.Refusals
import UriTemplate.Proofs.PatternMemo
import UriTemplate.Proofs.Loading
import UriTemplate.Proofs.NameOrder
import UriTemplate.Proofs.LoadedPatterns
import UriTemplate.Proofs.ErrorPlaces
import UriTemplate.Proofs.Decoding
import UriTemplate.Proofs.ReadBack
import UriTemplate.Proofs.Concatenation
import UriTemplate.Proofs.Variables
import UriTemplate.Proofs.References
import UriTemplate.Proofs.OversizedLengths
import UriTemplate.Proofs.Escapes
import UriTemplate.Proofs.ValueTexts
import UriTemplate.Proofs.MixedNames
import UriTemplate.Proofs.BadConfigurations
import UriTemplate.Proofs.EncodedValues
import UriTemplate.Proofs.Prefixes
import UriTemplate.Proofs.VariableLists
import UriTemplate.Proofs.Unrolling
import UriTemplate.Proofs.Conversions
import UriTemplate.Proofs.Constructors
import UriTemplate.Proofs.ContextWrites
import UriTemplate.Proofs.RawValues
import UriTemplate.Proofs.Inspection
import UriTemplate.Proofs.Progress
import UriTemplate.Proofs.ExpressionSpans
import UriTemplate.Proofs.ReferenceCalls
