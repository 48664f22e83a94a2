import TemplateCompiler.Assembly.Assemble
import TemplateCompiler.Main
import TemplateCompiler.Registry.Interleaving
import TemplateCompiler.Proofs.Text.Splice
import TemplateCompiler.Proofs.Markup.Tiling
import TemplateCompiler.Proofs.Markup.Values
import TemplateCompiler.Proofs.Markup.TagLexing
import TemplateCompiler.Proofs.Markup.Spelling
import TemplateCompiler.Proofs.Markup.Recognition
import TemplateCompiler.Proofs.Extraction.Holes
import TemplateCompiler.Proofs.Extraction.Seams
import TemplateCompiler.Proofs.Extraction.Shape
import TemplateCompiler.Proofs.Markup.Bindings
import TemplateCompiler.Proofs.Extraction.StaticText
import TemplateCompiler.Proofs.Text.Trim
import TemplateCompiler.Proofs.Extraction.Records
import TemplateCompiler.Proofs.Accessor.RoundTrip
import TemplateCompiler.Proofs.Assembly.RoundTrip
import TemplateCompiler.Proofs.Assembly.Finalisation
import TemplateCompiler.Proofs.Registry.Nesting
import TemplateCompiler.Proofs.Registry.Advance
import TemplateCompiler.Proofs.Registry.Lookup
import TemplateCompiler.Proofs.Registry.Runs
import TemplateCompiler.Proofs.Registry.History
import TemplateCompiler.Proofs.Registry.Threads
import TemplateCompiler.Proofs.Compilation
import TemplateCompiler.Proofs.Markup.ClauseRewriting
import TemplateCompiler.Proofs.Markup.TagParts
import TemplateCompiler.Proofs.Markup.Renewal
import TemplateCompiler.Proofs.Markup.Rewriting
import TemplateCompiler.Proofs.Extraction.Refilling
import TemplateCompiler.Proofs.Extraction.Idempotence
import TemplateCompiler.Proofs.Registration
import TemplateCompiler.Proofs.Source.Literal
import TemplateCompiler.Proofs.Extraction.Scoping
import TemplateCompiler.Proofs.Json.Leaves
import TemplateCompiler.Proofs.Json.Copying
import TemplateCompiler.Proofs.Assembly.Requirements
import TemplateCompiler.Proofs.OrderedMap
import TemplateCompiler.Proofs.Outcome
import TemplateCompiler.Proofs.Assembly.Stages
import TemplateCompiler.Proofs.Accessor.Qualifiers
import TemplateCompiler.Proofs.Extraction.Comments
import TemplateCompiler.Proofs.Assembly.NestedComponents
import TemplateCompiler.Proofs.Assembly.Collections
import TemplateCompiler.Proofs.Component.Ancestry
import TemplateCompiler.Proofs.Component.Members
import TemplateCompiler.Proofs.Assembly.Subtypes
import TemplateCompiler.Proofs.Accessor.Constants
import TemplateCompiler.Proofs.Assembly.Constants
import TemplateCompiler.Proofs.Component.Walk
import TemplateCompiler.Proofs.Accessor.Bodies
import TemplateCompiler.Proofs.Extraction.Signatures
import TemplateCompiler.Proofs.Extraction.Scan
import TemplateCompiler.Proofs.Extraction.Blame
import TemplateCompiler.Proofs.Accessor.Recognition
import TemplateCompiler.Proofs.Json.Fidelity
import TemplateCompiler.Proofs.Json.Openings
import TemplateCompiler.Proofs.Assembly.Copies
import TemplateCompiler.Proofs.Assembly.PropTypes
import TemplateCompiler.Proofs.Component.Unrelated
import TemplateCompiler.Proofs.Json.Layout
import TemplateCompiler.Proofs.CompiledTemplate
import TemplateCompiler.Proofs.Markup.Partition
import TemplateCompiler.Proofs.Markup.Placement
import TemplateCompiler.Proofs.Placeholder.Search
import TemplateCompiler.Proofs.Placeholder.Numbering
