import LoadPlan.CommandLine.Outcome
import LoadPlan.LogFormat
import LoadPlan.Main
import LoadPlan.Settings.Json
import LoadPlan.Proofs.Reference.Trail
import LoadPlan.Proofs.Sample.Expansion
import LoadPlan.Proofs.Sample.Nesting
import LoadPlan.Proofs.Reference.Error
import LoadPlan.Proofs.Compile.ReferenceErrors
import LoadPlan.Proofs.Document.Declaration
import LoadPlan.Proofs.Plan.Samplers
import LoadPlan.Proofs.Xml.Reader
import LoadPlan.Proofs.Xml.Escaping
import LoadPlan.Proofs.Xml.RoundTrip
import LoadPlan.Proofs.Plan.Markup
import LoadPlan.Proofs.Reference.Reach
import LoadPlan.Proofs.Sample.Cycle
import LoadPlan.Proofs.Json.Fields
import LoadPlan.Proofs.Sample.Unfolding
import LoadPlan.Proofs.Sample.Transparency
import LoadPlan.Proofs.Sample.Draws
import LoadPlan.Proofs.Sample.Session
import LoadPlan.Proofs.Plan.Independence
import LoadPlan.Proofs.Json.Scalars
import LoadPlan.Proofs.Json.RoundTrip
import LoadPlan.Proofs.Json.Sound
import LoadPlan.Proofs.Yaml.Sound
import LoadPlan.Proofs.Document.Sound
import LoadPlan.Proofs.Sample.Sound
import LoadPlan.Proofs.Json.Carried
import LoadPlan.Proofs.Plan.Bodies
import LoadPlan.Proofs.Document.Operations
import LoadPlan.Proofs.Compile.Randomness
import LoadPlan.Proofs.Yaml.Entries
import LoadPlan.Proofs.Json.Equality
import LoadPlan.Proofs.Document.Entries
import LoadPlan.Proofs.Yaml.QuotedText
import LoadPlan.Proofs.Yaml.PlainText
import LoadPlan.Proofs.Yaml.Numerals
import LoadPlan.Proofs.Json.Reader
import LoadPlan.Proofs.Yaml.FlowTokens
import LoadPlan.Proofs.Yaml.FlowNodes
import LoadPlan.Proofs.Yaml.JsonText
import LoadPlan.Proofs.Document.Hint
import LoadPlan.Proofs.Sample.Body
import LoadPlan.Proofs.Reference.Agreement
import LoadPlan.Proofs.Sample.Conformance
import LoadPlan.Proofs.Compile.Agreement
import LoadPlan.Proofs.Compile.BaseUrl
import LoadPlan.Proofs.CommandLine.Listing
import LoadPlan.Proofs.Reference.Chain
import LoadPlan.Proofs.Xml.Normalization
import LoadPlan.Proofs.Sample.Identifiers
import LoadPlan.Proofs.Sample.Distinct
import LoadPlan.Proofs.Plan.Placeholders
import LoadPlan.Proofs.Pointer.Segments
import LoadPlan.Proofs.Pointer.Walk
import LoadPlan.Proofs.Pointer.Location
import LoadPlan.Proofs.Sample.Visited
import LoadPlan.Proofs.Json.BodyText
import LoadPlan.Proofs.Plan.Variables
import LoadPlan.Proofs.Plan.Paths
import LoadPlan.Proofs.Number.Rounding
import LoadPlan.Proofs.Sample.Constraints
import LoadPlan.Proofs.Document.ServerVariables
import LoadPlan.Proofs.BaseUrl.Parts
import LoadPlan.Proofs.Plan.Names
import LoadPlan.Proofs.Sample.Failure
import LoadPlan.Proofs.Compile.Failure
import LoadPlan.Proofs.CommandLine.Options
import LoadPlan.Proofs.CommandLine.Delivery
