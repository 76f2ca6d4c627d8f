import UriTemplate.AssociativeArray
import UriTemplate.Component.Source
import UriTemplate.Main
import UriTemplate.Session
import UriTemplate.Proofs.Component.Scan
import UriTemplate.Proofs.Component.Cut
import UriTemplate.Proofs.Component.Fault
import UriTemplate.Proofs.Percent
import UriTemplate.Proofs.Expansion.Injective
import UriTemplate.Proofs.Component.Reference
import UriTemplate.Proofs.Component.Content
import UriTemplate.Proofs.Component.RoundTrip
import UriTemplate.Proofs.Component.Append
import UriTemplate.Proofs.Value.Entries
import UriTemplate.Proofs.Value.Coercion
import UriTemplate.Proofs.Yaml.Constructed
import UriTemplate.Proofs.Value.Alike
import UriTemplate.Proofs.Bindings.Document
import UriTemplate.Proofs.Expansion.Call
import UriTemplate.Proofs.Expansion.Failure
import UriTemplate.Proofs.Expansion.Removal
import UriTemplate.Proofs.Expansion.Parts
import UriTemplate.Proofs.Session
import UriTemplate.Proofs.Component.Overlong
import UriTemplate.Proofs.Command.Run
import UriTemplate.Proofs.Command.Expand
import UriTemplate.Json
import UriTemplate.Proofs.Decimal.Rounding
import UriTemplate.Proofs.Decimal.Shortest
import UriTemplate.Proofs.Decimal.FloatText
import UriTemplate.Proofs.Yaml.Scalar
import UriTemplate.Proofs.Yaml.Line
import UriTemplate.Proofs.Yaml.Quoted
import UriTemplate.Proofs.Yaml.Lexer
import UriTemplate.Proofs.Yaml.Flow
import UriTemplate.Proofs.Json.Source
import UriTemplate.Proofs.Json.Tokens
import UriTemplate.Proofs.Json.Nodes
import UriTemplate.Proofs.Json.Values
import UriTemplate.Proofs.Json.Faithful
import UriTemplate.Proofs.Bindings.Json
import UriTemplate.Proofs.Expansion.Pieces
import UriTemplate.Proofs.Component.Grammar
import UriTemplate.Proofs.Expansion.Exploded
import UriTemplate.Proofs.Name.Walk
import UriTemplate.Proofs.Log
import UriTemplate.Proofs.Yaml.Mappings
import UriTemplate.Proofs.Yaml.Refinement
import UriTemplate.Proofs.Value.TextKeys
