import ComponentAttrs.Main
import ComponentAttrs.Graph.Json
import ComponentAttrs.Proofs.Walk.Replay
import ComponentAttrs.Proofs.Walk.Expansion
import ComponentAttrs.Proofs.Walk.Layers
import ComponentAttrs.Proofs.Walk.Reachability
import ComponentAttrs.Proofs.Walk.Tidying
import ComponentAttrs.Proofs.Walk.GlobalMixins
import ComponentAttrs.Proofs.Scope.Listing
import ComponentAttrs.Proofs.Scope.Lookup
import ComponentAttrs.Proofs.Scope.Members
import ComponentAttrs.Proofs.Walk.Course
import ComponentAttrs.Proofs.Walk.Flattening
import ComponentAttrs.Proofs.Walk.Listening
import ComponentAttrs.Proofs.Graph.Composition
import ComponentAttrs.Proofs.Graph.Writing
import ComponentAttrs.Proofs.Scope.Inheritance
import ComponentAttrs.Proofs.Catalog.Entries
import ComponentAttrs.Proofs.Catalog.Documents
import ComponentAttrs.Proofs.Catalog.Files
import ComponentAttrs.Proofs.Scope.Locality
import ComponentAttrs.Proofs.Attribute.Spelling
import ComponentAttrs.Proofs.Attribute.Recovery
import ComponentAttrs.Proofs.Attribute.Tokens
import ComponentAttrs.Proofs.Attribute.Bases
import ComponentAttrs.Proofs.Attribute.Segments
import ComponentAttrs.Proofs.Scope.Retrieval
import ComponentAttrs.Proofs.Attribute.Marks
import ComponentAttrs.Proofs.Attribute.Languages
import ComponentAttrs.Proofs.Attribute.WellFormed
import ComponentAttrs.Proofs.Attribute.Counterparts
import ComponentAttrs.Proofs.Attribute.Valueless
import ComponentAttrs.Proofs.Attribute.Canonical
import ComponentAttrs.Proofs.Scope.Locals
import ComponentAttrs.Proofs.Scope.Modifier
import ComponentAttrs.Proofs.Scope.Spelling
import ComponentAttrs.Proofs.Scope.Directives
import ComponentAttrs.Proofs.Catalog.Directives
import ComponentAttrs.Proofs.Catalog.Dangling
import ComponentAttrs.Proofs.Scope.Interface
import ComponentAttrs.Proofs.Scope.Contexts
import ComponentAttrs.Proofs.Scope.Outsiders
import ComponentAttrs.Proofs.Graph.Identifiers
import ComponentAttrs.Proofs.Graph.Quoting
import ComponentAttrs.Proofs.Catalog.Interning
import ComponentAttrs.Proofs.Document.Written
import ComponentAttrs.Proofs.Document.Forms
import ComponentAttrs.Proofs.Command.Session
import ComponentAttrs.Proofs.Command.Errors
import ComponentAttrs.Proofs.Command.Export
import ComponentAttrs.Proofs.Graph.Additions
import ComponentAttrs.Proofs.Project.Root
import ComponentAttrs.Proofs.Project.Settings
import ComponentAttrs.Proofs.Yaml.Scanning
import ComponentAttrs.Proofs.Yaml.Lexing
import ComponentAttrs.Proofs.Yaml.Composing
import ComponentAttrs.Proofs.Yaml.Building
import ComponentAttrs.Proofs.Project.Loading
