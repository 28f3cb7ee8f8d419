import Playground.Artifact
import Playground.Build.Discover
import Playground.Build.Error
import Playground.Build.Session
import Playground.Build.Variants
import Playground.Bundle
import Playground.Bytes.Base64
import Playground.Bytes.Crc32
import Playground.Bytes.Deflate
import Playground.Bytes.Gzip
import Playground.Bytes.Hex
import Playground.Bytes.Octets
import Playground.Bytes.Sha256
import Playground.Bytes.Tar
import Playground.Bytes.Utf8
import Playground.Delta
import Playground.Digest
import Playground.Fetch.Host
import Playground.Fetch.Mirror
import Playground.Fetch.Policy
import Playground.Fetch.Resolver
import Playground.FrontEnd
import Playground.Graph
import Playground.Json.Number
import Playground.Json.Quoted
import Playground.Json.Read
import Playground.Json.Value
import Playground.Main
import Playground.Message
import Playground.Number.Binary64
import Playground.Package
import Playground.Program.Color
import Playground.Program.CommandLine
import Playground.Program.Duration
import Playground.Program.Failure
import Playground.Program.Report
import Playground.Program.Run
import Playground.Proofs.Build.Calls
import Playground.Proofs.Build.Cancellation
import Playground.Proofs.Build.Coherence
import Playground.Proofs.Build.Completeness
import Playground.Proofs.Build.Discovery
import Playground.Proofs.Build.Effects
import Playground.Proofs.Build.Interleaving
import Playground.Proofs.Build.Meaning
import Playground.Proofs.Build.Parity
import Playground.Proofs.Build.Pass
import Playground.Proofs.Build.Progress
import Playground.Proofs.Build.Recording
import Playground.Proofs.Build.Refinement
import Playground.Proofs.Build.Units
import Playground.Proofs.Build.Variants
import Playground.Proofs.Bundle.ContentHash
import Playground.Proofs.Bundle.FrontEnd
import Playground.Proofs.Bundle.Minified
import Playground.Proofs.Bundle.ModuleText
import Playground.Proofs.Bundle.OptimizedText
import Playground.Proofs.Bundle.Payload
import Playground.Proofs.Bundle.Rendered
import Playground.Proofs.Bytes.Base64
import Playground.Proofs.Bytes.Gzip
import Playground.Proofs.Delta.Sync
import Playground.Proofs.Digest
import Playground.Proofs.Ensures
import Playground.Proofs.Fetch.Availability
import Playground.Proofs.Fetch.Prepared
import Playground.Proofs.Fetch.Reports
import Playground.Proofs.Fetch.Requests
import Playground.Proofs.Fetch.Stored
import Playground.Proofs.Graph.Closure
import Playground.Proofs.Graph.Counting
import Playground.Proofs.Graph.Edges
import Playground.Proofs.Graph.Heights
import Playground.Proofs.Graph.Levels
import Playground.Proofs.Graph.Needs
import Playground.Proofs.Json.Numeral
import Playground.Proofs.Json.Quoted
import Playground.Proofs.Json.RoundTrip
import Playground.Proofs.Layers
import Playground.Proofs.Message
import Playground.Proofs.Named
import Playground.Proofs.Package
import Playground.Proofs.Publish.Accepted
import Playground.Proofs.Publish.Agreement
import Playground.Proofs.Publish.Catalog
import Playground.Proofs.Publish.Effects
import Playground.Proofs.Publish.History
import Playground.Proofs.Publish.Keys
import Playground.Proofs.Publish.Saved
import Playground.Proofs.Publish.TableFile
import Playground.Proofs.Publish.Universe
import Playground.Proofs.Rendered
import Playground.Proofs.Results
import Playground.Proofs.Session.Parts
import Playground.Proofs.Session.Trace
import Playground.Proofs.Source.Clause
import Playground.Proofs.Source.FirstToken
import Playground.Proofs.Source.Header
import Playground.Proofs.Source.Lexemes
import Playground.Proofs.Source.Position
import Playground.Proofs.Source.Reading
import Playground.Proofs.Sources
import Playground.Proofs.Text.CodeLines
import Playground.Proofs.Text.Lines
import Playground.Proofs.Transport
import Playground.Proofs.Tree.Calls
import Playground.Proofs.Tree.Changes
import Playground.Proofs.Tree.Components
import Playground.Proofs.Tree.Confined
import Playground.Proofs.Tree.Contents
import Playground.Proofs.Tree.Disk
import Playground.Proofs.Tree.Memory
import Playground.Proofs.Tree.Mount
import Playground.Proofs.Tree.Walk
import Playground.Proofs.Tree.Written
import Playground.Proofs.Workspace
import Playground.Publish.Catalog
import Playground.Publish.Publisher
import Playground.Publish.Universe
import Playground.Session
import Playground.Settings
import Playground.Source.Imports
import Playground.Source.PackageClause
import Playground.Source.Token
import Playground.Store.Bucket
import Playground.Store.WebBucket
import Playground.Text.Blank
import Playground.Text.Letter
import Playground.Text.Lines
import Playground.Text.Visible
import Playground.Transport
import Playground.Tree.Basic
import Playground.Tree.Copy
import Playground.Tree.Disk
import Playground.Tree.DiskPath
import Playground.Tree.Error
import Playground.Tree.Memory
import Playground.Tree.Mount
import Playground.Tree.Path
import Playground.Tree.View
import Playground.Variant
import Playground.Web
import Playground.Workspace
