import SearchIndex.Main
import SearchIndex.Proofs.Index.Curl
import SearchIndex.Proofs.Mapping.Location
import SearchIndex.Proofs.Mapping.Merge
import SearchIndex.Proofs.Request.Container
import SearchIndex.Proofs.Mapping.Monoid
import SearchIndex.Proofs.Mapping.Questions
import SearchIndex.Proofs.Mapping.Every
import SearchIndex.Proofs.Mapping.Regular
import SearchIndex.Proofs.Request.Faults
import SearchIndex.Proofs.Json.Every
import SearchIndex.Proofs.Json.Scalars
import SearchIndex.Proofs.Json.RoundTrip
import SearchIndex.Proofs.Json.Distinct
import SearchIndex.Proofs.Request.Embedded
import SearchIndex.Proofs.Schema.Distinct
import SearchIndex.Proofs.Mapping.Written
import SearchIndex.Proofs.Json.Record
import SearchIndex.Proofs.Index.Document
import SearchIndex.Proofs.Request.Script
import SearchIndex.Proofs.Request.Reading
import SearchIndex.Proofs.Mapping.Alias
import SearchIndex.Proofs.Request.Alias
import SearchIndex.Proofs.Mapping.Places
import SearchIndex.Proofs.Mapping.Replacements
import SearchIndex.Proofs.Mapping.References
import SearchIndex.Proofs.Mapping.Absorption
import SearchIndex.Proofs.Request.Repeated
import SearchIndex.Proofs.Json.Spelling
import SearchIndex.Proofs.Schema.Search
import SearchIndex.Proofs.Command.Address
import SearchIndex.Proofs.Mapping.Groups
import SearchIndex.Proofs.Mapping.Parameters
import SearchIndex.Proofs.Mapping.Elements
import SearchIndex.Proofs.Mapping.Metadata
import SearchIndex.Proofs.Schema.Grammar
import SearchIndex.Proofs.Mapping.Candidates
import SearchIndex.Proofs.Mapping.Targets
import SearchIndex.Proofs.Json.ReadBack
import SearchIndex.Proofs.Schema.ReadBack
import SearchIndex.Proofs.Request.ReadBack
import SearchIndex.Proofs.Mapping.ReadBack
import SearchIndex.Proofs.Table
import SearchIndex.Proofs.Mapping.History
import SearchIndex.Proofs.Index.Aliases
import SearchIndex.Proofs.Index.Settings
import SearchIndex.Proofs.Json.Text
import SearchIndex.Proofs.Json.Fitting
import SearchIndex.Proofs.Json.Parsed
import SearchIndex.Proofs.Schema.Text
