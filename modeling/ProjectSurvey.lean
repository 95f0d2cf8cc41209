import ProjectSurvey.Advice
import ProjectSurvey.Classification
import ProjectSurvey.CommandLine.Arguments
import ProjectSurvey.CommandLine.Command
import ProjectSurvey.CommandLine.Run
import ProjectSurvey.Configuration
import ProjectSurvey.Configuration.Load
import ProjectSurvey.Configuration.Starter
import ProjectSurvey.Data.Assoc
import ProjectSurvey.Data.Calendar
import ProjectSurvey.Data.Datum
import ProjectSurvey.Data.ReadFault
import ProjectSurvey.Data.Timestamp
import ProjectSurvey.Digest.Base64
import ProjectSurvey.Digest.Sha256
import ProjectSurvey.DirectoryTree
import ProjectSurvey.Disk.Access
import ProjectSurvey.Disk.Basic
import ProjectSurvey.Disk.Change
import ProjectSurvey.Disk.Exchange
import ProjectSurvey.Disk.Lookup
import ProjectSurvey.Document
import ProjectSurvey.Evidence
import ProjectSurvey.EvidenceCache
import ProjectSurvey.Failure
import ProjectSurvey.FileRecord
import ProjectSurvey.FileReport
import ProjectSurvey.FileReport.OnDisk
import ProjectSurvey.Graph.Basic
import ProjectSurvey.Graph.Build
import ProjectSurvey.Graph.Network
import ProjectSurvey.Ignore
import ProjectSurvey.Json.Reader
import ProjectSurvey.Json.Writer
import ProjectSurvey.Main
import ProjectSurvey.Manifest
import ProjectSurvey.Manifest.Data
import ProjectSurvey.Manifest.Fault
import ProjectSurvey.Manifest.Lines
import ProjectSurvey.Manifest.OnDisk
import ProjectSurvey.Metrics
import ProjectSurvey.Number.Binary64
import ProjectSurvey.Number.Shortest
import ProjectSurvey.Path
import ProjectSurvey.Pattern.Basic
import ProjectSurvey.ProjectProfile
import ProjectSurvey.Proofs.Classification
import ProjectSurvey.Proofs.CommandLine.Confined
import ProjectSurvey.Proofs.Configuration.Loading
import ProjectSurvey.Proofs.Configuration.Options
import ProjectSurvey.Proofs.Conventions
import ProjectSurvey.Proofs.Disk.Growth
import ProjectSurvey.Proofs.Disk.Tree
import ProjectSurvey.Proofs.Document.Circles
import ProjectSurvey.Proofs.Evidence.Opening
import ProjectSurvey.Proofs.Evidence.Refinement
import ProjectSurvey.Proofs.Evidence.Signature
import ProjectSurvey.Proofs.Graph.Dependents
import ProjectSurvey.Proofs.Graph.Edges
import ProjectSurvey.Proofs.Graph.Impact
import ProjectSurvey.Proofs.Graph.Separation
import ProjectSurvey.Proofs.Ignore.Anchored
import ProjectSurvey.Proofs.Json.RoundTrip
import ProjectSurvey.Proofs.Json.Sorted
import ProjectSurvey.Proofs.Manifest.Gemfiles
import ProjectSurvey.Proofs.Manifest.GoModules
import ProjectSurvey.Proofs.Manifest.Isolation
import ProjectSurvey.Proofs.Metrics
import ProjectSurvey.Proofs.Octets
import ProjectSurvey.Proofs.Pattern.LeadingFeed
import ProjectSurvey.Proofs.Profile.Frameworks
import ProjectSurvey.Proofs.Reference.RelativeImports
import ProjectSurvey.Proofs.Reference.Resolution
import ProjectSurvey.Proofs.Risk
import ProjectSurvey.Proofs.Rule.LeadingFeed
import ProjectSurvey.Proofs.Rule.Locations
import ProjectSurvey.Proofs.Rule.Plugins
import ProjectSurvey.Proofs.Rule.VulnerablePackages
import ProjectSurvey.Proofs.RuleOrder
import ProjectSurvey.Proofs.Scoring
import ProjectSurvey.Proofs.Snapshot.Opening
import ProjectSurvey.Proofs.Snapshot.Saving
import ProjectSurvey.Proofs.Suffixes
import ProjectSurvey.Proofs.Survey.Coherence
import ProjectSurvey.Proofs.Survey.Disabling
import ProjectSurvey.Proofs.Survey.EnvironmentFiles
import ProjectSurvey.Proofs.Survey.OutputDirectory
import ProjectSurvey.Proofs.Survey.Transparency
import ProjectSurvey.Proofs.Text.Integers
import ProjectSurvey.Proofs.Walk.Exact
import ProjectSurvey.Proofs.Walk.Result
import ProjectSurvey.Reference.Extraction
import ProjectSurvey.Reference.Resolution
import ProjectSurvey.Rule.Basic
import ProjectSurvey.Rule.Builtin
import ProjectSurvey.Rule.Checks
import ProjectSurvey.Rule.Discovery
import ProjectSurvey.Rule.Engine
import ProjectSurvey.Rule.ProjectChecks
import ProjectSurvey.Rule.Version
import ProjectSurvey.Service
import ProjectSurvey.Service.Address
import ProjectSurvey.Snapshot
import ProjectSurvey.Snapshot.Extent
import ProjectSurvey.Snapshot.Load
import ProjectSurvey.Snapshot.Reader
import ProjectSurvey.Structure
import ProjectSurvey.Survey
import ProjectSurvey.Survey.Conduct
import ProjectSurvey.Survey.Evidence
import ProjectSurvey.Tables
import ProjectSurvey.Text.Blank
import ProjectSurvey.Text.CaseTable
import ProjectSurvey.Text.CharacterBounds
import ProjectSurvey.Text.Chars
import ProjectSurvey.Text.Classes
import ProjectSurvey.Text.Glob
import ProjectSurvey.Text.Lines
import ProjectSurvey.Text.Lower
import ProjectSurvey.Text.Utf8
import ProjectSurvey.Toml.Moment
import ProjectSurvey.Toml.Reader
import ProjectSurvey.Toml.Scalar
import ProjectSurvey.Walk
import ProjectSurvey.Workspace
import ProjectSurvey.Xml.Basic
import ProjectSurvey.Xml.ContentModel
import ProjectSurvey.Xml.Doctype
import ProjectSurvey.Xml.Names
import ProjectSurvey.Xml.Prologue
import ProjectSurvey.Xml.Reader
import ProjectSurvey.Xml.Token
import ProjectSurvey.Yaml.Document
import ProjectSurvey.Yaml.Fault
import ProjectSurvey.Yaml.Node
import ProjectSurvey.Yaml.Place
import ProjectSurvey.Yaml.Scalar
import ProjectSurvey.Yaml.Tag
import ProjectSurvey.Yaml.Token
import ProjectSurvey.Yaml.Value
