import MarkupLabels.Component.Written
import MarkupLabels.Main
import MarkupLabels.Source.Acceptance
import MarkupLabels.Proofs.Source.Scanning
import MarkupLabels.Proofs.Source.Lookahead
import MarkupLabels.Proofs.Source.OpenTags
import MarkupLabels.Proofs.Source.Weaving
import MarkupLabels.Proofs.Source.Edits
import MarkupLabels.Proofs.Tree.Extension
import MarkupLabels.Proofs.Source.Rendering
import MarkupLabels.Proofs.Tree.Markers
import MarkupLabels.Proofs.Tree.Schedule
import MarkupLabels.Proofs.Source.AttributeText
import MarkupLabels.Proofs.Source.Outlooks
import MarkupLabels.Proofs.Source.Rereading
import MarkupLabels.Proofs.Source.Stability
import MarkupLabels.Proofs.Source.Enrichment
import MarkupLabels.Proofs.Source.Places
import MarkupLabels.Proofs.Source.ReadBack
import MarkupLabels.Proofs.Json.Escapes
import MarkupLabels.Proofs.Source.Roundtrip
import MarkupLabels.Proofs.Source.Settling
import MarkupLabels.Proofs.Source.Composition
import MarkupLabels.Proofs.Source.Relabelling
import MarkupLabels.Proofs.Component.Lookup
import MarkupLabels.Proofs.Label.Noninterference
import MarkupLabels.Proofs.Label.Agreement
import MarkupLabels.Proofs.Tree.Locality
import MarkupLabels.Proofs.Import.Resolution
import MarkupLabels.Proofs.Source.ForeignNames
import MarkupLabels.Proofs.Text.Encoding
import MarkupLabels.Proofs.Text.Alphabet
import MarkupLabels.Proofs.Label.LineFeeds
import MarkupLabels.Proofs.Source.Alphabet
import MarkupLabels.Proofs.Source.LineFeeds
import MarkupLabels.Proofs.Files.Contents
import MarkupLabels.Proofs.Files.Discovery
import MarkupLabels.Proofs.Run.Rewriting
import MarkupLabels.Proofs.Run.Preview
import MarkupLabels.Proofs.Run.Insertions
import MarkupLabels.Proofs.Run.Isolation
import MarkupLabels.Proofs.Yaml.Entry
import MarkupLabels.Proofs.Json.Literals
import MarkupLabels.Proofs.Config.Plain
import MarkupLabels.Proofs.Config.Payload
import MarkupLabels.Proofs.Config.Reordering
import MarkupLabels.Proofs.Config.Faithful
import MarkupLabels.Proofs.Component.Families
import MarkupLabels.Proofs.Label.Coherence
import MarkupLabels.Proofs.Tree.NearestContext
import MarkupLabels.Proofs.Import.Bindings
import MarkupLabels.Proofs.Import.Aliases
import MarkupLabels.Proofs.Tree.Renaming
import MarkupLabels.Proofs.Config.Keys
import MarkupLabels.Proofs.Config.Merging
import MarkupLabels.Proofs.Config.Paths
import MarkupLabels.Proofs.Config.Interchange
import MarkupLabels.Proofs.Config.Presentation
import MarkupLabels.Proofs.Import.Recognition
import MarkupLabels.Proofs.Tree.Walks
import MarkupLabels.Proofs.Source.Nesting
import MarkupLabels.Proofs.Tree.Counts
import MarkupLabels.Proofs.Tree.Skipping
import MarkupLabels.Proofs.Run.Accounting
import MarkupLabels.Proofs.Run.BreakingOff
import MarkupLabels.Proofs.Source.OwnLines
