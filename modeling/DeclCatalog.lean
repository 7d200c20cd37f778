import DeclCatalog.Catalog
import DeclCatalog.Classify
import DeclCatalog.Collect.Class
import DeclCatalog.Collect.Declaration
import DeclCatalog.Collect.Decorated
import DeclCatalog.Collect.Decorators
import DeclCatalog.Collect.File
import DeclCatalog.Collect.Members
import DeclCatalog.Config.Basic
import DeclCatalog.Config.File
import DeclCatalog.Diagnostic
import DeclCatalog.Disk
import DeclCatalog.Double
import DeclCatalog.Extract
import DeclCatalog.Json.Basic
import DeclCatalog.Json.Decode
import DeclCatalog.Json.Encode
import DeclCatalog.Json.Number
import DeclCatalog.Json.Parser
import DeclCatalog.Json.Printer
import DeclCatalog.Logged
import DeclCatalog.Path
import DeclCatalog.Project
import DeclCatalog.Proofs.JsonCodec
import DeclCatalog.Proofs.JsonOrder
import DeclCatalog.Proofs.JsonText
import DeclCatalog.Proofs.KindCodec
import DeclCatalog.Proofs.TermNormal
import DeclCatalog.Record.Basic
import DeclCatalog.Record.Class
import DeclCatalog.Record.Declaration
import DeclCatalog.Record.Decorated
import DeclCatalog.Record.File
import DeclCatalog.Record.Member
import DeclCatalog.Resolve.Type
import DeclCatalog.Resolve.Value
import DeclCatalog.Term.Basic
import DeclCatalog.Term.Codec
import DeclCatalog.Term.Kind
import DeclCatalog.Text.Blank
import DeclCatalog.Text.Digit
import DeclCatalog.Text.IntPrefix
import DeclCatalog.Text.Quote
import DeclCatalog.Toml.Basic
import DeclCatalog.Toml.Document
import DeclCatalog.Toml.Moment
import DeclCatalog.Toml.Number
import DeclCatalog.Toml.Text
import DeclCatalog.Toml.Value
import DeclCatalog.Tree.Cursor
import DeclCatalog.Tree.Node
import DeclCatalog.Tree.Source
import DeclCatalog.Word
import DeclCatalog.Proofs.TermCodec
import DeclCatalog.Proofs.RecordCodec
import DeclCatalog.Proofs.DecoratedCodec
import DeclCatalog.Proofs.CatalogRoundTrip
import DeclCatalog.Proofs.PreorderWalk
import DeclCatalog.Proofs.CollectedTerms
import DeclCatalog.Proofs.FileByFile
import DeclCatalog.Proofs.WellFormedTerms
import DeclCatalog.Proofs.ExtractedRecords
import DeclCatalog.Proofs.DepthTruncation
import DeclCatalog.Proofs.SentinelReports
import DeclCatalog.Proofs.MemberTerms
import DeclCatalog.Proofs.Subtree
import DeclCatalog.Proofs.ClassSentinels
import DeclCatalog.Proofs.NestingBound
import DeclCatalog.Proofs.ReportPlaces
import DeclCatalog.Proofs.ErrorSearch
import DeclCatalog.Proofs.FileDiagnostics
import DeclCatalog.Proofs.RoleRouting
import DeclCatalog.Proofs.CatalogLaws
import DeclCatalog.Proofs.AliasEffect
import DeclCatalog.Proofs.MemberDistribution
import DeclCatalog.Proofs.MemberBuckets
import DeclCatalog.Proofs.ConstructorMetadata
import DeclCatalog.Proofs.DecoratorSelection
import DeclCatalog.Proofs.DecoratedUnion
import DeclCatalog.Proofs.DecoratorFields
import DeclCatalog.Proofs.InterfaceMembers
import DeclCatalog.Proofs.TextBytes
import DeclCatalog.Proofs.TypeChains
import DeclCatalog.Proofs.IntegerPrefix
import DeclCatalog.Proofs.EnumMembers
import DeclCatalog.Proofs.StringLists
