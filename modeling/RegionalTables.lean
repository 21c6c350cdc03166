import RegionalTables.SortedMap
import RegionalTables.SortedSet
import RegionalTables.Decimal
import RegionalTables.Text.Form
import RegionalTables.Text.Alphanumeric
import RegionalTables.Sha256
import RegionalTables.Base64
import RegionalTables.Json.Text
import RegionalTables.Json.Shape
import RegionalTables.Query.Parameter
import RegionalTables.Query.Reading
import RegionalTables.Query.Key
import RegionalTables.Catalog.Reading
import RegionalTables.Catalog.View
import RegionalTables.Catalog.Check
import RegionalTables.Filter.Search
import RegionalTables.Filter.OfQuery
import RegionalTables.FactStore
import RegionalTables.BaseTable.Blob
import RegionalTables.Presentation.Rendering
import RegionalTables.Cache.Database
import RegionalTables.Service.Report
import RegionalTables.Settings.Reading
import RegionalTables.CommandLine.Run
import RegionalTables.Main
import RegionalTables.Proofs.Collections
import RegionalTables.Proofs.Text.Split
import RegionalTables.Proofs.Query.Selection
import RegionalTables.Proofs.Filter.Meaning
import RegionalTables.Proofs.Catalog.Check
import RegionalTables.Proofs.Fact
import RegionalTables.Proofs.BaseTable.Rows
import RegionalTables.Proofs.BaseTable.Complete
import RegionalTables.Proofs.BaseTable.ClosedWorld
import RegionalTables.Proofs.Base64
import RegionalTables.Proofs.Binary64
import RegionalTables.Proofs.Binary64.Whole
import RegionalTables.Proofs.Decimal
import RegionalTables.Proofs.Decimal.Numeral
import RegionalTables.Proofs.Decimal.Reading
import RegionalTables.Proofs.Json.Number
import RegionalTables.Proofs.Json.Reading
import RegionalTables.Proofs.Json.Document
import RegionalTables.Proofs.BaseTable.Blob
import RegionalTables.Proofs.Cache
import RegionalTables.Proofs.Query.Definition
import RegionalTables.Proofs.Service.Transparency
import RegionalTables.Proofs.Query.Identity
import RegionalTables.Proofs.Query.Entry
import RegionalTables.Proofs.Query.Merge
import RegionalTables.Proofs.Query.Cleaning
import RegionalTables.Proofs.Query.Fields
import RegionalTables.Proofs.Query.Respelling
import RegionalTables.Proofs.Service.Answer
import RegionalTables.Proofs.Service.Writes
import RegionalTables.Proofs.Service.History
import RegionalTables.Proofs.Filter.Search
import RegionalTables.Proofs.Filter.Partition
import RegionalTables.Proofs.StableSort
import RegionalTables.Proofs.Presentation.Arrangement
import RegionalTables.Proofs.Presentation.Layout
import RegionalTables.Proofs.Presentation.Pivot
import RegionalTables.Proofs.BaseTable.Order
import RegionalTables.Proofs.Presentation.Order
import RegionalTables.Proofs.Service.FactOrder
import RegionalTables.Proofs.Cache.Uses
import RegionalTables.Proofs.Catalog.View
import RegionalTables.Proofs.Presentation.View
import RegionalTables.Proofs.FactStore.Lines
import RegionalTables.Proofs.Json.OneLine
import RegionalTables.Proofs.FactStore.Search
import RegionalTables.Proofs.Query.Acceptance
import RegionalTables.Proofs.Cache.Statistics
import RegionalTables.Proofs.Service.Report
import RegionalTables.Proofs.BaseTable.FlatDimensions
import RegionalTables.Proofs.Presentation.Header
import RegionalTables.Proofs.Frame.Rows
import RegionalTables.Proofs.Cell.Text
import RegionalTables.Proofs.Frame.Delimited
import RegionalTables.Proofs.Cell.Written
import RegionalTables.Proofs.Frame.Document
import RegionalTables.Proofs.Catalog.FirstUnknown
import RegionalTables.Proofs.Query.Written
import RegionalTables.Proofs.Filter.Merged
import RegionalTables.Proofs.Text.Order
import RegionalTables.Proofs.BaseTable.Latest
import RegionalTables.Proofs.Json.Digits
import RegionalTables.Proofs.BaseTable.Conditions
import RegionalTables.Proofs.Cell.Order
import RegionalTables.Proofs.Presentation.RowOrder
import RegionalTables.Proofs.Presentation.HeaderIds
import RegionalTables.Proofs.Query.Pieces
import RegionalTables.Proofs.Query.Arguments
import RegionalTables.Proofs.Environment
import RegionalTables.Proofs.Presentation.Shape
import RegionalTables.Proofs.Catalog.OwnKeys
