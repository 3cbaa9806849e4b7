import Tabular.Host.Connection
import Tabular.Main
import Tabular.Patch.Edit
import Tabular.Proofs.Csv.Calls
import Tabular.Proofs.Csv.CellInParts
import Tabular.Proofs.Csv.Generations
import Tabular.Proofs.Csv.Advance
import Tabular.Proofs.Csv.Chunks
import Tabular.Proofs.Csv.UsedInput
import Tabular.Proofs.Csv.Delivery
import Tabular.Proofs.Csv.WholeInput
import Tabular.Proofs.Csv.Failures
import Tabular.Proofs.Csv.Written
import Tabular.Proofs.Csv.RoundTrip
import Tabular.Proofs.Echo.EditedTable
import Tabular.Proofs.Table.Scan
import Tabular.Proofs.Sql.TextColumns
import Tabular.Proofs.Table.Names
import Tabular.Proofs.Table.Declaring
import Tabular.Proofs.Table.Lookahead
import Tabular.Proofs.Csv.WaysToRead
import Tabular.Proofs.Csv.SecondMark
import Tabular.Proofs.Csv.RowLimit
import Tabular.Proofs.Patch.Repeats
import Tabular.Proofs.Echo.RepeatedOverwrites
import Tabular.Proofs.Echo.CutShort
import Tabular.Proofs.Csv.EarlyFinish
import Tabular.Proofs.Csv.HandedOver
import Tabular.Proofs.Table.Numbering
import Tabular.Proofs.Host.Admission
import Tabular.Proofs.Table.Repeats
import Tabular.Proofs.Table.BadRow
import Tabular.Proofs.Table.Disconnected
import Tabular.Proofs.Echo.AnyOverwrites
import Tabular.Proofs.Echo.Twice
import Tabular.Proofs.Table.ByHeader
import Tabular.Proofs.Csv.CellInRow
import Tabular.Proofs.Table.Renaming
import Tabular.Proofs.Table.Parameters
import Tabular.Proofs.Table.Reopening
import Tabular.Proofs.Table.PlainValues
import Tabular.Proofs.Table.ArgumentOrder
import Tabular.Proofs.Cli.Groups
import Tabular.Proofs.Csv.Indices
import Tabular.Proofs.Csv.Returning
