import ErCanvas.Grid.Session
import ErCanvas.Main
import ErCanvas.Number.Basic
import ErCanvas.Store.Session
import ErCanvas.Web.Api
import ErCanvas.Proofs.Diagram.RoundTrip
import ErCanvas.Proofs.Grid.Route
import ErCanvas.Proofs.Sql.KeyClause
import ErCanvas.Proofs.Sql.Commented
import ErCanvas.Proofs.Sql.Consistency
import ErCanvas.Proofs.Sql.Header
import ErCanvas.Proofs.Sql.Reading
import ErCanvas.Proofs.Sql.Literal
import ErCanvas.Proofs.Sql.Default
import ErCanvas.Proofs.Sql.Refinement
import ErCanvas.Proofs.Sql.KeyList
import ErCanvas.Proofs.Sql.BareColumn
import ErCanvas.Proofs.Number.Rounding
import ErCanvas.Proofs.Number.Shortest
import ErCanvas.Proofs.Json.Read
import ErCanvas.Proofs.Schema.Declared
import ErCanvas.Proofs.Diagram.NormalForm
import ErCanvas.Proofs.Diagram.Import
import ErCanvas.Proofs.Store.Closed
import ErCanvas.Proofs.Store.Session
import ErCanvas.Proofs.Store.Column
import ErCanvas.Proofs.Store.ReadOnly
import ErCanvas.Proofs.Grid.Ledger
import ErCanvas.Proofs.Grid.Halting
import ErCanvas.Proofs.Connector.Modes
import ErCanvas.Proofs.Web.Agreement
import ErCanvas.Proofs.Web.Routing
import ErCanvas.Proofs.Sql.Balanced
import ErCanvas.Proofs.Sql.Listed
import ErCanvas.Proofs.Path.Turns
import ErCanvas.Proofs.Sql.Unclosed
import ErCanvas.Proofs.Path.Axial
import ErCanvas.Proofs.Connector.OneWay
import ErCanvas.Proofs.Sql.NormalForm
import ErCanvas.Proofs.Grid.Blocked
import ErCanvas.Proofs.Path.Direct
import ErCanvas.Proofs.Layout.Apart
import ErCanvas.Proofs.Conversion.Detected
import ErCanvas.Proofs.Path.Traced
import ErCanvas.Proofs.Grid.Lineage
import ErCanvas.Proofs.Grid.Finality
import ErCanvas.Proofs.Conversion.Progress
import ErCanvas.Proofs.Web.Limits
import ErCanvas.Proofs.CommandLine
