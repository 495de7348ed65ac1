import DataBlock.Device.Memory
import DataBlock.Main
import DataBlock.Table.Session
import DataBlock.Table.Exchange
import DataBlock.Table.Edit
import DataBlock.Table.Lookup
import DataBlock.Proofs.MemoryHistory
import DataBlock.Proofs.Calendar
import DataBlock.Proofs.RoundTrip.Text
import DataBlock.Proofs.RoundTrip.Clock
import DataBlock.Proofs.RoundTrip
import DataBlock.Proofs.Footprint
import DataBlock.Proofs.Locality
import DataBlock.Proofs.RowStore
import DataBlock.Proofs.Reach
import DataBlock.Proofs.Displacement
import DataBlock.Proofs.TableAccess
import DataBlock.Proofs.RowIsolation
import DataBlock.Proofs.DeviceCopy
import DataBlock.Proofs.LayoutLanguage.Token
import DataBlock.Proofs.LayoutLanguage.Expression
import DataBlock.Proofs.LayoutLanguage.Reader
import DataBlock.Proofs.LayoutLanguage.Line
import DataBlock.Proofs.LayoutLanguage.Placed
import DataBlock.Proofs.LayoutLanguage.Text
import DataBlock.Proofs.LayoutLanguage.Field
import DataBlock.Proofs.LayoutLanguage
import DataBlock.Proofs.LayoutLanguage.Declarable
import DataBlock.Proofs.LayoutLanguage.Listing
import DataBlock.Proofs.StoredFaults
import DataBlock.Proofs.Placement
import DataBlock.Proofs.Printing.Numeral
import DataBlock.Proofs.Printing.Quoted
import DataBlock.Proofs.Printing.Clock
import DataBlock.Proofs.Printing.Real
import DataBlock.Proofs.Printing
import DataBlock.Proofs.DuplicateIds
import DataBlock.Proofs.Representable
import DataBlock.Proofs.Normalisation
import DataBlock.Proofs.TableGeometry
import DataBlock.Proofs.LayoutLanguage.Rejection
import DataBlock.Proofs.IdLookup
import DataBlock.Proofs.DecimalTime
import DataBlock.Proofs.FinestBase
import DataBlock.Proofs.CalendarCodes
import DataBlock.Proofs.OneLine
import DataBlock.Proofs.RowListing
import DataBlock.Proofs.AtomicTransfers
import DataBlock.Proofs.KeyEquality
import DataBlock.Proofs.ArgumentOrder
import DataBlock.Proofs.ByteDump
import DataBlock.Proofs.WholeRows
