import RestiqBackend.ReadCommitted.Txn
import RestiqBackend.ReadCommitted.System
import RestiqBackend.ReadCommitted.Rely
import RestiqBackend.Proration
import RestiqBackend.Tax
import RestiqBackend.Store
import RestiqBackend.Kitchen
import RestiqBackend.BillCore
import RestiqBackend.OrderLines
import RestiqBackend.Payments
import RestiqBackend.Bills
import RestiqBackend.GuestBills
import RestiqBackend.Tenants
import RestiqBackend.Service
import RestiqBackend.Footprints
import RestiqBackend.Ledger
import RestiqBackend.Bookkeeping
import RestiqBackend.Sharing
import RestiqBackend.LineEdits
import RestiqBackend.Requests
import RestiqBackend.Settlement
import RestiqBackend.GuestSettlement
import RestiqBackend.OpenBill
import RestiqBackend.Refunds
import RestiqBackend.Repayment
import RestiqBackend.Orders
import RestiqBackend.ClosedOrder
import RestiqBackend.IntentExclusion
import RestiqBackend.PinReplacement
import RestiqBackend.CashUp
import RestiqBackend.AttemptLimiter
import RestiqBackend.DeadLetters
import RestiqBackend.TokenNumbers
import RestiqBackend.Paging
import RestiqBackend.MenuImport
import RestiqBackend.ImportedOnce
import RestiqBackend.Reports
import RestiqBackend.Devices
import RestiqBackend.DeviceQueues
import RestiqBackend.Catalogue
import RestiqBackend.TableCart
import RestiqBackend.TillMenu
import RestiqBackend.Placement
import RestiqBackend.Availability
import RestiqBackend.TaxLaws
import RestiqBackend.TableLayout
import RestiqBackend.OnDuty
import RestiqBackend.Silences
import RestiqBackend.TestMode
import RestiqBackend.StaleTotals
import RestiqBackend.LiveOnce
import RestiqBackend.Hubs
import RestiqBackend.UsedOnce
import RestiqBackend.OneBill
import RestiqBackend.CashRounding
import RestiqBackend.ShareSplit
import RestiqBackend.Reductions
import RestiqBackend.Invoices
import RestiqBackend.Repricing
import RestiqBackend.MenuPrices
import RestiqBackend.ComboPicks
import RestiqBackend.CartEdits
import RestiqBackend.FirstVariant
import RestiqBackend.CashShares
import RestiqBackend.FailedAlerts
import RestiqBackend.Recalls
import RestiqBackend.Csv
import RestiqBackend.Slugs
import RestiqBackend.TenantAddress
import RestiqBackend.ImportCheck
import RestiqBackend.PriceCells
import RestiqBackend.CartCombos
import RestiqBackend.PlacedAsShown
import RestiqBackend.ComboCounts
import RestiqBackend.SimulatedMoney
import RestiqBackend.Approvals
import RestiqBackend.Routing
import RestiqBackend.KitchenCopy
import RestiqBackend.TillAndKitchen
import RestiqBackend.ReadCommitted.PartialIndex
import RestiqBackend.ReadCommitted.Alone
import RestiqBackend.GuestTables
import RestiqBackend.OneParty
import RestiqBackend.TableMap
import RestiqBackend.SessionEnds
import RestiqBackend.TableTurns
