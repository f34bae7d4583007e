import WalletBudget.Api.Handler
import WalletBudget.Database.Row
import WalletBudget.Json.Write
import WalletBudget.Proofs.LimitBypass
import WalletBudget.Proofs.Overspending
import WalletBudget.Proofs.ReservationMoment
import WalletBudget.Settings.Load
import WalletBudget.Settings.SocketAddress
import WalletBudget.Vasp.Client
import WalletBudget.Wire.Row
import WalletBudget.Proofs.RetiredLimit
import WalletBudget.Proofs.Asking
import WalletBudget.Proofs.Finality
import WalletBudget.Proofs.FlowEnd
import WalletBudget.Proofs.LimitPointer
import WalletBudget.Proofs.CycleTable
import WalletBudget.Proofs.LiveCycle
import WalletBudget.Proofs.Recording
import WalletBudget.Proofs.PaymentRecord
import WalletBudget.Proofs.WriteSets
import WalletBudget.Proofs.FallbackCost
import WalletBudget.Proofs.AmountRange
import WalletBudget.Proofs.FlowReport
import WalletBudget.Proofs.Isolation
import WalletBudget.Proofs.HoldCeiling
import WalletBudget.Proofs.HoldOverflow
import WalletBudget.Proofs.AdminRuns
import WalletBudget.Proofs.RereadRecords
import WalletBudget.Proofs.RefusedReservation
import WalletBudget.Proofs.LimitTransition
import WalletBudget.Proofs.ConnectionSetup
import WalletBudget.Proofs.AmountChange
import WalletBudget.Proofs.Periods
import WalletBudget.Proofs.CycleSearch
import WalletBudget.Proofs.WantedLimit
import WalletBudget.Proofs.Renewal
import WalletBudget.Proofs.ReservationAttempts
import WalletBudget.Proofs.BudgetView
import WalletBudget.Proofs.BudgetText
import WalletBudget.Proofs.QuoteRequest
import WalletBudget.Proofs.ViewGate
import WalletBudget.Proofs.MaskedUrl
import WalletBudget.Proofs.ConnectionHistory
import WalletBudget.Proofs.ShareRounding
