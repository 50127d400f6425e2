import Purse.Event.Document
import Purse.Rate.Handle
import Purse.Gate.Timed
import Purse.Main
import Purse.Service.Run
import Purse.Settings.Document
import Purse.Proofs.Service.Effect
import Purse.Proofs.Service.Runs
import Purse.Proofs.Service.Records
import Purse.Proofs.Store.Memory
import Purse.Proofs.Service.Requests
import Purse.Proofs.Service.Rows
import Purse.Proofs.Service.Deeds
import Purse.Proofs.Service.Ledger
import Purse.Proofs.Service.Moments
import Purse.Proofs.Service.Linearization
import Purse.Proofs.Service.Balances
import Purse.Proofs.Gate.Shares
import Purse.Proofs.Service.Permits
import Purse.Proofs.Service.Failures
import Purse.Proofs.Decimal.Nearest
import Purse.Proofs.Decimal.Rounding
import Purse.Proofs.Decimal.Product
import Purse.Proofs.MinorUnits
import Purse.Proofs.Service.Exchange
import Purse.Proofs.Table
import Purse.Proofs.Service.Admission
import Purse.Proofs.Database.Transactions
import Purse.Proofs.Database.Mirror
import Purse.Proofs.Lock
import Purse.Proofs.Service.Locks
import Purse.Proofs.Service.Alike
import Purse.Proofs.Service.Atomicity
import Purse.Proofs.Service.Cancellation
import Purse.Proofs.Service.Stages
import Purse.Proofs.Service.Waiting
import Purse.Proofs.Service.Deadlock
import Purse.Proofs.Service.Completion
import Purse.Proofs.Rate.Cache
import Purse.Proofs.Rate.History
import Purse.Proofs.Service.Refreshes
import Purse.Proofs.Service.Staleness
import Purse.Proofs.Service.SharedFetch
import Purse.Proofs.Service.EventOrder
import Purse.Proofs.Gate.Conservation
import Purse.Proofs.Service.Oversubscription
import Purse.Proofs.Service.Serial
import Purse.Proofs.Service.Solo
import Purse.Proofs.Service.Obstacles
import Purse.Proofs.Service.Dealing
import Purse.Proofs.Service.Precheck
import Purse.Proofs.Service.Receivers
import Purse.Proofs.Decimal.Order
import Purse.Proofs.Service.Announcements
import Purse.Proofs.Service.Calm
import Purse.Proofs.Service.Settlement
import Purse.Proofs.Service.Isolation
import Purse.Proofs.Gate.Order
import Purse.Proofs.Database.NewRows
import Purse.Proofs.Settings
import Purse.Proofs.Service.Listing
import Purse.Proofs.Service.SteadyListing
import Purse.Proofs.Decimal.Quotient
import Purse.Proofs.Rate.Usable
import Purse.Proofs.Service.ProperRates
import Purse.Proofs.Store.Calls
import Purse.Proofs.Wallet.Refusals
import Purse.Proofs.Wallet.Deposits
import Purse.Proofs.Rate.Listing
import Purse.Proofs.Rate.Fixed
import Purse.Proofs.Database.Rates
import Purse.Proofs.Event.Log
import Purse.Proofs.Event.Delivery
import Purse.Proofs.Service.Delivery
import Purse.Proofs.Text.Digits
import Purse.Proofs.Decimal.Numeral
import Purse.Proofs.MinorUnits.Display
import Purse.Proofs.Decimal.Monotone
import Purse.Proofs.Decimal.Truncation
import Purse.Proofs.MinorUnits.Range
import Purse.Proofs.Service.AcceptedAmounts
import Purse.Proofs.Timestamp.Calendar
import Purse.Proofs.Timestamp.Text
import Purse.Proofs.Uuid
import Purse.Proofs.Json.Text
import Purse.Proofs.Json.Reader
import Purse.Proofs.Json.Record
import Purse.Proofs.Wallet.Document
import Purse.Proofs.Decimal.Layout
import Purse.Proofs.Event.Document
