import Stablecoin.Binary64
import Stablecoin.Block
import Stablecoin.Checked
import Stablecoin.Coin
import Stablecoin.Collateral.Debt
import Stablecoin.Collateral.Deposit
import Stablecoin.Collateral.Interest
import Stablecoin.Collateral.Liquidation
import Stablecoin.Collateral.LoanToValue
import Stablecoin.Decimal.Arithmetic
import Stablecoin.Decimal.Basic
import Stablecoin.Decimal.Candid
import Stablecoin.Decimal.Fit
import Stablecoin.Decimal.Quotient
import Stablecoin.Decimal.Rounding
import Stablecoin.Decimal.Text
import Stablecoin.Engine.Basic
import Stablecoin.Engine.CollateralPlan
import Stablecoin.Engine.Governance
import Stablecoin.Engine.Plan
import Stablecoin.Engine.Query
import Stablecoin.Engine.Run
import Stablecoin.Engine.SwapPlan
import Stablecoin.Engine.Transact
import Stablecoin.Event
import Stablecoin.Fee
import Stablecoin.Journal
import Stablecoin.Json.Basic
import Stablecoin.Json.Events
import Stablecoin.Json.Number
import Stablecoin.Json.Records
import Stablecoin.Json.Rejections
import Stablecoin.Json.Requests
import Stablecoin.Json.Text
import Stablecoin.Ledger.Account
import Stablecoin.Ledger.Basic
import Stablecoin.Ledger.Operation
import Stablecoin.Params
import Stablecoin.PriceTable
import Stablecoin.Principal.Basic
import Stablecoin.Principal.Text
import Stablecoin.Proofs.Books
import Stablecoin.Proofs.Custody
import Stablecoin.Proofs.DebtBooks
import Stablecoin.Proofs.Decimal.Fit
import Stablecoin.Proofs.Decimal.Quotient
import Stablecoin.Proofs.Decimal.Value
import Stablecoin.Proofs.LedgerFlow
import Stablecoin.Proofs.PlanEffect
import Stablecoin.Proofs.PlanSpec
import Stablecoin.Proofs.RecordChange
import Stablecoin.Proofs.Result
import Stablecoin.Proofs.Steps
import Stablecoin.Proofs.Supply
import Stablecoin.Proofs.SwapQuotes
import Stablecoin.Proofs.SwapValue
import Stablecoin.Proofs.TableSum
import Stablecoin.Records
import Stablecoin.Rejection
import Stablecoin.Request
import Stablecoin.Store
import Stablecoin.Swap.Burn
import Stablecoin.Swap.Buyback
import Stablecoin.Swap.Mint
import Stablecoin.Swap.Mix
import Stablecoin.Swap.Reback
import Stablecoin.Swap.Surplus
import Stablecoin.Table
import Stablecoin.Proofs.Decimal.Share
import Stablecoin.Proofs.Parties
import Stablecoin.Proofs.LedgerBounds
import Stablecoin.Proofs.RecordRange
import Stablecoin.Proofs.Healthy
import Stablecoin.Proofs.Exit
import Stablecoin.Proofs.DebtLimit
import Stablecoin.Proofs.LiquidationGap
import Stablecoin.Proofs.Decimal.Range
import Stablecoin.Proofs.Graceful
import Stablecoin.Proofs.Validated
import Stablecoin.Proofs.GracefulSwaps
import Stablecoin.Proofs.GracefulLoans
import Stablecoin.Proofs.Failures
import Stablecoin.Proofs.LedgerHistory
import Stablecoin.Proofs.Decimal.Exact
import Stablecoin.Proofs.Surplus
import Stablecoin.Proofs.SwapSurplus
import Stablecoin.Proofs.Movement
import Stablecoin.Proofs.EventBooks
import Stablecoin.Proofs.LedgerFree
import Stablecoin.Proofs.ModuleFunds
import Stablecoin.Proofs.Footprint
import Stablecoin.Proofs.Commutation
import Stablecoin.Proofs.LedgerOrder
import Stablecoin.Proofs.Independence
import Stablecoin.Proofs.Ceilings
import Stablecoin.Proofs.RatioHistory
import Stablecoin.Proofs.SurplusTrades
import Stablecoin.Proofs.Decimal.Nearest
import Stablecoin.Proofs.Conversions
import Stablecoin.Proofs.Fees
import Stablecoin.Proofs.SwapCosts
import Stablecoin.Proofs.MixLegs
import Stablecoin.Proofs.Exchange
import Stablecoin.Proofs.MintInverse
import Stablecoin.Proofs.BurnRoundTrip
import Stablecoin.Proofs.BuybackRoundTrip
import Stablecoin.Proofs.RebackRoundTrip
import Stablecoin.Proofs.Decimal.Monotone
import Stablecoin.Proofs.LiquidationPrice
import Stablecoin.Proofs.InterestDrift
import Stablecoin.Proofs.LiquidationGate
import Stablecoin.Proofs.DebtTest
import Stablecoin.Proofs.Instalments
import Stablecoin.Proofs.Decimal.Order
import Stablecoin.Proofs.LoanToValueCurve
import Stablecoin.Proofs.SwapMonotone
import Stablecoin.Proofs.ZeroCoins
import Stablecoin.Proofs.FeeRange
import Stablecoin.Proofs.Decimal.Text
import Stablecoin.Proofs.Principal.Text
import Stablecoin.Proofs.Json.Text
import Stablecoin.Proofs.Json.Forms
import Stablecoin.Proofs.Json.RoundTrip
