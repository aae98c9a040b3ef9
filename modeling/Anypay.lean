import Anypay.CancellationTheorems
import Anypay.WebhookTheorems
import Anypay.ActorTheorems
import Anypay.Db.Columns
import Anypay.Prices
import Anypay.InvoiceTheorems
import Anypay.RefreshTheorems
import Anypay.OwnershipTheorems
import Anypay.TermsTheorems
import Anypay.SettleTheorems
import Anypay.SubmissionTheorems
import Anypay.Store.Totals
import Anypay.VerificationTheorems
import Anypay.Chains.Broadcast
import Anypay.BroadcastTheorems
import Anypay.Chains.Confirmation
import Anypay.ConfirmationTheorems
import Anypay.Chains.Evm
import Anypay.EvmTheorems
import Anypay.Chains.Others
import Anypay.OthersTheorems
import Anypay.Chains.Registry
import Anypay.RecordTheorems
import Anypay.PaymentRequests
import Anypay.PaymentRequestTheorems
import Anypay.Refunds
import Anypay.RefundTheorems
import Anypay.Async.Machine
import Anypay.BlockbookClient
import Anypay.BlockbookClientTheorems
import Anypay.Websockets
import Anypay.WebsocketTheorems
import Anypay.Unsigned
import Anypay.UnsignedTheorems
import Anypay.IdTheorems
import Anypay.ConfirmedEventTheorems
import Anypay.Blocks
import Anypay.BlockTheorems
import Anypay.WebhookServer
import Anypay.LifecycleTheorems
import Anypay.WebhookServerTheorems
import Anypay.Async.Exclusive
import Anypay.PaidEventTheorems
import Anypay.ConfirmerTheorems
import Anypay.RefundOnceTheorems
import Anypay.AccountTheorems
import Anypay.WalletBots
import Anypay.WalletBotTheorems
import Anypay.WalletBotSockets
import Anypay.WalletBotSocketTheorems
import Anypay.Addresses
import Anypay.AddressTheorems
import Anypay.AccountReads
import Anypay.AccountReadTheorems
import Anypay.FiatPrices
import Anypay.FiatPriceTheorems
import Anypay.OptionTotalTheorems
import Anypay.PaymentProtocols
import Anypay.PaymentProtocolTheorems
import Anypay.RouteTheorems
import Anypay.RoundTripTheorems
import Anypay.RequestTotalTheorems
import Anypay.PriceUpdateTheorems
import Anypay.InvoiceWebhookTheorems
import Anypay.Async.Stages
import Anypay.AttemptTheorems
import Anypay.Histories
import Anypay.InvoiceShow
import Anypay.SettledPaymentTheorems
import Anypay.ConfirmInvoiceTheorems
import Anypay.CreationQuoteTheorems
import Anypay.Freshness
import Anypay.FreshnessTheorems
import Anypay.AgreementTheorems
import Anypay.VerdictTheorems
import Anypay.Async.Together
import Anypay.OptionMakingTheorems
import Anypay.RejectedRequestTheorems
import Anypay.Async.Repeat
import Anypay.RepeatedRefreshes
import Anypay.RepeatedRefreshTheorems
import Anypay.Async.Latest
import Anypay.LatestPriceTheorems
import Anypay.Bip70Theorems
import Anypay.AddressBalanceTheorems
import Anypay.Async.Among
import Anypay.Fees
import Anypay.FeeTheorems
import Anypay.ListingTheorems
import Anypay.Async.Traces
import Anypay.Passwords
import Anypay.PasswordTheorems
import Anypay.ReplayTheorems
import Anypay.Currencies
import Anypay.CurrencyTheorems
import Anypay.SatoshiTheorems
import Anypay.Relational.Store
import Anypay.Relational.Writes
import Anypay.AccountUpdates
import Anypay.Relational.Idle
import Anypay.AccountUpdateTheorems
import Anypay.Async.Relay
import Anypay.Receipts
import Anypay.ReceiptTheorems
import Anypay.Wallet
import Anypay.WalletRunTheorems
import Anypay.Async.Drift
import Anypay.Db.Drift
import Anypay.SessionTheorems
import Anypay.CoinTheorems
import Anypay.LinkedAccountTheorems
import Anypay.BookTheorems
