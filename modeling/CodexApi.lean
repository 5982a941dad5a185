import CodexApi.Auth
import CodexApi.Chat.Agreement
import CodexApi.Chat.Billing
import CodexApi.Chat.Completion
import CodexApi.Chat.Format
import CodexApi.Chat.Grammar
import CodexApi.Chat.History
import CodexApi.Chat.Request
import CodexApi.Chat.Response
import CodexApi.Chat.RoundTrip
import CodexApi.Chat.Strict
import CodexApi.Cli.QuotaViews
import CodexApi.Cli.Stat
import CodexApi.Clock
import CodexApi.Config
import CodexApi.Credentials.Consistency
import CodexApi.Credentials.Refresh
import CodexApi.Credentials.Seed
import CodexApi.Credentials.SingleFlight
import CodexApi.Credentials.Vault
import CodexApi.Decimal
import CodexApi.Delivery.Answers
import CodexApi.Delivery.Bookkeeping
import CodexApi.Delivery.Books
import CodexApi.Delivery.Cancellation
import CodexApi.Delivery.Charges
import CodexApi.Delivery.ChatRespect
import CodexApi.Delivery.ChatWire
import CodexApi.Delivery.Commit
import CodexApi.Delivery.Connection
import CodexApi.Delivery.ConnectionRespects
import CodexApi.Delivery.Contract
import CodexApi.Delivery.Effects
import CodexApi.Delivery.ErrorRows
import CodexApi.Delivery.Failures
import CodexApi.Delivery.Handlers
import CodexApi.Delivery.HandlersRespect
import CodexApi.Delivery.Invariant
import CodexApi.Delivery.LedgerClosure
import CodexApi.Delivery.Logs
import CodexApi.Delivery.Machine
import CodexApi.Delivery.Orders
import CodexApi.Delivery.Outputs
import CodexApi.Delivery.Panics
import CodexApi.Delivery.Prompt
import CodexApi.Delivery.RelayProtocol
import CodexApi.Delivery.Replies
import CodexApi.Delivery.ResponsesRespect
import CodexApi.Delivery.Serving
import CodexApi.Delivery.SessionRelay
import CodexApi.Delivery.Shutdown
import CodexApi.Delivery.Traces
import CodexApi.Delivery.Tracks
import CodexApi.Delivery.Views
import CodexApi.Error
import CodexApi.Json
import CodexApi.JsonRoundTrip
import CodexApi.JsonText
import CodexApi.Lib.Except
import CodexApi.Lib.List
import CodexApi.Lib.OrdMap
import CodexApi.Lib.Panic
import CodexApi.Lib.Program
import CodexApi.Lib.Sse
import CodexApi.Lib.Transition
import CodexApi.Panics.Requests
import CodexApi.Panics.Streams
import CodexApi.Panics.Turns
import CodexApi.Relay.Models
import CodexApi.Relay.Reframe
import CodexApi.Relay.Requests
import CodexApi.Relay.Wire
import CodexApi.Session.Actor
import CodexApi.Session.Budget
import CodexApi.Session.Cache
import CodexApi.Session.Context
import CodexApi.Session.Continuation
import CodexApi.Session.Failure
import CodexApi.Session.KeysApart
import CodexApi.Session.Prepare
import CodexApi.Session.Protocol
import CodexApi.Session.Reconstruction
import CodexApi.Session.Retention
import CodexApi.Store.Concurrency
import CodexApi.Store.Credentials
import CodexApi.Store.Ledger
import CodexApi.Store.Pricing
import CodexApi.Store.Quota
import CodexApi.Store.Totality
import CodexApi.Store.WriteOnce
import CodexApi.Upstream.Capacity
import CodexApi.Upstream.Client
import CodexApi.Upstream.Headers
import CodexApi.Upstream.ModelsCache
import CodexApi.Upstream.Prewarm
import CodexApi.Upstream.Recognition
import CodexApi.Upstream.Requests
import CodexApi.Upstream.Terminal
