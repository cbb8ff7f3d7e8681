import InertiaTrader.Database.MariaDB
import InertiaTrader.Database.OrderNumbers
import InertiaTrader.Database.Statements
import InertiaTrader.Database.TradingDataHandler
import InertiaTrader.Database.UserTable
import InertiaTrader.Deployment.Basic
import InertiaTrader.Deployment.Delivery
import InertiaTrader.Deployment.LockedOut
import InertiaTrader.Deployment.Transfer
import InertiaTrader.Deployment.Uncounted
import InertiaTrader.Exchange.Accounts
import InertiaTrader.Exchange.Answers
import InertiaTrader.Exchange.Basic
import InertiaTrader.Exchange.DeadConnections
import InertiaTrader.Exchange.Logins
import InertiaTrader.Exchange.Refinement
import InertiaTrader.Exchange.Sessions
import InertiaTrader.Foundation.Agenda
import InertiaTrader.Foundation.AssociationList
import InertiaTrader.Foundation.Detours
import InertiaTrader.Foundation.ExtendedRat
import InertiaTrader.Foundation.History
import InertiaTrader.Foundation.Insertion
import InertiaTrader.Foundation.KeyedTable
import InertiaTrader.Foundation.Machine
import InertiaTrader.Foundation.MaximalRuns
import InertiaTrader.Foundation.Numeral
import InertiaTrader.Foundation.OrderedBag
import InertiaTrader.Foundation.Potential
import InertiaTrader.Foundation.Rounding
import InertiaTrader.Foundation.RunningRange
import InertiaTrader.Foundation.SignificantDigits
import InertiaTrader.Foundation.TableHistory
import InertiaTrader.Foundation.Thinning
import InertiaTrader.Foundation.Tokens
import InertiaTrader.Foundation.TwoRuns
import InertiaTrader.Funclib.DataQueue
import InertiaTrader.Funclib.Faults
import InertiaTrader.Funclib.IniSections
import InertiaTrader.Funclib.IniValues
import InertiaTrader.Funclib.InitParser
import InertiaTrader.Funclib.RoundTrip
import InertiaTrader.Funclib.Split
import InertiaTrader.Funclib.Standard
import InertiaTrader.Funclib.Strtok
import InertiaTrader.MarketMaker.Client
import InertiaTrader.MarketMaker.OrderLimit
import InertiaTrader.MarketMaker.Process
import InertiaTrader.MarketMaker.Reconnecting
import InertiaTrader.MarketMaker.Replies
import InertiaTrader.Matching.Agenda
import InertiaTrader.Matching.Backlog
import InertiaTrader.Matching.BookLock
import InertiaTrader.Matching.Conservation
import InertiaTrader.Matching.Defined
import InertiaTrader.Matching.LimitPrices
import InertiaTrader.Matching.LockRefinement
import InertiaTrader.Matching.LockReleases
import InertiaTrader.Matching.LockedThreads
import InertiaTrader.Matching.PairSelection
import InertiaTrader.Matching.Products
import InertiaTrader.Matching.QuotedPrices
import InertiaTrader.Matching.Rejections
import InertiaTrader.Matching.Restart
import InertiaTrader.Matching.Simulation
import InertiaTrader.Matching.Unread
import InertiaTrader.Orders.Acceptance
import InertiaTrader.Orders.Attribution
import InertiaTrader.Orders.BuyingPower
import InertiaTrader.Orders.Cancellation
import InertiaTrader.Orders.CommandCodes
import InertiaTrader.Orders.DatabaseAgreement
import InertiaTrader.Orders.HeldOrders
import InertiaTrader.Orders.Independence
import InertiaTrader.Orders.Intake
import InertiaTrader.Orders.LifeCycle
import InertiaTrader.Orders.Modification
import InertiaTrader.Orders.ModificationRules
import InertiaTrader.Orders.NumeralTexts
import InertiaTrader.Orders.Processes
import InertiaTrader.Orders.ReplyRouting
import InertiaTrader.Orders.RiskBand
import InertiaTrader.Orders.RowHistory
import InertiaTrader.Orders.SafeStatements
import InertiaTrader.Orders.SerialNumbers
import InertiaTrader.Orders.Sides
import InertiaTrader.Orders.Stages
import InertiaTrader.Orders.Survival
import InertiaTrader.Reports.ExecutionRecords
import InertiaTrader.Reports.OrderUpdates
import InertiaTrader.Reports.Reporting
import InertiaTrader.Server.Accept
import InertiaTrader.Server.Basic
import InertiaTrader.Server.CleanReceives
import InertiaTrader.Server.ConnectionIds
import InertiaTrader.Server.Dispatch
import InertiaTrader.Server.EmptySockets
import InertiaTrader.Server.Frames
import InertiaTrader.Server.Heartbeats
import InertiaTrader.Server.Login
import InertiaTrader.Server.LoginBoundaries
import InertiaTrader.Server.LoginDecision
import InertiaTrader.Server.LoginFirst
import InertiaTrader.Server.NewAccounts
import InertiaTrader.Server.Quotes
import InertiaTrader.Server.Realignment
import InertiaTrader.Server.Reassembly
import InertiaTrader.Server.Receive
import InertiaTrader.Threads
import InertiaTrader.Trader.Basic
import InertiaTrader.Trader.Books
import InertiaTrader.Trader.GetCancelOrder
import InertiaTrader.Trader.GetOrder
import InertiaTrader.Trader.Loading
import InertiaTrader.Trader.Order
import InertiaTrader.Trader.Reports
import InertiaTrader.Trader.Unread
