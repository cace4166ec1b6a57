import RndRust.Bambu.Api.Access
import RndRust.Bambu.Api.Jobs
import RndRust.Bambu.Forwarding
import RndRust.Distributed.Storage
import RndRust.Irc.Bnc.Login
import RndRust.Irc.Bnc.Replay
import RndRust.Irc.Bnc.Timestamps
import RndRust.Irc.Client.Dcc
import RndRust.Irc.Client.Events
import RndRust.Irc.Client.Nicks
import RndRust.Irc.Proto.Lines
import RndRust.Irc.Proto.ToMessage
import RndRust.Irc.Server.JoinRace
import RndRust.Irc.Server.Membership
import RndRust.Irc.Server.ModeEcho
import RndRust.Irc.Server.NickRegistry
import RndRust.Irc.Server.Origin
import RndRust.Irc.Server.Teardown
import RndRust.LocalSend.Destination
import RndRust.LocalSend.Stream
import RndRust.Makana.Pairing
import RndRust.Perception.Attribution
import RndRust.Sniper.Channels
import RndRust.Sniper.Purchases
import RndRust.Sniper.Landing
import RndRust.Sniper.Reconnects
import RndRust.Thunder.Safety
import RndRust.VolumeMaker.Evm.Recovery
import RndRust.VolumeMaker.Fencing
import RndRust.VolumeMaker.Login
import RndRust.VolumeMaker.Stopping
import RndRust.Irc.Server.MonitorAccuracy
import RndRust.Thunder.PriceMoves
import RndRust.Thunder.PoolRegistry
import RndRust.Thunder.Clmm.Walk
import RndRust.Thunder.Dlmm.Walk
import RndRust.Thunder.Aggregator.Splits
import RndRust.Thunder.Reach
import RndRust.Thunder.ConstantProduct
import RndRust.Thunder.Pumpfun
import RndRust.Lib.Calendar
import RndRust.VolumeMaker.Subscription
import RndRust.Lib.Index
import RndRust.VolumeMaker.WsClientManager
import RndRust.VolumeMaker.Tracking
import RndRust.Thunder.Dlmm.Fees
import RndRust.Thunder.Damm
import RndRust.Lib.Nearest
import RndRust.Thunder.Clmm.Selection
import RndRust.Thunder.Clmm.NextTick
import RndRust.Bambu.Api.Feed
import RndRust.Irc.Server.Capabilities
import RndRust.Irc.Server.Enforcement
import RndRust.Lib.Abi
import RndRust.Lib.Greedy
import RndRust.Makana.Recorder
import RndRust.Makana.TroubleCodes
import RndRust.Perception.Tracks
import RndRust.VolumeMaker.Evm.SwapEncoding
import RndRust.VolumeMaker.Evm.Trades
import RndRust.Irc.Bnc.Standing
import RndRust.Lib.Numerals
import RndRust.Lib.Select
import RndRust.Perception.Queries
import RndRust.Lib.Marginal
import RndRust.Thunder.Aggregator.Optimal
import RndRust.VolumeMaker.Payments
import RndRust.VolumeMaker.Evm.Receipts
import RndRust.Sniper.RetryBudget
import RndRust.Sniper.TrackedWallets
import RndRust.Sniper.Webapp.Rights
import RndRust.Sniper.Webapp.Profiles
import RndRust.Irc.Client.Commands
import RndRust.Irc.Proto.Ctcp
import RndRust.Irc.Proto.Format
import RndRust.Irc.Server.Bans
import RndRust.Irc.Server.Clock
import RndRust.Irc.Server.Limiter
import RndRust.Perception.Nms
import RndRust.Thunder.Clmm.TickGaps
import RndRust.Irc.Server.Welcome
import RndRust.Irc.Server.Logins
import RndRust.Irc.Server.ChannelOps
import RndRust.VolumeMaker.Sessions
import RndRust.Thunder.Aggregator.Cache
import RndRust.Irc.Server.ProxyProto
import RndRust.Lib.Radix
import RndRust.Thunder.Keys
import RndRust.Thunder.Bundle
import RndRust.Thunder.Executed
import RndRust.Thunder.Api
import RndRust.Thunder.Prepared
import RndRust.Thunder.Settled
