import DnscryptProxy.Library.PrefixMap
import DnscryptProxy.Library.Glob
import DnscryptProxy.Library.ArcCache
import DnscryptProxy.Library.Chain
import DnscryptProxy.Library.Interleaving
import DnscryptProxy.Library.KeyedList
import DnscryptProxy.Basic
import DnscryptProxy.Message
import DnscryptProxy.Crypto
import DnscryptProxy.State
import DnscryptProxy.Exchange
import DnscryptProxy.ObliviousDoH
import DnscryptProxy.PatternMatcher
import DnscryptProxy.BlockedNames
import DnscryptProxy.Plugins.Query
import DnscryptProxy.Plugins.Response
import DnscryptProxy.Plugins.Pipeline
import DnscryptProxy.Plugins.Effects
import DnscryptProxy.Plugins.Application
import DnscryptProxy.Plugins.Panics
import DnscryptProxy.Proxy
import DnscryptProxy.Phases.Query
import DnscryptProxy.Phases.Exchange
import DnscryptProxy.Phases.Response
import DnscryptProxy.Phases.Call
import DnscryptProxy.Phases.Halting
import DnscryptProxy.Authenticity
import DnscryptProxy.Filtering
import DnscryptProxy.CacheRuns
import DnscryptProxy.Safety
import DnscryptProxy.ClientsCount
import DnscryptProxy.Registry
import DnscryptProxy.Relays
import DnscryptProxy.Sources
import DnscryptProxy.ServersInfo
import DnscryptProxy.Refreshing
import DnscryptProxy.RoundTrips
import DnscryptProxy.Plugins.Handling
import DnscryptProxy.Plugins.Verdicts
import DnscryptProxy.PayloadSize
import DnscryptProxy.Transactions
import DnscryptProxy.Phases.History
import DnscryptProxy.CacheFiltering
import DnscryptProxy.Library.Incremental
import DnscryptProxy.Framing
import DnscryptProxy.Sealing
import DnscryptProxy.Retries
import DnscryptProxy.Charging
import DnscryptProxy.Contacts
import DnscryptProxy.Dialing
import DnscryptProxy.IPCache
import DnscryptProxy.RuleOrder
import DnscryptProxy.Cloaking
import DnscryptProxy.Library.Fnmatch
import DnscryptProxy.Blocklist
import DnscryptProxy.LoadBalancing
import DnscryptProxy.Library.Selection
import DnscryptProxy.Library.Words
import DnscryptProxy.FarthestRelay
import DnscryptProxy.RuleReasons
import DnscryptProxy.AddressRules
import DnscryptProxy.TargetConfigs
import DnscryptProxy.ObliviousResponses
import DnscryptProxy.CertRounds
import DnscryptProxy.Certificates
import DnscryptProxy.AddressText
import DnscryptProxy.DNS64
import DnscryptProxy.AddressForms
import DnscryptProxy.CacheTTLs
import DnscryptProxy.Prefetching
import DnscryptProxy.SourceLists
import DnscryptProxy.Resolving
import DnscryptProxy.CloakedPTR
import DnscryptProxy.PTRAnswers
import DnscryptProxy.ViaLists
import DnscryptProxy.InlineComments
import DnscryptProxy.Forwarding
import DnscryptProxy.Padding
import DnscryptProxy.LocalDoH
import DnscryptProxy.ClientReplies
import DnscryptProxy.Fetching
import DnscryptProxy.Probing
import DnscryptProxy.Undelegated
import DnscryptProxy.TXTRecords
import DnscryptProxy.Families
import DnscryptProxy.CritBit
import DnscryptProxy.Library.UTF8
import DnscryptProxy.MatcherTries
import DnscryptProxy.CacheContents
import DnscryptProxy.Library.Base64
import DnscryptProxy.Stamps
import DnscryptProxy.Library.Edges
import DnscryptProxy.Radix
import DnscryptProxy.AddressTries
import DnscryptProxy.ColdStart
import DnscryptProxy.Sessions
import DnscryptProxy.Reflection
import DnscryptProxy.DomainNames
import DnscryptProxy.RecordFields
import DnscryptProxy.DNSMessages
