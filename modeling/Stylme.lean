import Stylme.Lib.Prog
import Stylme.Lib.Pool
import Stylme.Domain.Models
import Stylme.Lib.Collection
import Stylme.Store.World
import Stylme.Domain.Graph
import Stylme.Service.Basic
import Stylme.Service.Dispatch
import Stylme.Service.Calls
import Stylme.Service.Campaigns
import Stylme.Service.Protocol
import Stylme.Store.Effects
import Stylme.Service.System
import Stylme.Properties.Terminal
import Stylme.Service.Copies
import Stylme.Properties.Concurrency
import Stylme.Service.Claims
import Stylme.Properties.DialBound
import Stylme.Properties.Abandoned
import Stylme.Properties.Idempotency
import Stylme.Properties.Inbound
import Stylme.Properties.HandoffPath
import Stylme.Lib.Sequence
import Stylme.Properties.Snapshots
import Stylme.Properties.Counters
import Stylme.Properties.Scheduling
import Stylme.Chat.Sessions
import Stylme.Chat.Reply
import Stylme.Properties.ChatHistory
import Stylme.Backend.Store
import Stylme.Reconciler.Store
import Stylme.Reconciler.Graphs
import Stylme.Reconciler.Retags
import Stylme.Reconciler.Runs
import Stylme.Reconciler.Protocol
import Stylme.Reconciler.Effects
import Stylme.Reconciler.System
import Stylme.Reconciler.Plans
import Stylme.Properties.RetagLimit
import Stylme.Properties.Outcomes
import Stylme.Properties.Rejection
import Stylme.Properties.GraphActivation
import Stylme.Properties.CataloguePass
import Stylme.Lib.Monitor
import Stylme.Properties.RunEnd
import Stylme.Backend.Values
import Stylme.Lib.Coroutine
import Stylme.Recovery.Source
import Stylme.Recovery.Provider
import Stylme.Recovery.Run
import Stylme.Properties.RecoveryEnd
import Stylme.Lib.Machine
import Stylme.Worker.Graph
import Stylme.Worker.Session
import Stylme.Worker.System
import Stylme.Worker.Effects
import Stylme.Properties.NodeAgreement
import Stylme.Properties.CapturedData
import Stylme.Catalogue.Query
import Stylme.Catalogue.Drafts
import Stylme.Properties.FitFilter
import Stylme.Catalogue.Ranking
import Stylme.Catalogue.Weights
import Stylme.Properties.VectorScores
import Stylme.Catalogue.Listing
import Stylme.Catalogue.Rows
import Stylme.Properties.PagedFirst
import Stylme.Catalogue.Metadata
import Stylme.Properties.RankingSafe
import Stylme.Properties.PagePartition
import Stylme.Catalogue.SwoopStyl
import Stylme.Properties.Deliverable
import Stylme.Catalogue.Storefront
import Stylme.Catalogue.Search
import Stylme.Properties.SortOrder
import Stylme.Catalogue.Approvals
import Stylme.Catalogue.ApprovalProtocol
import Stylme.Properties.ProjectionExact
import Stylme.Properties.SecretsKept
import Stylme.Shopper.Commands
import Stylme.Shopper.Cart
import Stylme.Shopper.Profile
import Stylme.Shopper.System
import Stylme.Shopper.Protocol
import Stylme.Properties.CartSafety
import Stylme.Lib.Numbered
import Stylme.Shopper.Runs
import Stylme.Properties.CheckoutTotals
import Stylme.Properties.CartErrors
import Stylme.Properties.RecoveryTokens
import Stylme.Lib.Traced
import Stylme.Properties.CalledCheckouts
import Stylme.Properties.ApprovedContent
import Stylme.Properties.GraphSpec
import Stylme.Properties.WorkConserving
import Stylme.Service.Agents
import Stylme.Worker.AgentConfig
import Stylme.Properties.AgentSettings
import Stylme.Lib.Marking
import Stylme.Service.Saves
import Stylme.Properties.SaveAtomic
import Stylme.Properties.ManagedTelephony
import Stylme.Properties.SoleDefaults
import Stylme.Shopper.PublicProfile
import Stylme.Chat.Catalog
import Stylme.Properties.ProfileSearch
import Stylme.Chat.Options
import Stylme.Catalogue.Contract
import Stylme.Properties.PlanFacets
import Stylme.Lib.Binary64
import Stylme.Lib.Numeral
import Stylme.Frontend.Values
import Stylme.Frontend.CatalogQuery
import Stylme.Properties.CatalogUrls
import Stylme.Lib.Trimming
import Stylme.Properties.CallingWindows
import Stylme.Properties.PhoneNumbers
import Stylme.Lib.Quota
import Stylme.Lib.WholeWord
import Stylme.Reconciler.SearchGraph
import Stylme.Reconciler.Proposals
import Stylme.Properties.ProposalBudget
import Stylme.Properties.SupportedRetags
import Stylme.Reconciler.Application
import Stylme.Properties.RetagApplication
import Stylme.Reconciler.Staging
import Stylme.Properties.StagedOnce
import Stylme.Lib.Relaxation
import Stylme.Reconciler.Traversal
import Stylme.Properties.BestWalks
import Stylme.Properties.Coverage
import Stylme.Properties.CartPurchasable
import Stylme.Search.Words
import Stylme.Lib.Similarity
import Stylme.Reconciler.Contexts
import Stylme.Search.Spelling
import Stylme.Search.Numbers
import Stylme.Search.Candidates
import Stylme.Search.Compile
import Stylme.Search.Advanced
import Stylme.Properties.ResolvedRanges
import Stylme.Search.Table
import Stylme.Properties.ShopperWords
import Stylme.Properties.Negation
import Stylme.Properties.ResidualWords
import Stylme.Search.Selection
import Stylme.Properties.NegatedValues
import Stylme.Properties.LongestPhrase
import Stylme.Search.Orders
import Stylme.Properties.VisitOrder
import Stylme.Search.Occurrences
import Stylme.Properties.RowsAccounted
import Stylme.Domain.Latest
import Stylme.Recovery.RawRows
import Stylme.Properties.LatestRows
import Stylme.Data.Common
import Stylme.Data.Prices
import Stylme.Data.Quotas
import Stylme.Properties.ExactQuotas
import Stylme.Data.Policy
import Stylme.Data.Sampling
import Stylme.Properties.StratifiedSample
import Stylme.Properties.BestTransition
import Stylme.Data.Training
import Stylme.Properties.BoundedEdges
import Stylme.Data.Colors
import Stylme.Properties.LongestColors
import Stylme.Data.Entities
import Stylme.Properties.StableKeys
import Stylme.Properties.RefusedHandoff
import Stylme.Properties.AnsweringAgent
import Stylme.Properties.Consent
import Stylme.Backend.Reservations
import Stylme.Properties.Reservations
import Stylme.Service.Credentials
import Stylme.Properties.Credentials
import Stylme.Frontend.KeyScheduler
import Stylme.Properties.FallbackShelf
import Stylme.Reconciler.GraphConstruction
