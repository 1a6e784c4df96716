import OctopusPallets.Infra.FixedWidth
import OctopusPallets.Infra.BoundedVec
import OctopusPallets.Infra.Dispatch
import OctopusPallets.Infra.Machine
import OctopusPallets.Infra.Custody
import OctopusPallets.Infra.Quorum
import OctopusPallets.Infra.PerThing
import OctopusPallets.Infra.Overwrite
import OctopusPallets.Infra.Tally
import OctopusPallets.Infra.Retention
import OctopusPallets.Infra.OneToOne
import OctopusPallets.Infra.CompareAndSet
import OctopusPallets.Infra.Codec
import OctopusPallets.Infra.Scale
import OctopusPallets.Infra.Borsh
import OctopusPallets.Infra.Utf8
import OctopusPallets.Infra.Json
import OctopusPallets.Infra.JsonGrammar
import OctopusPallets.Infra.JsonText
import OctopusPallets.Infra.Base64
import OctopusPallets.Support.DispatchError
import OctopusPallets.Support.Traits
import OctopusPallets.Support.Payloads
import OctopusPallets.Support.Currency
import OctopusPallets.Support.Assets
import OctopusPallets.Appchain.Types
import OctopusPallets.Appchain.Pallet
import OctopusPallets.Appchain.VoteStep
import OctopusPallets.Appchain.Runs
import OctopusPallets.Appchain.Sequencing
import OctopusPallets.Appchain.VoteBook
import OctopusPallets.Appchain.PalletCalls
import OctopusPallets.Appchain.Window
import OctopusPallets.Appchain.QuorumSafety
import OctopusPallets.Appchain.History
import OctopusPallets.Appchain.Minority
import OctopusPallets.Appchain.Progress
import OctopusPallets.Appchain.HonestRuns
import OctopusPallets.Appchain.Unsigned
import OctopusPallets.Appchain.TakingEffect
import OctopusPallets.Appchain.GracePeriod
import OctopusPallets.Appchain.Mainchain
import OctopusPallets.Appchain.AccountStrings
import OctopusPallets.Appchain.Failover
import OctopusPallets.Appchain.Anchor
import OctopusPallets.Appchain.Worker
import OctopusPallets.Appchain.Answers
import OctopusPallets.Appchain.Responses
import OctopusPallets.Appchain.Service
import OctopusPallets.Appchain.Requests
import OctopusPallets.UpwardMessages.Pallet
import OctopusPallets.UpwardMessages.Commitments
import OctopusPallets.UpwardMessages.Blocks
import OctopusPallets.UpwardMessages.SystemMessages
import OctopusPallets.UpwardMessages.Contents
import OctopusPallets.Bridge.Pallet
import OctopusPallets.Bridge.Ownership
import OctopusPallets.Bridge.Transfers
import OctopusPallets.Bridge.Wrapped
import OctopusPallets.Bridge.TokenIds
import OctopusPallets.Bridge.Fees
import OctopusPallets.Bridge.FeeRuns
import OctopusPallets.Bridge.FeeAccuracy
import OctopusPallets.Bridge.Convertors
import OctopusPallets.Lpos.Storage
import OctopusPallets.Lpos.Pallet
import OctopusPallets.Lpos.Sessions
import OctopusPallets.Lpos.Frames
import OctopusPallets.Lpos.Timeline
import OctopusPallets.Lpos.EraSchedule
import OctopusPallets.Lpos.Rotation
import OctopusPallets.Lpos.BondedEras
import OctopusPallets.Lpos.EraRecords
import OctopusPallets.Lpos.EraStakers
import OctopusPallets.Lpos.HistoryWindow
import OctopusPallets.Lpos.Payout
import OctopusPallets.Lpos.Exclusion
import OctopusPallets.Lpos.Offences
import OctopusPallets.Lpos.ActiveEra
import OctopusPallets.Lpos.Aborts
import OctopusPallets.Lpos.Authors
import OctopusPallets.Lpos.SessionValidators
import OctopusPallets.Runtime.Notifications
import OctopusPallets.Runtime.Pallets
import OctopusPallets.Runtime.AnchorEras
import OctopusPallets.Runtime.EraQuorums
import OctopusPallets.Runtime.StaleVotes
import OctopusPallets.Runtime.Overflow
import OctopusPallets.Runtime.Shared
import OctopusPallets.Runtime.EraPayouts
import OctopusPallets.Runtime.EraReports
import OctopusPallets.Runtime.SetRequests
import OctopusPallets.Runtime.EraAuthors
import OctopusPallets.Runtime.Escrow
import OctopusPallets.Runtime.Unlocks
import OctopusPallets.Runtime.Supply
import OctopusPallets.Runtime.Inactive
import OctopusPallets.Runtime.Custody
import OctopusPallets.Runtime.Provenance
import OctopusPallets.Runtime.AnchorSessions
import OctopusPallets.Runtime.Network
import OctopusPallets.Runtime.HonestNetwork
import OctopusPallets.Runtime.NetworkProgress
