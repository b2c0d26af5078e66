import TunnelSession.Text.Blank
import TunnelSession.Text.NameSet
import TunnelSession.Binary64
import TunnelSession.Json.Basic
import TunnelSession.Json.Parser
import TunnelSession.Json.Printer
import TunnelSession.Json.Datum
import TunnelSession.ConnectionState
import TunnelSession.Protocol
import TunnelSession.Address.Parser
import TunnelSession.Address.Printer
import TunnelSession.Server
import TunnelSession.Stats
import TunnelSession.Settings
import TunnelSession.Error
import TunnelSession.Recents
import TunnelSession.Trigger
import TunnelSession.Channel
import TunnelSession.Toml.Parser
import TunnelSession.Toml.Datum
import TunnelSession.Toml.Printer
import TunnelSession.Config
import TunnelSession.ConfigFile
import TunnelSession.Text.Split
import TunnelSession.Text.Terminal
import TunnelSession.Operation
import TunnelSession.Notice
import TunnelSession.KillSwitch
import TunnelSession.Backend
import TunnelSession.Session
import TunnelSession.Client.Lock
import TunnelSession.Client.Task
import TunnelSession.Client.Basic
import TunnelSession.Client.Calls
import TunnelSession.Client.Telemetry
import TunnelSession.Client.Lifecycle
import TunnelSession.Client.SettingsWrite
import TunnelSession.Client.Commands
import TunnelSession.Client.Bridges
import TunnelSession.Client.Schedule
import TunnelSession.Client.Script
import TunnelSession.Daemon.LogFilter
import TunnelSession.Daemon.Basic
import TunnelSession.Main
import TunnelSession.Proofs.Run
import TunnelSession.Proofs.Core
import TunnelSession.Proofs.Updates
import TunnelSession.Proofs.Trace
import TunnelSession.Proofs.Moves
import TunnelSession.Proofs.Calls
import TunnelSession.Proofs.Lifecycle
import TunnelSession.Proofs.Steps
import TunnelSession.Proofs.Soundness
import TunnelSession.Proofs.Turns
import TunnelSession.Proofs.Simulation
import TunnelSession.Proofs.Agreement
import TunnelSession.Proofs.Exclusion
import TunnelSession.Proofs.Mirror
import TunnelSession.Proofs.Deals
import TunnelSession.Proofs.Scene
import TunnelSession.Proofs.Talk
import TunnelSession.Proofs.Counters
import TunnelSession.Proofs.RequestBook
import TunnelSession.Proofs.Dropping
import TunnelSession.Proofs.Changes
import TunnelSession.Proofs.Commits
import TunnelSession.Proofs.Settling
import TunnelSession.Proofs.Arrival
import TunnelSession.Proofs.Attempts
import TunnelSession.Proofs.Accounts
import TunnelSession.Proofs.Superseding
import TunnelSession.Proofs.Book
import TunnelSession.Proofs.Direct
import TunnelSession.Proofs.Solo
import TunnelSession.Proofs.Linearization
import TunnelSession.Proofs.StateChanges
import TunnelSession.Proofs.ConnectionKept
import TunnelSession.Proofs.ConnectionEffects
import TunnelSession.Proofs.StageInvariant
import TunnelSession.Proofs.TurnParts
import TunnelSession.Proofs.Effects
import TunnelSession.Proofs.TurnEffects
import TunnelSession.Proofs.Rounds
import TunnelSession.Proofs.Graph
import TunnelSession.Proofs.Tunnels
import TunnelSession.Proofs.Driving
import TunnelSession.Proofs.Waking
import TunnelSession.Proofs.Yielding
import TunnelSession.Proofs.Receivers
import TunnelSession.Proofs.Intake
import TunnelSession.Proofs.Jobs
import TunnelSession.Proofs.Handling
import TunnelSession.Proofs.Addresses
import TunnelSession.Proofs.Quotes
import TunnelSession.Proofs.Documents
import TunnelSession.Proofs.Configurations
import TunnelSession.Proofs.Shares
import TunnelSession.Proofs.Components
import TunnelSession.Proofs.Sleeping
import TunnelSession.Proofs.Resting
import TunnelSession.Proofs.Instants
import TunnelSession.Proofs.RestedCommands
import TunnelSession.Proofs.Listening
import TunnelSession.Proofs.Shutdown
import TunnelSession.Proofs.NameServers
import TunnelSession.Proofs.Omissions
import TunnelSession.Proofs.PollerSlot
import TunnelSession.Proofs.Deeds
import TunnelSession.Proofs.Cadence
import TunnelSession.Proofs.Bystanders
import TunnelSession.Proofs.Outcomes
import TunnelSession.Proofs.Triggers
import TunnelSession.Proofs.Recency
import TunnelSession.Proofs.Spellings
import TunnelSession.Proofs.Records
import TunnelSession.Proofs.Conversations
import TunnelSession.Proofs.Failures
import TunnelSession.Proofs.Patches
import TunnelSession.Proofs.Ranking
