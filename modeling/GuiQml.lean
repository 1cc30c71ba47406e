import GuiQml.Lib.Run
import GuiQml.Lib.Nesting
import GuiQml.Lib.LastWrite
import GuiQml.Lib.Courier
import GuiQml.Lib.Tally
import GuiQml.Lib.TailWindow
import GuiQml.Lib.Pipeline
import GuiQml.Lib.Reach
import GuiQml.Lib.Feed
import GuiQml.Lib.Journal
import GuiQml.Lib.Keyed
import GuiQml.Lib.Comparator
import GuiQml.Lib.Groups
import GuiQml.Lib.Codec
import GuiQml.Lib.PercentEncoding
import GuiQml.Lib.Rows
import GuiQml.Lib.Program
import GuiQml.Lib.MovingAverage
import GuiQml.Lib.RollingWindow
import GuiQml.Wallet.Transaction
import GuiQml.Wallet.Send
import GuiQml.Wallet.Draft
import GuiQml.Wallet.Reviewed
import GuiQml.Wallet.SendOnce
import GuiQml.Wallet.SendAll
import GuiQml.Wallet.Conserved
import GuiQml.Wallet.FeePreview
import GuiQml.Wallet.Captured
import GuiQml.Wallet.Previewed
import GuiQml.Wallet.Imported
import GuiQml.Wallet.Unlock
import GuiQml.Wallet.Agreed
import GuiQml.Wallet.Relocked
import GuiQml.Wallet.Bump
import GuiQml.Wallet.FeeRequests
import GuiQml.Rpc.CommandLine
import GuiQml.Rpc.Scanner
import GuiQml.Rpc.Simulation
import GuiQml.Rpc.Safety
import GuiQml.Rpc.Redaction
import GuiQml.BlockClock.History
import GuiQml.BlockClock.Subscribe
import GuiQml.BlockClock.Reconcile
import GuiQml.BlockClock.Segments
import GuiQml.Activity.ReadSnapshot
import GuiQml.Activity.Schedule
import GuiQml.Activity.NoLostWork
import GuiQml.Activity.NetImpact
import GuiQml.Activity.Rows
import GuiQml.Activity.Export
import GuiQml.Settings.CoreSettings
import GuiQml.Settings.Session
import GuiQml.Settings.RoundTrip
import GuiQml.Settings.Migration
import GuiQml.Settings.Precedence
import GuiQml.Settings.Onboarding
import GuiQml.Settings.Restart
import GuiQml.Settings.Changes
import GuiQml.Settings.Overrides
import GuiQml.Settings.Persist
import GuiQml.Settings.Remigration
import GuiQml.Settings.Hostname
import GuiQml.Receive.Payments
import GuiQml.Receive.Requests
import GuiQml.Receive.Reconciliation
import GuiQml.Receive.Sound
import GuiQml.Receive.Invariant
import GuiQml.Receive.Reconciled
import GuiQml.Receive.Paid
import GuiQml.Receive.RequestIds
import GuiQml.Receive.Tables
import GuiQml.Receive.Blobs
import GuiQml.Receive.Uri
import GuiQml.Receive.Index
import GuiQml.Receive.History
import GuiQml.DebugLog.Reads
import GuiQml.DebugLog.Model
import GuiQml.DebugLog.Tail
import GuiQml.DebugLog.Blocks
import GuiQml.DebugLog.Delta
import GuiQml.DebugLog.Display
import GuiQml.DebugLog.Displayed
import GuiQml.Options.Model
import GuiQml.Options.Shown
import GuiQml.Options.Signer
import GuiQml.Network.Model
import GuiQml.Network.Pause
import GuiQml.Network.Traffic
import GuiQml.Network.Averages
import GuiQml.Onboarding.Model
import GuiQml.Onboarding.Applied
import GuiQml.Onboarding.Checked
import GuiQml.Onboarding.Touched
import GuiQml.Executors.Model
import GuiQml.Executors.Sound
import GuiQml.Executors.Drained
import GuiQml.Shutdown.Model
import GuiQml.Shutdown.Ordered
import GuiQml.Controller.Model
import GuiQml.Controller.Models
import GuiQml.Controller.Closing
import GuiQml.Controller.Node
import GuiQml.Controller.Deferred
import GuiQml.Controller.Tracked
import GuiQml.Controller.Taken
import GuiQml.Controller.Matched
import GuiQml.ChainSync.Published
import GuiQml.ChainSync.SyncProgress
import GuiQml.Amount.Display
import GuiQml.Amount.Shown
import GuiQml.Amount.FeeRate
import GuiQml.Flow.Build
import GuiQml.Flow.Conserved
import GuiQml.Flow.Layout
import GuiQml.Flow.Ribbons
import GuiQml.Flow.Shown
import GuiQml.Recipients.Model
import GuiQml.Recipients.Amounts
import GuiQml.Recipients.Kept
import GuiQml.WalletList.Model
import GuiQml.WalletList.Rows
import GuiQml.WalletList.Shown
import GuiQml.Dialogs.Model
import GuiQml.Dialogs.Waiting
import GuiQml.Dialogs.Answered
import GuiQml.Coins.Model
import GuiQml.Coins.Ordered
import GuiQml.Coins.Selection
import GuiQml.Coins.Totals
import GuiQml.Console.Shown
import GuiQml.Console.Runs
import GuiQml.Peers.Runs
import GuiQml.Activity.Accounted
import GuiQml.BlockClock.Shown
import GuiQml.Receive.Offered
import GuiQml.Activity.Balance
import GuiQml.Lib.Told
