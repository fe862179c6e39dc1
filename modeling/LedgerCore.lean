import LedgerCore.Fork.Activation
import LedgerCore.Fork.FaultyHistory
import LedgerCore.Proofs.Context.Refusal
import LedgerCore.Proofs.Fork.Recovery
import LedgerCore.Proofs.Fork.Repetition
import LedgerCore.Proofs.Fork.Support
import LedgerCore.Proofs.Machine.Authorization
import LedgerCore.Proofs.Machine.Replay
import LedgerCore.Proofs.Token.Conservation
import LedgerCore.Settings.File
import LedgerCore.Settings.Layers
import LedgerCore.Store.Snapshot
import LedgerCore.Token.Base
import LedgerCore.Proofs.Machine.Alike
import LedgerCore.Proofs.Machine.Exemption
import LedgerCore.Proofs.Token.Plain
import LedgerCore.Proofs.Machine.Failure
import LedgerCore.Proofs.Machine.Fee
import LedgerCore.Proofs.Machine.Closing
import LedgerCore.Proofs.Fork.Acceptance
import LedgerCore.Proofs.Machine.Children
import LedgerCore.Proofs.Machine.Rejection
import LedgerCore.Proofs.Machine.Selection
import LedgerCore.Proofs.Fork.Growth
import LedgerCore.Proofs.Wire.RoundTrip
import LedgerCore.Proofs.Fork.Sustained
import LedgerCore.Proofs.Fork.Retry
import LedgerCore.Proofs.Fork.Share
import LedgerCore.Proofs.Fork.Regrouping
import LedgerCore.Proofs.Machine.Sweep
import LedgerCore.Proofs.Machine.Lookup
import LedgerCore.Proofs.Fork.Encoding
import LedgerCore.Proofs.Fork.Query
import LedgerCore.Proofs.Settings.Build
import LedgerCore.Proofs.Machine.Marker
import LedgerCore.Proofs.Fork.Longest
import LedgerCore.Proofs.Machine.BootUp
import LedgerCore.Proofs.Substate.Text
