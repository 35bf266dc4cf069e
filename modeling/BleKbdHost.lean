import BleKbdHost.Hid.ParserSafety
import BleKbdHost.Hid.RoundTrip
import BleKbdHost.Hid.ReportIds
import BleKbdHost.Hid.Composition
import BleKbdHost.Keys.BootReport
import BleKbdHost.Verify.Repair
import BleKbdHost.Verify.Waiters
import BleKbdHost.Verify.Ownership
import BleKbdHost.Verify.LinkEvents
import BleKbdHost.Conc.Trace
import BleKbdHost.Verify.Entries
import BleKbdHost.Verify.Status
import BleKbdHost.Verify.ScanList
import BleKbdHost.Verify.Selection
import BleKbdHost.Verify.Answers
import BleKbdHost.Verify.Security
import BleKbdHost.Verify.Pairing
import BleKbdHost.Verify.Drops
import BleKbdHost.Verify.KeyPresses
import BleKbdHost.Verify.KeyStream
import BleKbdHost.Verify.Matching
import BleKbdHost.Verify.TimedWaits
import BleKbdHost.Verify.Recognition
import BleKbdHost.Verify.Bonds
import BleKbdHost.Verify.Aborts
import BleKbdHost.Verify.Buffers
import BleKbdHost.Verify.Usable
import BleKbdHost.Verify.HandleChecks
import BleKbdHost.Verify.OwnAttributes
import BleKbdHost.Hid.Memory
import BleKbdHost.Verify.Delivery
import BleKbdHost.Verify.Pointers
import BleKbdHost.Verify.Exclusion
import BleKbdHost.Verify.KeyReplay
import BleKbdHost.Verify.Notifications
import BleKbdHost.Host.Lifecycle
