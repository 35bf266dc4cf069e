import BleKbdHost.Conc.Queue
import BleKbdHost.Hid.Parser
import BleKbdHost.Keys.Decoder

/-!
# The state of the component

One record for each owner of variables: `Kbd` for `bt_kbd.c`, `Hidh` for the device list and event
loop of `esp_hidh.c`, `Nimble` for `nimble_hidh.c`, and `Radio` for the part of the NimBLE host that
the code talks to. `Sys` joins them with the tick counter, the heap and what the model records about
a run: the trace of observable happenings, the log of discovery and the reads in it (all newest
first), where the main task stands, and the fault that ended the run, if any. Nothing in the code
reads those.
-/

namespace BleKbdHost.Host

open Hid Keys Conc

/-! ## Machine integers -/

/-- Goes through all values, and is irreducible so that no tactic tries to. -/
@[irreducible] instance decidableForallUInt8 {p : UInt8 → Prop} [DecidablePred p] :
    Decidable (∀ n, p n) :=
  decidable_of_iff (∀ i, p (.ofFin i)) ⟨fun h n => h n.toFin, fun h _ => h _⟩

@[irreducible] instance decidableForallUInt16 {p : UInt16 → Prop} [DecidablePred p] :
    Decidable (∀ n, p n) :=
  decidable_of_iff (∀ i, p (.ofFin i)) ⟨fun h n => h n.toFin, fun h _ => h _⟩

@[irreducible] instance decidableForallUInt32 {p : UInt32 → Prop} [DecidablePred p] :
    Decidable (∀ n, p n) :=
  decidable_of_iff (∀ i, p (.ofFin i)) ⟨fun h n => h n.toFin, fun h _ => h _⟩

/-! ## Peers -/

/-- A 6 byte device address. -/
abbrev Bda := BitVec 48

/-- A heap pointer to an `esp_hidh_dev_t`. -/
abbrev DevId := Nat

/-- `struct ble_gatt_svc`; `uuid16` is what `ble_uuid_u16` returns for its UUID. -/
structure GattSvc where
  uuid16 : UInt16
  startHandle : UInt16
  endHandle : UInt16
  deriving DecidableEq, Repr

/-- `struct ble_gatt_chr`. -/
structure GattChr where
  uuid16 : UInt16
  defHandle : UInt16
  valHandle : UInt16
  properties : UInt8
  deriving DecidableEq, Repr

/-- `struct ble_gatt_dsc`. -/
structure GattDsc where
  uuid16 : UInt16
  handle : UInt16
  deriving DecidableEq, Repr

/-! ## Devices -/

/-- A buffer on the heap: which one, and its bytes. -/
structure Buf where
  token : Nat
  bytes : List UInt8
  deriving DecidableEq, Repr

/-- `esp_hidh_dev_report_t`. -/
structure DevReport where
  mapIndex : UInt8
  reportId : UInt8
  reportType : UInt8
  protocolMode : UInt8
  valueLen : Nat
  usage : EspHidUsage
  handle : UInt16
  cccHandle : UInt16
  permissions : UInt8
  deriving DecidableEq, Repr

/-- `esp_hid_raw_report_map_t`. -/
structure RawReportMap where
  data : Option Buf := none
  len : UInt16 := 0
  deriving DecidableEq, Repr

/-- `esp_hidh_dev_t`, as far as the BLE transport uses it. -/
structure Dev where
  id : DevId
  bda : Bda
  addressType : UInt8
  connId : Int := -1
  connected : Bool := false
  inUse : Bool := true
  status : Int := 0
  appearance : UInt16 := Appearance.generic
  batteryHandle : UInt16 := 0
  batteryCccHandle : UInt16 := 0
  vendorId : UInt16 := 0
  productId : UInt16 := 0
  version : UInt16 := 0
  deviceName : Option Buf := none
  manufacturerName : Option Buf := none
  serialNumber : Option Buf := none
  reportMaps : Option (List RawReportMap) := none
  reportMapsLen : UInt8 := 0
  protocolMode : Option (List UInt8) := none
  reports : List DevReport := []
  callbacks : Bool := false
  deriving DecidableEq, Repr

/-- The buffers `esp_hidh_dev_resources_free` frees. -/
def Dev.bufs (dev : Dev) : List Buf :=
  [dev.deviceName, dev.manufacturerName, dev.serialNumber].filterMap (fun buf => buf) ++
    (dev.reportMaps.getD []).filterMap (·.data)

/-- The data of an `esp_hidh_event_data_t`, by event. -/
inductive HidhEvent where
  | open (dev : DevId) (status : Int)
  | close (dev : DevId) (reason : Int)
  | input (dev : DevId) (mapIndex reportId : UInt8) (usage : EspHidUsage) (data : List UInt8)
  | feature (dev : DevId) (mapIndex reportId : UInt8) (usage : EspHidUsage) (data : List UInt8)
  | battery (dev : DevId) (level : UInt8)
  deriving DecidableEq, Repr

/-- The device that an event is about. -/
def HidhEvent.dev : HidhEvent → DevId
  | .open d _ | .close d _ | .input d _ _ _ _ | .feature d _ _ _ _ | .battery d _ => d

/-- A posted event; `seq` counts the events posted before it. -/
structure Posted where
  seq : Nat
  event : HidhEvent
  deriving DecidableEq, Repr

/-! ## `bt_kbd.c` -/

/-- `ble_kbd_state_t`. -/
inductive KbdState where
  | idle
  | reconnecting
  | scanning
  | connecting
  | connected
  deriving DecidableEq, Repr

/-- `kbd_cmd_t`. -/
inductive KbdCmd where
  | startPairing
  | selectDevice (param : Int)
  deriving DecidableEq, Repr

/-- The name ends at its terminator. -/
structure ScanDev where
  addr : Bda
  addrType : UInt8
  name : List UInt8
  rssi : Int
  deriving DecidableEq, Repr

/-- `s_scan_devs`, up to `s_scan_dev_count`. -/
structure ScanDevs where
  devs : List ScanDev
  bounded : devs.length ≤ 8
  deriving DecidableEq

def ScanDevs.empty : ScanDevs := ⟨[], Nat.zero_le 8⟩

/-- A text of a status callback, or a device name. -/
inductive Line where
  | text (s : String)
  | name (bytes : List UInt8)
  deriving DecidableEq, Repr

/-- `ble_kbd_host_config_t`, with the tick rate and the Kconfig defaults it is combined with. -/
structure KbdConfig where
  forceRepair : Bool := false
  reconnectIntervalMs : UInt32 := 0
  scanTimeoutMs : UInt32 := 0
  defaultReconnectIntervalMs : UInt32 := 3000
  defaultScanTimeoutMs : UInt32 := 20000
  tickRateHz : Nat := 100
  onKey : Bool := true
  onStatus : Bool := true
  onScanUpdated : Bool := true
  deriving DecidableEq, Repr

/-- The semaphores of `bt_kbd.c`. -/
inductive Sem where
  | connected
  | disconnected
  | openDone
  deriving DecidableEq, Repr

/-- The module state of `bt_kbd.c`. -/
structure Kbd where
  cfg : KbdConfig
  state : KbdState := .idle
  cmdQueue : BoundedQueue 4 KbdCmd := .empty
  connectedSem : Bool := false
  disconnectedSem : Bool := false
  openDoneSem : Bool := false
  hidhDev : Option DevId := none
  scanDevs : ScanDevs := .empty
  prevKeys : KeySlots := .cleared
  /-- The local of `translate_report`, while it is under way. -/
  wasPressed : Bool := false
  deriving DecidableEq

def Kbd.sem (k : Kbd) : Sem → Bool
  | .connected => k.connectedSem
  | .disconnected => k.disconnectedSem
  | .openDone => k.openDoneSem

@[simp] def Kbd.setSem (k : Kbd) (b : Bool) (sem : Sem) : Kbd :=
  { k with
    connectedSem := if sem = .connected then b else k.connectedSem
    disconnectedSem := if sem = .disconnected then b else k.disconnectedSem
    openDoneSem := if sem = .openDone then b else k.openDoneSem }

/-! ## `esp_hidh.c` -/

/-- What `hidh_cb`, and the handlers around it, still have to do for an event. -/
inductive HidhStep where
  | setHidhDev (dev : DevId)
  | take (sem : Sem)
  | give (sem : Sem)
  -- `translate_report`: a key is looked for in `s_prev_keys`, its characters follow unless it was
  -- found, and at the end the keys are copied there
  | compare (mod code : UInt8)
  | emit (ch : UInt8)
  | remember (keys : KeySlots)
  | free (dev : DevId)
  deriving DecidableEq, Repr

/-- The device list, the event loop's queue and the event its task is working on. -/
structure Hidh where
  devices : List Dev := []
  nextDev : DevId := 0
  eventQueue : BoundedQueue 5 Posted := .empty
  nextSeq : Nat := 0
  handling : Option (Posted × List HidhStep) := none
  deriving DecidableEq

/-! ## `nimble_hidh.c` -/

/-- The file-level variables of `nimble_hidh.c` and of the parser, and the result arrays on the
stack of `read_device_services`. An array slot that was not written since the array came to life is
`none`. -/
structure Nimble where
  cbSemaphore : Bool := false
  secSemaphore : Bool := false
  servicesDiscovered : Nat := 0
  chrsDiscovered : Nat := 0
  dscsDiscovered : Nat := 0
  status : Int := 0
  readDataVal : Option Buf := none
  readDataLen : UInt16 := 0
  readStatus : Int := 0
  serviceResult : List (Option GattSvc) := []
  charResult : List (Option GattChr) := []
  descrResult : List (Option GattDsc) := []
  parser : ParserStatics := .init
  deriving DecidableEq

/-! ## The NimBLE host -/

/-- An accepted GATT request whose terminal callback has not come yet. -/
inductive GattReq where
  | services (conn : UInt16)
  | chrs (conn startHandle endHandle : UInt16)
  | dscs (conn startHandle endHandle : UInt16)
  | read (conn handle : UInt16)
  | write (conn handle : UInt16) (value : List UInt8) (arg : UInt16)
  deriving DecidableEq, Repr

/-- A link: the address the connection was requested for, the one used on air and the identity
address. -/
structure Link where
  handle : UInt16
  peer : Bda
  ota : Bda
  identity : Bda
  deriving DecidableEq, Repr

/-- What the NimBLE host keeps: links, the connection attempt under way, the outstanding GATT
requests, whether discovery runs, the MTU exchanges under way, by link, and the bond store. -/
structure Radio where
  links : List Link := []
  connecting : Option Bda := none
  gatt : List GattReq := []
  discovering : Bool := false
  mtuExchanges : List UInt16 := []
  ourSec : List Bda := []
  peerSec : List (Bda × UInt8) := []
  deriving DecidableEq

/-- An advertising report, with the name parsed from it: `none` where parsing fails. -/
structure AdvReport where
  eventType : UInt8
  name : Option (List UInt8)
  addr : Bda
  addrType : UInt8
  rssi : Int
  deriving DecidableEq, Repr

/-! ## The record of a run -/

/-- Where `esp_hidh_dev_open` is called. -/
inductive OpenSite where
  | bonded
  | selected
  deriving DecidableEq, Repr

/-- The waits that peek at the command queue. -/
inductive PollSite where
  | bonded
  | connecting
  | connected
  deriving DecidableEq, Repr

/-- What happens in a run. -/
inductive Obs where
  -- application side
  | startPairing (queued : Bool)
  | selectDevice (param : Int) (queued : Bool)
  | state (st : KbdState)
  | status (st : KbdState) (line1 line2 : Line)
  | key (ch : UInt8)
  /-- A key of a report is looked for in `s_prev_keys`. -/
  | compared (mod code : UInt8)
  | scanUpdated (devs : List ScanDev)
  -- the main task takes a command from the queue, and the variables it resets
  | repair
  | selection (param : Int)
  | storeClear
  | scanReset
  | prevKeysCleared
  | advertised (report : AdvReport)
  -- transport calls
  | openCall (site : OpenSite) (bda : Bda) (known : Bool)
  | reconnectCall (dev : DevId)
  | deviceAdded (dev : DevId) (bda : Bda)
  | deviceFreed (dev : DevId)
  | returned (dev : Option DevId)
  -- whether `s_connected_sem` was available after an attempt
  | decided (ok : Bool)
  -- links and events
  | linkUp (link : Link) (dev : Option DevId)
  | linkDown (link : Link)
  /-- The host is asked to close the device's link. -/
  | terminate (dev : DevId) (accepted : Bool)
  | encChange (conn : UInt16) (status : Int)
  /-- Security of the device's connection was refused, or its wait is over. -/
  | secured (dev : DevId) (refused : Bool)
  | posted (p : Posted)
  | handled (p : Posted)
  deriving DecidableEq, Repr

/-- What happens in discovery: an attribute is requested, reported by the peer, processed by the
loops, and a loop over them is done. -/
inductive DiscObs where
  | svcsRequested
  | svcReported (svc : GattSvc)
  | svcProcessed (svc : GattSvc)
  | svcsDone
  | chrsRequested
  | chrReported (chr : GattChr)
  | chrProcessed (chr : GattChr)
  | chrsDone
  | dscsRequested
  | dscReported (dsc : GattDsc)
  | dscProcessed (dsc : GattDsc)
  | dscsDone
  deriving DecidableEq, Repr

/-- The end of a read in discovery: the UUID of what was read and, unless the read failed, the
buffer and the length it brought. -/
structure ReadObs where
  uuid : UInt16
  value : Option (Option Buf × UInt16)
  deriving DecidableEq, Repr

/-- Whether a transport call opens a device or reconnects one. -/
inductive CallKind where
  | open
  | reconnect
  deriving DecidableEq, Repr

/-- How far a call has come with its connection. -/
inductive LinkStep where
  | fresh
  /-- Security was refused, or its wait is over. -/
  | secured
  /-- Discovery ran to its end. -/
  | discovered
  /-- Discovery gave up. -/
  | abandoned
  deriving DecidableEq, Repr

/-- How far the transport call in progress has come. -/
inductive Stage where
  | none
  /-- The address to open is unknown; no device is allocated yet. -/
  | called (bda : Bda)
  /-- No connection requested yet. -/
  | begun (kind : CallKind) (dev : DevId)
  /-- The request was refused, or no connection came about. -/
  | failed (kind : CallKind) (dev : DevId)
  /-- The connection was requested; its result has not been looked at. -/
  | connecting (kind : CallKind) (dev : DevId)
  /-- A connection was found; `connected` is not set yet. -/
  | linked (kind : CallKind) (dev : DevId) (step : LinkStep)
  /-- `connected` is set; the open event is not posted yet. -/
  | marked (kind : CallKind) (dev : DevId)
  | opened (kind : CallKind) (dev : DevId)
  deriving DecidableEq, Repr

/-- The device that an open in progress has allocated. -/
def Stage.opening? : Stage → Option DevId
  | .begun .open d | .failed .open d | .connecting .open d | .linked .open d _ | .marked .open d
  | .opened .open d => some d
  | _ => Option.none

/-- The device of a transport call in progress whose request to connect was accepted. -/
def Stage.attempted? : Stage → Option DevId
  | .connecting _ d | .linked _ d _ | .marked _ d | .opened _ d => some d
  | _ => Option.none

/-- The connection has come to a further step. -/
def Stage.advance (step : LinkStep) : Stage → Stage
  | .linked kind d _ => .linked kind d step
  | st => st

/-- The same, up to how far the call has come with its connection. -/
def Stage.Within (st' st : Stage) : Prop := st' = st ∨ ∃ step, st' = st.advance step

/-- How far `do_pair` has come. -/
inductive PairStep where
  /-- The bonds are cleared. -/
  | cleared
  /-- `s_hidh_dev` is NULL. -/
  | forgotten
  /-- The scan list is empty. -/
  | emptied
  deriving DecidableEq, Repr

/-- How far the connected phase has come with a re-pair request. -/
inductive CloseStep where
  /-- `s_hidh_dev` was read. -/
  | found (dev : DevId)
  /-- The link was asked to be closed, if the device is listed. -/
  | asked
  /-- The wait for the close event is over, or there was no device. -/
  | done
  deriving DecidableEq, Repr

/-- The phases of the main task. -/
inductive Phase where
  | start
  | reconnecting
  /-- `wait_for_start_pairing` received a re-pair request. -/
  | requested
  /-- From the open in `try_bonded_reconnect` to the end of its wait. -/
  | bonded
  | pairing (step : PairStep)
  | scanning
  /-- The list was copied for `on_scan_updated`. -/
  | copied (devs : List ScanDev)
  /-- A selection was received. -/
  | picking (param : Int)
  /-- Its index was in range. -/
  | picked (index : Nat)
  /-- Its entry was copied. -/
  | chosen (addr : Bda)
  /-- From CONNECTING to the open of that entry. -/
  | selected (addr : Bda)
  /-- From that open to the end of its wait. -/
  | connecting
  /-- `s_open_done_sem` ended the wait. -/
  | answered (site : OpenSite)
  /-- The deadline ended the wait. -/
  | expired (site : OpenSite)
  /-- `s_connected_sem` was not available after the wait. -/
  | refused (site : OpenSite)
  /-- An attempt succeeded. -/
  | accepted
  | connected
  /-- `s_disconnected_sem` ended the connected phase. -/
  | dropped
  /-- A poll saw a re-pair request. -/
  | repairing (site : PollSite)
  | closing (step : CloseStep)
  /-- In `set_state`, before its callback; what comes next. -/
  | announcing (next : Phase)
  deriving DecidableEq, Repr

/-- From `s_hidh_dev = NULL` in `do_pair` to the open of the selected device. -/
def Phase.unpaired : Phase → Bool
  | .pairing .forgotten | .pairing .emptied | .scanning | .copied _ | .picking _ | .picked _
  | .chosen _ | .selected _ => true
  | .announcing next => next.unpaired
  | _ => false

/-- Where the main task stands: its phase, its transport call, and whether it has made a request
whose callback it is about to wait for. -/
structure Ctl where
  phase : Phase := .start
  stage : Stage := .none
  awaiting : Bool := false
  deriving DecidableEq, Repr

/-- The whole state. -/
structure Sys where
  kbd : Kbd
  hidh : Hidh := {}
  nimble : Nimble := {}
  radio : Radio := {}
  ticks : UInt32 := 0
  nextBuf : Nat := 0
  freed : List Nat := []
  trace : List Obs := []
  discLog : List DiscObs := []
  /-- The reads of the discovery under way, newest first. -/
  reads : List ReadObs := []
  ctl : Ctl := {}
  fault : Option Fault := none
  deriving DecidableEq

/-! ## Accessors -/

namespace Sys

@[simp] def note (s : Sys) (o : Obs) : Sys := { s with trace := o :: s.trace }

@[simp] def log (s : Sys) (o : DiscObs) : Sys := { s with discLog := o :: s.discLog }

@[simp] def setPhase (s : Sys) (ph : Phase) : Sys := { s with ctl := { s.ctl with phase := ph } }

@[simp] def setStage (s : Sys) (st : Stage) : Sys := { s with ctl := { s.ctl with stage := st } }

@[simp] def setAwaiting (s : Sys) (b : Bool) : Sys :=
  { s with ctl := { s.ctl with awaiting := b } }

@[simp] def failWith (s : Sys) (f : Fault) : Sys := { s with fault := some f }

def dev? (s : Sys) (d : DevId) : Option Dev := s.hidh.devices.find? (·.id == d)

/-- `esp_hidh_dev_get_by_bda`. -/
def getByBda (s : Sys) (bda : Bda) : Option Dev := s.hidh.devices.find? (·.bda == bda)

/-- `esp_hidh_dev_get_by_conn_id`; a `conn_id` of -1 matches no 16 bit handle. -/
def getByConnId (s : Sys) (conn : UInt16) : Option Dev :=
  s.hidh.devices.find? (·.connId == (conn.toNat : Int))

/-- Writes through a device pointer, which must be listed. -/
@[simp] def setDev (s : Sys) (d : DevId) (f : Dev → Dev) : Sys :=
  { s with
    hidh := { s.hidh with
      devices := s.hidh.devices.map fun dev => if dev.id = d then f dev else dev }
    fault := if (s.dev? d).isSome then s.fault else some .useAfterFree }

/-- `esp_event_post_to`, where the queue has room and there is memory for the copy of the event. Where
there is none the event is lost: for a notification `Event.notifyRx` says so, and for open and close
events the model has it that there always is. -/
@[simp] def post (s : Sys) (event : HidhEvent) : Sys :=
  { s with
    hidh := { s.hidh with
      eventQueue := s.hidh.eventQueue.send ⟨s.hidh.nextSeq, event⟩
      nextSeq := s.hidh.nextSeq + 1 }
    trace := .posted ⟨s.hidh.nextSeq, event⟩ :: s.trace }

/-- `SEND_CB`. -/
@[simp] def sendCb (s : Sys) : Sys := { s with nimble := { s.nimble with cbSemaphore := true } }

/-- `free` on the given buffers. -/
@[simp] def freeBufs (s : Sys) (bufs : List Buf) : Sys :=
  { s with
    freed := bufs.map (·.token) ++ s.freed
    fault := if bufs.any (s.freed.contains ·.token) then some .doubleFree else s.fault }

/-- `esp_hidh_dev_free_inner`: takes a listed device off the list and frees what it owns. -/
@[simp] def freeDev (s : Sys) (d : DevId) : Sys :=
  { s.freeBufs (((s.dev? d).map Dev.bufs).getD []) with
    hidh := { s.hidh with devices := s.hidh.devices.filter (·.id != d) }
    trace := if (s.dev? d).isSome then .deviceFreed d :: s.trace else s.trace }

/-- The wait that began at tick `since` has lasted `ticks`. -/
def elapsed (s : Sys) (since ticks : UInt32) : Bool := ticks ≤ s.ticks - since

end Sys

/-- `pdMS_TO_TICKS`. -/
def pdMsToTicks (hz : Nat) (ms : Nat) : UInt32 := (ms * hz / 1000).toUInt32

/-- `pdTICKS_TO_MS`: the product has 64 bits, the result 32. -/
def pdTicksToMs (hz : Nat) (ticks : UInt32) : UInt32 := (ticks.toNat * 1000 / hz).toUInt32

end BleKbdHost.Host
