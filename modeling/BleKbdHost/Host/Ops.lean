import BleKbdHost.Conc.Task
import BleKbdHost.Host.State

/-!
# The operations of the main task

Every access of `kbd_main_task` and of the functions it calls to something another task can see is
one `Op`. `Op.ready` says when the task can go on, `Op.exec` what the operation does. A return code
of the NimBLE host and the outcome of an allocation come from the `Choice`.
-/

namespace BleKbdHost.Host

open Hid Keys Conc

/-- What an operation is answered from outside: a return code, where 0 is success and anything else
a refusal or a failed allocation, and the contents of freshly allocated memory. -/
structure Choice where
  rc : Int := 0
  bytes : List UInt8 := []
  deriving DecidableEq, Repr

/-- The device fields that discovery writes. -/
inductive DevField where
  | deviceName (buf : Option Buf)
  | manufacturerName (buf : Option Buf)
  | serialNumber (buf : Option Buf)
  | pnpId (vendorId productId version : UInt16)
  | batteryHandle (handle : UInt16)
  | batteryCccHandle (handle : UInt16)
  | protocolMode (index : Nat) (value : UInt8)
  | reportMap (index : Nat) (data : Option Buf) (len : UInt16)
  | appearance (value : UInt16)
  | pushReport (report : DevReport)
  | reports (reports : List DevReport)
  deriving DecidableEq, Repr

inductive Op where
  /-- Reading shared variables. -/
  | look
  /-- Reading fields through a device pointer. -/
  | readDev (dev : DevId)
  -- FreeRTOS
  | take (sem : Sem) (since ticks : UInt32)
  | give (sem : Sem)
  | delay (since ticks : UInt32)
  | receiveCmd (since ticks : UInt32)
  | peekCmd (site : PollSite)
  /-- Testing the deadline of a wait for `s_open_done_sem`. -/
  | beforeDeadline (site : OpenSite) (deadline : UInt32)
  | takeConnected
  | awaitDisconnect (since ticks : UInt32)
  | readHidhDev
  | awaitClosed (since ticks : UInt32)
  -- `bt_kbd.c`
  | setState (st : KbdState)
  | onStatus (st : KbdState) (line1 line2 : Line)
  | emitKey (ch : UInt8)
  | copyScan
  | onScanUpdated (devs : List ScanDev)
  | checkSelection (param : Int)
  | copySelected (index : Nat)
  | clearPrevKeys
  | clearForceRepair
  | clearHidhDev
  | resetScan
  | attemptFailed
  -- the bond store and GAP
  | storeCount
  | storeReadPeerSec
  | storeClear
  | gapDisc
  | gapDiscCancel
  | gapConnCancel
  -- the transport calls
  | closeCall (dev : DevId)
  | gapTerminate (dev : DevId)
  | openCall (site : OpenSite) (bda : Bda)
  | reconnectCall (dev : DevId)
  | devMalloc (bda : Bda) (addrType : UInt8)
  | devFree (dev : DevId)
  | drainCb
  | drainSec
  | gapConnect (kind : CallKind) (dev : DevId)
  | waitCb
  | readConnId (kind : CallKind) (dev : DevId)
  | installCallbacks (dev : DevId)
  | securityInitiate (dev : DevId)
  | takeSec (dev : DevId) (since ticks : UInt32)
  | setConnected (kind : CallKind) (dev : DevId)
  | postOpen (kind : CallKind) (dev : DevId)
  | openReturns (dev : Option DevId)
  | reconnectReturns (dev : Option DevId)
  -- discovery
  | discAllSvcs (dev : DevId)
  | discAllChrs (dev : DevId) (startHandle endHandle : UInt16)
  | discAllDscs (dev : DevId) (startHandle endHandle : UInt16)
  /-- `uuid` is that of what is read, for the record only. -/
  | readLong (dev : DevId) (handle uuid : UInt16)
  | endRead (uuid : UInt16)
  | writeFlat (conn handle : UInt16) (value : List UInt8)
  | assertStatus
  | mallocReportMaps (dev : DevId)
  | mallocProtocolMode (dev : DevId)
  | mallocReport
  | readSvc (i : Nat)
  | svcsDone
  | readChr (i : Nat)
  | readDefHandle (i : Nat)
  | resetChrs
  | readDsc (i : Nat)
  | resetDscs
  | setField (dev : DevId) (field : DevField)
  | freeBuf (buf : Option Buf)
  | readReportMap (dev : DevId) (i : Nat)
  | parseReportMap (data : Option Buf)
  deriving DecidableEq, Repr

/-! ## What the operations do -/

/-- Writes one field of a device; an index outside its array is a fault. -/
def DevField.write (dev : Dev) : DevField → Except Fault Dev
  | .deviceName buf => .ok { dev with deviceName := buf }
  | .manufacturerName buf => .ok { dev with manufacturerName := buf }
  | .serialNumber buf => .ok { dev with serialNumber := buf }
  | .pnpId vendorId productId version =>
    .ok { dev with vendorId := vendorId, productId := productId, version := version }
  | .batteryHandle handle => .ok { dev with batteryHandle := handle }
  | .batteryCccHandle handle => .ok { dev with batteryCccHandle := handle }
  | .protocolMode index value =>
    match dev.protocolMode with
    | none => .error .nullDeref
    | some modes =>
      if index < modes.length then .ok { dev with protocolMode := some (modes.set index value) }
      else .error .outOfBounds
  | .reportMap index data len =>
    match dev.reportMaps with
    | none => .error .nullDeref
    | some maps =>
      if index < maps.length then .ok { dev with reportMaps := some (maps.set index ⟨data, len⟩) }
      else .error .outOfBounds
  | .appearance value => .ok { dev with appearance := value }
  | .pushReport report => .ok { dev with reports := report :: dev.reports }
  | .reports rs => .ok { dev with reports := rs }

/-- A read of slot `i` of a result array: a fault where it lies outside the array or was never
written. -/
def slot {α : Type} (arr : List (Option α)) (i : Nat) : Except Fault α :=
  match arr[i]? with
  | none => .error .outOfBounds
  | some none => .error .uninitialised
  | some (some a) => .ok a

/-- Carries a read into the state: a fault, or what it does with the value. -/
def Sys.absorb {α : Type} (s : Sys) (r : Except Fault α) (f : α → Sys) : Sys :=
  match r with
  | .ok a => f a
  | .error fault => s.failWith fault

/-- `ble_gap_connect` accepts a request unless it refuses for reasons of its own, another connection
attempt is under way, or there is a link to the peer. -/
def connectAccepted (c : Choice) (s : Sys) (bda : Bda) : Bool :=
  c.rc == 0 && s.radio.connecting.isNone && s.radio.links.all (·.peer != bda)

/-- A GATT request, outstanding if it is accepted. -/
@[simp] def Sys.request (s : Sys) (c : Choice) (req : GattReq) : Sys :=
  { s with radio := { s.radio with
    gatt := if c.rc = 0 then s.radio.gatt ++ [req] else s.radio.gatt } }

/-- The phase a call of `esp_hidh_dev_open` begins. -/
def OpenSite.phase : OpenSite → Phase
  | .bonded => .bonded
  | .selected => .connecting

namespace Phase

/-- After a state was set; its callback begins the phase of the state. -/
def announce : Phase → KbdState → Phase
  | _, .reconnecting => .announcing .reconnecting
  | _, .scanning => .announcing .scanning
  | .chosen addr, .connecting => .announcing (.selected addr)
  | _, .connected => .announcing .connected
  | ph, _ => ph

/-- After a status callback. -/
def announced : Phase → Phase
  | .announcing next => next
  | ph => ph

/-- After a command was received: `none` where none came in time. -/
def receive : Phase → Option KbdCmd → Phase
  | .reconnecting, some .startPairing => .requested
  | .scanning, some (.selectDevice param) => .picking param
  | ph, _ => ph

/-- After `s_open_done_sem` was taken. -/
def answer : Phase → Phase
  | .bonded => .answered .bonded
  | .connecting => .answered .selected
  | ph => ph

/-- After `s_connected_sem` was not available. -/
def refuse : Phase → Phase
  | .expired site | .answered site => .refused site
  | ph => ph

/-- After `ble_store_clear`, which the scan loop calls as well. -/
def clearBonds : Phase → Phase
  | .scanning => .scanning
  | _ => .pairing .cleared

/-- After the scan list was emptied. -/
def clearScan : Phase → Phase
  | .scanning => .scanning
  | _ => .pairing .emptied

end Phase

/-- The index is in range. -/
def Kbd.validSelection (k : Kbd) (param : Int) : Bool :=
  decide (0 ≤ param ∧ param < k.scanDevs.devs.length)

/-- `s_scan_devs[i]`; slots without an entry are zero. -/
def Kbd.scanDev (k : Kbd) (index : Nat) : ScanDev := k.scanDevs.devs.getD index ⟨0, 0, [0], 0⟩

/-- What taking a command from the queue records. -/
def KbdCmd.obs : KbdCmd → Obs
  | .startPairing => .repair
  | .selectDevice param => .selection param

/-- `dev->ble.conn_id` as an argument. -/
def Sys.connHandle (s : Sys) (d : DevId) : UInt16 :=
  .ofInt (((s.dev? d).map (·.connId)).getD (-1))

/-- `dev->config.report_maps[i]`. -/
def Sys.reportMap (s : Sys) (d : DevId) (i : Nat) : Except Fault RawReportMap :=
  match s.dev? d with
  | none => .error .useAfterFree
  | some dev =>
    match dev.reportMaps with
    | none => .error .nullDeref
    | some maps => slot (maps.map some) i

/-- `n` bytes of `malloc`ed memory: whatever it held before. -/
def freshBytes (c : Choice) (n : Nat) : List UInt8 := (List.range n).map fun i => c.bytes.getD i 0

namespace Op

/-- When the task can go on: a wait with a timeout ends when its object is available or its time is
over. -/
def ready (s : Sys) : Op → Bool
  | .take sem since ticks => s.kbd.sem sem || s.elapsed since ticks
  | .awaitDisconnect since ticks | .awaitClosed since ticks =>
    s.kbd.disconnectedSem || s.elapsed since ticks
  | .delay since ticks => s.elapsed since ticks
  | .receiveCmd since ticks => !s.kbd.cmdQueue.items.isEmpty || s.elapsed since ticks
  | .waitCb => s.nimble.cbSemaphore
  | .takeSec _ since ticks => s.nimble.secSemaphore || s.elapsed since ticks
  | .postOpen _ _ => s.hidh.eventQueue.hasRoom
  | _ => true

def exec (o : Op) (c : Choice) (s : Sys) : Sys :=
  match o with
  | .look | .delay _ _ | .storeCount | .storeReadPeerSec | .gapConnCancel => s
  | .readDev d =>
    { s with fault := if (s.dev? d).isSome then s.fault else some .useAfterFree }
  | .take sem _ _ =>
    { s with kbd := s.kbd.setSem false sem }.setPhase
      (if sem = Sem.openDone ∧ s.kbd.openDoneSem = true then s.ctl.phase.answer else s.ctl.phase)
  | .give sem => { s with kbd := s.kbd.setSem true sem }
  | .beforeDeadline site deadline =>
    s.setPhase (if s.ticks < deadline then s.ctl.phase else .expired site)
  | .takeConnected =>
    let s' := { s with kbd := { s.kbd with connectedSem := false } }.note
      (.decided s.kbd.connectedSem)
    s'.setPhase (if s.kbd.connectedSem then .accepted else s.ctl.phase.refuse)
  | .awaitDisconnect _ _ =>
    let s' := { s with kbd := { s.kbd with disconnectedSem := false } }
    if s.kbd.disconnectedSem then s'.setPhase .dropped else s'
  | .readHidhDev => s.setPhase (.closing ((s.kbd.hidhDev.map .found).getD .done))
  | .awaitClosed _ _ =>
    { s with kbd := { s.kbd with disconnectedSem := false } }.setPhase (.closing .done)
  | .receiveCmd _ _ =>
    { s with
      kbd := { s.kbd with cmdQueue := s.kbd.cmdQueue.tail }
      trace := (s.kbd.cmdQueue.items.head?.map KbdCmd.obs).toList ++ s.trace }.setPhase
      (s.ctl.phase.receive s.kbd.cmdQueue.items.head?)
  | .peekCmd site =>
    if s.kbd.cmdQueue.items.head? = some .startPairing then s.setPhase (.repairing site) else s
  | .setState st =>
    ({ s with kbd := { s.kbd with state := st } }.note (.state st)).setPhase
      (s.ctl.phase.announce st)
  | .onStatus st line1 line2 =>
    { s with trace :=
        if s.kbd.cfg.onStatus then .status st line1 line2 :: s.trace else s.trace }.setPhase
      s.ctl.phase.announced
  | .emitKey ch => if s.kbd.cfg.onKey then s.note (.key ch) else s
  | .copyScan => s.setPhase (.copied s.kbd.scanDevs.devs)
  | .onScanUpdated devs =>
    { s with trace :=
        if s.kbd.cfg.onScanUpdated then .scanUpdated devs :: s.trace else s.trace }.setPhase
      .scanning
  | .checkSelection param =>
    s.setPhase (if s.kbd.validSelection param then .picked param.toNat else .scanning)
  | .copySelected index => s.setPhase (.chosen (s.kbd.scanDev index).addr)
  | .clearPrevKeys => { s with kbd := { s.kbd with prevKeys := .cleared } }.note .prevKeysCleared
  | .clearForceRepair =>
    { s with kbd := { s.kbd with cfg := { s.kbd.cfg with forceRepair := false } } }
  | .clearHidhDev =>
    { s with kbd := { s.kbd with hidhDev := none } }.setPhase (.pairing .forgotten)
  | .resetScan =>
    ({ s with kbd := { s.kbd with scanDevs := .empty } }.note .scanReset).setPhase
      s.ctl.phase.clearScan
  | .attemptFailed => s.setPhase .reconnecting
  | .storeClear =>
    ({ s with radio := { s.radio with ourSec := [], peerSec := [] } }.note .storeClear).setPhase
      s.ctl.phase.clearBonds
  | .gapDisc =>
    if c.rc = 0 then { s with radio := { s.radio with discovering := true } } else s
  | .gapDiscCancel =>
    { s with radio := { s.radio with
      discovering := if c.rc = 0 then false else s.radio.discovering } }
  | .closeCall d => s.setPhase (if (s.dev? d).isSome then s.ctl.phase else .closing .asked)
  | .gapTerminate d => (s.note (.terminate d (c.rc == 0))).setPhase (.closing .asked)
  | .openCall site bda =>
    ((s.note (.openCall site bda (s.getByBda bda).isSome)).setPhase site.phase).setStage
      (if (s.getByBda bda).isSome then .none else .called bda)
  | .reconnectCall d => (s.note (.reconnectCall d)).setStage (.begun .reconnect d)
  | .devMalloc bda addrType =>
    if c.rc = 0 then
      ({ s with
        hidh := { s.hidh with
          devices := s.hidh.devices ++
            [{ id := s.hidh.nextDev, bda := bda, addressType := addrType : Dev }]
          nextDev := s.hidh.nextDev + 1 } }.note (.deviceAdded s.hidh.nextDev bda)).setStage
        (.begun .open s.hidh.nextDev)
    else s.setStage .none
  | .devFree d => (s.freeDev d).setStage .none
  | .drainCb => { s with nimble := { s.nimble with cbSemaphore := false } }
  | .drainSec => { s with nimble := { s.nimble with secSemaphore := false } }
  | .gapConnect kind d =>
    match s.dev? d with
    | none => s.failWith .useAfterFree
    | some dev =>
      if connectAccepted c s dev.bda then
        ({ s with radio := { s.radio with connecting := some dev.bda } }.setStage
          (.connecting kind d)).setAwaiting true
      else s.setStage (.failed kind d)
  | .waitCb => { s with nimble := { s.nimble with cbSemaphore := false } }.setAwaiting false
  | .readConnId kind d =>
    match s.dev? d with
    | none => s.failWith .useAfterFree
    | some dev => s.setStage (if 0 ≤ dev.connId then .linked kind d .fresh else .failed kind d)
  | .installCallbacks d => s.setDev d fun dev => { dev with callbacks := true }
  | .securityInitiate d =>
    { s with trace := if c.rc = 0 then s.trace else .secured d true :: s.trace }.setStage
      (if c.rc = 0 then s.ctl.stage else s.ctl.stage.advance .secured)
  | .takeSec d _ _ =>
    ({ s with nimble := { s.nimble with secSemaphore := false } }.note (.secured d false)).setStage
      (s.ctl.stage.advance .secured)
  | .setConnected kind d =>
    (s.setDev d fun dev => { dev with connected := true }).setStage (.marked kind d)
  | .postOpen kind d => (s.post (.open d 0)).setStage (.opened kind d)
  | .openReturns r => (s.note (.returned r)).setStage .none
  | .reconnectReturns r =>
    let s' := (s.note (.returned r)).setStage .none
    if r.isSome then s'.setPhase .accepted else s'
  | .discAllSvcs d =>
    ((({ s with
      nimble := { s.nimble with serviceResult := List.replicate 10 none }
      reads := [] }.log .svcsRequested).request c (.services (s.connHandle d))).setAwaiting true).setStage
      (if c.rc = 0 then s.ctl.stage else s.ctl.stage.advance .abandoned)
  | .discAllChrs d startHandle endHandle =>
    (({ s with nimble := { s.nimble with charResult := List.replicate 20 none } }.log
      .chrsRequested).request c (.chrs (s.connHandle d) startHandle endHandle)).setAwaiting true
  | .discAllDscs d startHandle endHandle =>
    (({ s with nimble := { s.nimble with descrResult := List.replicate 20 none } }.log
      .dscsRequested).request c (.dscs (s.connHandle d) startHandle endHandle)).setAwaiting true
  | .readLong d handle uuid =>
    ({ s with
      nimble := { s.nimble with readDataVal := none, readDataLen := 0 }
      reads := if c.rc = 0 then s.reads else ⟨uuid, none⟩ :: s.reads }.request c
      (.read (s.connHandle d) handle)).setAwaiting (c.rc == 0)
  | .endRead uuid =>
    { s with reads :=
        ⟨uuid, if s.nimble.readStatus = 0 then some (s.nimble.readDataVal, s.nimble.readDataLen)
          else none⟩ :: s.reads }
  | .writeFlat conn handle value =>
    (s.request c (.write conn handle value conn)).setAwaiting true
  | .assertStatus => if s.nimble.status = 0 then s else s.failWith .assertFailed
  | .mallocReportMaps d =>
    if c.rc = 0 then
      s.setDev d fun dev =>
        { dev with reportMaps := some (List.replicate dev.reportMapsLen.toNat {}) }
    else s.setStage (s.ctl.stage.advance .abandoned)
  | .mallocProtocolMode d =>
    if c.rc = 0 then
      s.setDev d fun dev =>
        { dev with protocolMode := some (freshBytes c dev.reportMapsLen.toNat) }
    else s.setStage (s.ctl.stage.advance .abandoned)
  | .mallocReport => s.setStage (if c.rc = 0 then s.ctl.stage else s.ctl.stage.advance .abandoned)
  | .readSvc i => s.absorb (slot s.nimble.serviceResult i) fun svc => s.log (.svcProcessed svc)
  | .svcsDone => (s.log .svcsDone).setStage (s.ctl.stage.advance .discovered)
  | .readChr i => s.absorb (slot s.nimble.charResult i) fun chr => s.log (.chrProcessed chr)
  | .readDefHandle i => s.absorb (slot s.nimble.charResult i) fun _ => s
  | .resetChrs => { s with nimble := { s.nimble with chrsDiscovered := 0 } }.log .chrsDone
  | .readDsc i => s.absorb (slot s.nimble.descrResult i) fun dsc => s.log (.dscProcessed dsc)
  | .resetDscs => { s with nimble := { s.nimble with dscsDiscovered := 0 } }.log .dscsDone
  | .setField d field =>
    match s.dev? d with
    | none => s.failWith .useAfterFree
    | some dev =>
      s.absorb (field.write dev) fun _ => s.setDev d fun dev => (field.write dev).toOption.getD dev
  | .readReportMap d i => s.absorb (s.reportMap d i) fun _ => s
  | .freeBuf none => s
  | .freeBuf (some buf) => s.freeBufs [buf]
  | .parseReportMap none => s.failWith .nullDeref
  | .parseReportMap (some buf) =>
    if s.freed.contains buf.token then s.failWith .useAfterFree
    else
      s.absorb (espHidParseReportMap s.nimble.parser buf.bytes) fun r =>
        { s with nimble := { s.nimble with parser := r.2 } }

end Op

end BleKbdHost.Host
