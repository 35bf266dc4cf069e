import BleKbdHost.Host.Ops

/-!
# Everything beside the main task

The NimBLE host task runs the GATT and GAP callbacks of `nimble_hidh.c` and the scan callback; the
event task runs `hidh_cb`; the application calls the public API; time passes. Each is an `Event`.
A callback is one step, `hidh_cb` is one step for each of its accesses to shared variables; looking
for a key in `s_prev_keys` and the `memcpy` into it are one access each. (A `memset` within the six
comparisons of a key is as if it came before them: a key that is not found in part of the old keys is
not found in zeros.)
-/

namespace BleKbdHost.Host

open Hid Keys Conc

/-- `BLE_HS_EDONE`. -/
def bleHsEdone : Int := 14

/-- `BLE_SVC_HID_UUID16`. -/
def bleSvcHidUuid16 : UInt16 := 0x1812

/-- `BLE_HCI_ADV_RPT_EVTYPE_ADV_IND`. -/
def advInd : UInt8 := 0

/-- What a GATT callback is called with: an item, `BLE_HS_EDONE` (status 0 for a write), or any
other status. -/
inductive GattRsp where
  | svc (svc : GattSvc)
  | chr (chr : GattChr)
  | dsc (dsc : GattDsc)
  | data (bytes : List UInt8)
  | done
  | error (status : Int)
  deriving DecidableEq, Repr

/-- A callback that ends its request. -/
def GattRsp.terminal : GattRsp → Bool
  | .done | .error _ => true
  | _ => false

inductive Event where
  | tick (n : UInt32)
  -- the application
  | startPairing
  | selectDevice (param : Int)
  -- the NimBLE host task
  | advertised (report : AdvReport)
  | connected (handle : UInt16) (ota identity : Bda)
  | connectFailed (status : Int)
  | disconnected (handle : UInt16) (reason : Int)
  | encChange (handle : UInt16) (status : Int)
  | bonded (peer : Bda) (addrType : UInt8)
  | repeatPairing (handle : UInt16)
  /-- `mem`: there is memory for the event, and for the event loop's copy of it. -/
  | notifyRx (handle attr : UInt16) (data : List UInt8) (mem : Bool := true)
  | mtuExchanged (handle : UInt16)
  | gattCb (i : Nat) (rsp : GattRsp)
  -- the event task
  | dispatch
  deriving DecidableEq, Repr

/-! ## The application -/

/-- `xQueueSend` of a command; after 10 ms without a free slot the command is gone. -/
@[simp] def Sys.sendCmd (s : Sys) (cmd : KbdCmd) : Sys :=
  { s with kbd := { s.kbd with cmdQueue := s.kbd.cmdQueue.send cmd } }

/-- `ble_kbd_host_start_pairing`. -/
def bleKbdHostStartPairing (s : Sys) : Sys :=
  (s.sendCmd .startPairing).note (.startPairing s.kbd.cmdQueue.hasRoom)

/-- `ble_kbd_host_select_device`. -/
def bleKbdHostSelectDevice (s : Sys) (index : Int) : Sys :=
  (s.sendCmd (.selectDevice index)).note (.selectDevice index s.kbd.cmdQueue.hasRoom)

/-- `ble_kbd_host_get_state`. -/
def bleKbdHostGetState (s : Sys) : KbdState := s.kbd.state

/-! ## The scan callback -/

/-- What `collect_scan_cb` does to the list: it refreshes a listed device, or appends a new one
while there is room. -/
def ScanDevs.collect (scan : ScanDevs) (d : AdvReport) : ScanDevs :=
  if d.eventType ≠ advInd then scan
  else
    match d.name with
    | none | some [] => scan
    | some name =>
      if scan.devs.any (·.addr == d.addr) then
        ⟨scan.devs.map fun dev => if dev.addr = d.addr then { dev with rssi := d.rssi } else dev,
          by rw [List.length_map]; exact scan.bounded⟩
      else if h : scan.devs.length < 8 then
        ⟨scan.devs ++ [⟨d.addr, d.addrType, name.take 32 ++ [0], d.rssi⟩],
          by rw [List.length_append]; exact h⟩
      else scan

/-- `collect_scan_cb`. -/
def collectScanCb (s : Sys) (d : AdvReport) : Sys :=
  { s with kbd := { s.kbd with scanDevs := s.kbd.scanDevs.collect d } }.note (.advertised d)

/-! ## GATT callbacks -/

/-- The source side of a `memcpy` into slot `i` of a result array. -/
def Sys.store {α : Type} (s : Sys) (arr : List (Option α)) (i : Nat) (a : α)
    (f : List (Option α) → Sys) : Sys :=
  if i < arr.length then f (arr.set i (some a)) else s.failWith .outOfBounds

theorem Sys.store_of {α : Type} {P : Sys → Prop} {s : Sys} {arr : List (Option α)} {i : Nat} {a : α}
    {f : List (Option α) → Sys} (hfail : P (s.failWith .outOfBounds)) (hstore : ∀ arr, P (f arr)) :
    P (s.store arr i a f) := by
  unfold store
  split
  · exact hstore _
  · exact hfail

/-- `svc_disced` on a service. -/
def svcDisced (s : Sys) (conn : UInt16) (svc : GattSvc) : Sys :=
  (s.log (.svcReported svc)).store s.nimble.serviceResult s.nimble.servicesDiscovered svc fun arr =>
    let s := { s.log (.svcReported svc) with nimble := { s.nimble with
      status := 0
      serviceResult := arr
      servicesDiscovered := s.nimble.servicesDiscovered + 1 } }
    match s.getByConnId conn with
    | none => s
    | some dev =>
      if svc.uuid16 = bleSvcHidUuid16 then
        s.setDev dev.id fun dev =>
          { dev with status := 0, reportMapsLen := dev.reportMapsLen + 1 }
      else s

/-- `chr_disced` on a characteristic. -/
def chrDisced (s : Sys) (chr : GattChr) : Sys :=
  (s.log (.chrReported chr)).store s.nimble.charResult s.nimble.chrsDiscovered chr fun arr =>
    { s.log (.chrReported chr) with nimble := { s.nimble with
      status := 0
      charResult := arr
      chrsDiscovered := s.nimble.chrsDiscovered + 1 } }

/-- `desc_disced` on a descriptor. -/
def descDisced (s : Sys) (dsc : GattDsc) : Sys :=
  (s.log (.dscReported dsc)).store s.nimble.descrResult s.nimble.dscsDiscovered dsc fun arr =>
    { s.log (.dscReported dsc) with nimble := { s.nimble with
      status := 0
      descrResult := arr
      dscsDiscovered := s.nimble.dscsDiscovered + 1 } }

/-- `svc_disced`, `chr_disced` and `desc_disced` on their terminal status. -/
def discEnded (s : Sys) (status : Int) : Sys :=
  { s with nimble := { s.nimble with status := status } }.sendCb

/-- `nimble_on_read` on data. The length is a `uint16_t`: the buffer shrinks where it wraps. -/
def onReadData (s : Sys) (bytes : List UInt8) : Sys :=
  let old := (s.nimble.readDataVal.map (·.bytes)).getD []
  if 65536 ≤ old.length + bytes.length then s.failWith .outOfBounds
  else
    let token := (s.nimble.readDataVal.map (·.token)).getD s.nextBuf
    { s with
      nimble := { s.nimble with
        readStatus := 0
        readDataVal := some ⟨token, old ++ bytes⟩
        readDataLen := (old.length + bytes.length).toUInt16 }
      nextBuf := if s.nimble.readDataVal.isSome then s.nextBuf else s.nextBuf + 1 }

/-- `nimble_on_read` on `BLE_HS_EDONE`: it terminates the buffer, which must exist. -/
def onReadDone (s : Sys) : Sys :=
  if s.nimble.readDataVal.isSome then
    { s with nimble := { s.nimble with readStatus := 0 } }.sendCb
  else s.failWith .nullDeref

/-- `nimble_on_read` on any other status. -/
def onReadError (s : Sys) (status : Int) : Sys :=
  { s with nimble := { s.nimble with readStatus := status } }

/-- `on_subscribe` and `on_write`. -/
def onWrite (s : Sys) (conn arg : UInt16) : Sys :=
  if arg = conn then s.sendCb else s.failWith .assertFailed

/-- A terminal callback takes its request with it. -/
@[simp] def Sys.endRequest (s : Sys) (i : Nat) : Sys :=
  { s with radio := { s.radio with gatt := s.radio.gatt.eraseIdx i } }

/-- The status of a failed procedure is neither 0 nor `BLE_HS_EDONE`. -/
def isErrorStatus (status : Int) : Bool := status != 0 && status != bleHsEdone

/-- A callback for a service, characteristic or descriptor discovery: one more item, or the end. -/
def discCb (s : Sys) (i : Nat) (item : Option Sys) : GattRsp → Option Sys
  | .done => some (discEnded (s.endRequest i) 0)
  | .error status =>
    if isErrorStatus status then some (discEnded (s.endRequest i) status) else none
  | _ => item

/-- The callback of the `i`-th outstanding request. -/
def gattCb (s : Sys) (i : Nat) (rsp : GattRsp) : Option Sys :=
  match s.radio.gatt[i]? with
  | none => none
  | some (.services conn) =>
    discCb s i (match rsp with | .svc svc => some (svcDisced s conn svc) | _ => none) rsp
  | some (.chrs _ _ _) =>
    discCb s i (match rsp with | .chr chr => some (chrDisced s chr) | _ => none) rsp
  | some (.dscs _ _ _) =>
    discCb s i (match rsp with | .dsc dsc => some (descDisced s dsc) | _ => none) rsp
  | some (.read _ _) =>
    match rsp with
    | .data bytes => some (onReadData s bytes)
    | .done => some (onReadDone (s.endRequest i))
    | .error status =>
      if isErrorStatus status then some (onReadError (s.endRequest i) status) else none
    | _ => none
  | some (.write conn _ _ arg) =>
    match rsp with
    | .done => some (onWrite (s.endRequest i) conn arg)
    | .error status =>
      if isErrorStatus status then some (onWrite (s.endRequest i) conn arg) else none
    | _ => none

/-- A discovery request. -/
def GattReq.discovers : GattReq → Bool
  | .services _ | .chrs _ _ _ | .dscs _ _ _ => true
  | _ => false

/-- What the callback of the `i`-th outstanding request does: it stores an item, or ends its
request. -/
inductive GattStep (s : Sys) (i : Nat) : GattRsp → Sys → Prop
  | svc {conn : UInt16} (svc : GattSvc) (h : s.radio.gatt[i]? = some (.services conn)) :
      GattStep s i (.svc svc) (svcDisced s conn svc)
  | chr {conn startHandle endHandle : UInt16} (chr : GattChr)
      (h : s.radio.gatt[i]? = some (.chrs conn startHandle endHandle)) :
      GattStep s i (.chr chr) (chrDisced s chr)
  | dsc {conn startHandle endHandle : UInt16} (dsc : GattDsc)
      (h : s.radio.gatt[i]? = some (.dscs conn startHandle endHandle)) :
      GattStep s i (.dsc dsc) (descDisced s dsc)
  | found {req : GattReq} (h : s.radio.gatt[i]? = some req) (hreq : req.discovers = true) :
      GattStep s i .done (discEnded (s.endRequest i) 0)
  | lost {req : GattReq} {status : Int} (h : s.radio.gatt[i]? = some req)
      (hreq : req.discovers = true) (hstatus : isErrorStatus status = true) :
      GattStep s i (.error status) (discEnded (s.endRequest i) status)
  | data {conn handle : UInt16} (bytes : List UInt8)
      (h : s.radio.gatt[i]? = some (.read conn handle)) :
      GattStep s i (.data bytes) (onReadData s bytes)
  | read {conn handle : UInt16} (h : s.radio.gatt[i]? = some (.read conn handle)) :
      GattStep s i .done (onReadDone (s.endRequest i))
  | unread {conn handle : UInt16} {status : Int} (h : s.radio.gatt[i]? = some (.read conn handle))
      (hstatus : isErrorStatus status = true) :
      GattStep s i (.error status) (onReadError (s.endRequest i) status)
  | written {conn handle : UInt16} {value : List UInt8} {arg : UInt16} {rsp : GattRsp}
      (h : s.radio.gatt[i]? = some (.write conn handle value arg)) (hrsp : rsp.terminal = true) :
      GattStep s i rsp (onWrite (s.endRequest i) conn arg)

theorem discCb_cases {s s' : Sys} {i : Nat} {req : GattReq} {item : Option Sys} {rsp : GattRsp}
    (h : s.radio.gatt[i]? = some req) (hreq : req.discovers = true)
    (hitem : ∀ s₁, item = some s₁ → GattStep s i rsp s₁) (hstep : discCb s i item rsp = some s') :
    GattStep s i rsp s' := by
  unfold discCb at hstep
  split at hstep
  · cases hstep
    exact .found h hreq
  · split at hstep
    · rename_i hstatus
      cases hstep
      exact .lost h hreq hstatus
    · cases hstep
  · exact hitem s' hstep

theorem gattCb_cases {s s' : Sys} {i : Nat} {rsp : GattRsp} (h : gattCb s i rsp = some s') :
    GattStep s i rsp s' := by
  unfold gattCb at h
  split at h
  · cases h
  · rename_i conn hreq
    refine discCb_cases hreq rfl (fun s₁ hs₁ => ?_) h
    split at hs₁ <;> cases hs₁
    exact .svc _ hreq
  · rename_i hreq
    refine discCb_cases hreq rfl (fun s₁ hs₁ => ?_) h
    split at hs₁ <;> cases hs₁
    exact .chr _ hreq
  · rename_i hreq
    refine discCb_cases hreq rfl (fun s₁ hs₁ => ?_) h
    split at hs₁ <;> cases hs₁
    exact .dsc _ hreq
  · rename_i hreq
    split at h
    · cases h
      exact .data _ hreq
    · cases h
      exact .read hreq
    · split at h
      · rename_i hstatus
        cases h
        exact .unread hreq hstatus
      · cases h
    · cases h
  · rename_i hreq
    split at h
    · cases h
      exact .written hreq rfl
    · split at h
      · cases h
        exact .written hreq rfl
      · cases h
    · cases h

/-! ## GAP events -/

/-- The handler of `BLE_GAP_EVENT_CONNECT` with status 0, for the new link. It starts an exchange of
the MTU, which has no callback and which nothing waits for. -/
def connectEvent (s : Sys) (link : Link) : Sys :=
  let found := (s.getByBda link.ota).or (s.getByBda link.identity)
  let s' := { s with radio := { s.radio with
    links := s.radio.links ++ [link], connecting := none } }.note
      (.linkUp link (found.map Dev.id))
  match found with
  | none => s'.sendCb
  | some dev =>
    let s' := { s' with radio := { s'.radio with
      mtuExchanges := s.radio.mtuExchanges ++ [link.handle] } }
    (s'.setDev dev.id fun dev =>
      { dev with status := -1, connId := (link.handle.toNat : Int) }).sendCb

/-- The connection attempt succeeds. The new link's handle is not in use. -/
def gapConnected (s : Sys) (handle : UInt16) (ota identity : Bda) : Option Sys :=
  match s.radio.connecting with
  | none => none
  | some peer =>
    if s.radio.links.any (·.handle == handle) then none
    else some (connectEvent s ⟨handle, peer, ota, identity⟩)

/-- `BLE_GAP_EVENT_CONNECT` with another status: `dev` is `NULL` there, so only the caller is
unblocked. -/
def gapConnectFailed (s : Sys) (status : Int) : Option Sys :=
  if s.radio.connecting.isSome && status != 0 then
    some { s with radio := { s.radio with connecting := none } }.sendCb
  else none

/-- The handler of `BLE_GAP_EVENT_DISCONNECT`, for the link that is gone. -/
def disconnectEvent (s : Sys) (link : Link) (reason : Int) : Sys :=
  let s' := { s with radio := { s.radio with
    links := s.radio.links.filter (·.handle != link.handle)
    mtuExchanges := s.radio.mtuExchanges.filter (· != link.handle) } }.note (.linkDown link)
  match s.getByConnId link.handle with
  | none => s'
  | some dev =>
    if dev.connected then
      (s'.setDev dev.id fun dev =>
        { dev with connected := false, status := reason, connId := -1 }).post (.close dev.id reason)
    else s'.setDev dev.id fun dev => { dev with status := reason, connId := -1 }

/-- A link goes down. Where the handler posts, it waits for room in the event queue. -/
def gapDisconnected (s : Sys) (handle : UInt16) (reason : Int) : Option Sys :=
  match s.radio.links.find? (·.handle == handle) with
  | none => none
  | some link =>
    if (s.getByConnId handle).any (·.connected) && !s.hidh.eventQueue.hasRoom then none
    else some (disconnectEvent s link reason)

/-- `BLE_GAP_EVENT_ENC_CHANGE`. -/
def gapEncChange (s : Sys) (handle : UInt16) (status : Int) : Option Sys :=
  if s.radio.links.any (·.handle == handle) then
    some ({ s with nimble := { s.nimble with secSemaphore := true } }.note
      (.encChange handle status))
  else none

/-- An exchange of the MTU ends. -/
def gapMtuExchanged (s : Sys) (handle : UInt16) : Option Sys :=
  if s.radio.mtuExchanges.contains handle then
    some { s with radio := { s.radio with mtuExchanges := s.radio.mtuExchanges.erase handle } }
  else none

/-- Pairing stored the keys of a peer. -/
def bondStored (s : Sys) (peer : Bda) (addrType : UInt8) : Sys :=
  { s with radio := { s.radio with
    ourSec := s.radio.ourSec.filter (· != peer) ++ [peer]
    peerSec := s.radio.peerSec.filter (·.1 != peer) ++ [(peer, addrType)] } }

/-- `BLE_GAP_EVENT_REPEAT_PAIRING`. -/
def gapRepeatPairing (s : Sys) (handle : UInt16) : Option Sys :=
  match s.radio.links.find? (·.handle == handle) with
  | none => none
  | some link =>
    some { s with radio := { s.radio with
      ourSec := s.radio.ourSec.filter (· != link.identity)
      peerSec := s.radio.peerSec.filter (·.1 != link.identity) } }

/-- The event a notification on a report characteristic becomes. -/
def reportEvent (d : DevId) (report : DevReport) (data : List UInt8) : HidhEvent :=
  if report.reportType = ReportType.feature then
    .feature d report.mapIndex report.reportId report.usage data
  else
    .input d report.mapIndex report.reportId report.usage data

/-- The event that a notification becomes, if any, or the fault of looking up its protocol mode. -/
def notifyEvent (dev : Dev) (attr : UInt16) (data : List UInt8) : Except Fault (Option HidhEvent) :=
  if attr = dev.batteryHandle then
    .ok (some (.battery dev.id (data.getD 0 0)))
  else
    match dev.reports.find? (·.handle == attr) with
    | none => .ok none
    | some report =>
      match dev.protocolMode with
      | none => .error .nullDeref
      | some modes =>
        match modes[report.mapIndex.toNat]? with
        | none => .error .outOfBounds
        | some mode =>
          if report.protocolMode ≠ mode then .ok none
          else .ok (some (reportEvent dev.id report data))

/-- `BLE_GAP_EVENT_NOTIFY_RX`. Without memory for the event the notification is dropped. -/
def gapNotifyRx (s : Sys) (handle attr : UInt16) (data : List UInt8) (mem : Bool) : Option Sys :=
  if s.radio.links.any (·.handle == handle) then
    match s.getByConnId handle with
    | none => some s
    | some dev =>
      match notifyEvent dev attr data with
      | .error fault => some (s.failWith fault)
      | .ok none => some s
      | .ok (some event) =>
        if !mem then some s
        else if s.hidh.eventQueue.hasRoom then some (s.post event)
        else none
  else none

/-- What a notification does: nothing, an event, or a fault. -/
theorem gapNotifyRx_cases {s s' : Sys} {handle attr : UInt16} {data : List UInt8} {mem : Bool}
    (h : gapNotifyRx s handle attr data mem = some s') :
    s' = s ∨
      (∃ fault dev, notifyEvent dev attr data = .error fault ∧ s' = s.failWith fault) ∨
      ∃ dev event, s.getByConnId handle = some dev ∧ notifyEvent dev attr data = .ok (some event) ∧
        mem = true ∧ s.hidh.eventQueue.hasRoom = true ∧ s' = s.post event := by
  unfold gapNotifyRx at h
  split at h
  · split at h
    · cases h; exact .inl rfl
    · rename_i dev hdev
      split at h
      · rename_i fault hfault
        cases h
        exact .inr (.inl ⟨fault, dev, hfault, rfl⟩)
      · cases h; exact .inl rfl
      · rename_i event hevent
        split at h
        · cases h; exact .inl rfl
        · rename_i hmem
          split at h
          · rename_i hroom
            cases h
            exact .inr (.inr ⟨dev, event, hdev, hevent, by simpa using hmem, hroom, rfl⟩)
          · cases h
  · cases h

/-! ## The event task -/

/-- `translate_report`, step by step: each key that is set is looked for and its characters are
emitted, then the keys are kept. -/
def translateSteps (data : List UInt8) : List HidhStep :=
  if data.length < 3 then []
  else
    ((curKeys data).keys.filter (· != 0)).flatMap (fun code =>
      .compare (data.getD 0 0) code :: (keyOutput (data.getD 0 0) code).map .emit) ++
      [.remember (curKeys data)]

theorem mem_translateSteps {data : List UInt8} {step : HidhStep} (h : step ∈ translateSteps data) :
    (∃ mod code, step = .compare mod code) ∨ (∃ ch, step = .emit ch) ∨
      step = .remember (curKeys data) := by
  unfold translateSteps at h
  split at h
  · cases h
  · simp only [List.mem_append, List.mem_flatMap, List.mem_cons, List.mem_map, List.not_mem_nil,
      or_false] at h
    obtain ⟨code, -, rfl | ⟨ch, -, rfl⟩⟩ | rfl := h
    · exact .inl ⟨_, code, rfl⟩
    · exact .inr (.inl ⟨ch, rfl⟩)
    · exact .inr (.inr rfl)

section

variable (data : List UInt8)

@[simp] theorem setHidhDev_notMem_translateSteps (d : DevId) :
    .setHidhDev d ∉ translateSteps data := fun h => by
  simpa using mem_translateSteps h

@[simp] theorem take_notMem_translateSteps (sem : Sem) : .take sem ∉ translateSteps data := fun h => by
  simpa using mem_translateSteps h

@[simp] theorem give_notMem_translateSteps (sem : Sem) : .give sem ∉ translateSteps data := fun h => by
  simpa using mem_translateSteps h

@[simp] theorem free_notMem_translateSteps (d : DevId) : .free d ∉ translateSteps data := fun h => by
  simpa using mem_translateSteps h

end

/-- What the handlers of an event do: `hidh_cb`, and the release of a device that failed to open. -/
def hidhSteps : HidhEvent → List HidhStep
  | .open dev status =>
    if status = 0 then [.setHidhDev dev, .give .connected, .give .openDone]
    else [.give .openDone, .free dev]
  | .input _ _ _ usage data => if usage = .keyboard then translateSteps data else []
  | .close _ _ => [.take .connected, .give .disconnected]
  | .feature _ _ _ _ _ | .battery _ _ => []

def HidhStep.exec (s : Sys) : HidhStep → Sys
  | .setHidhDev d => { s with kbd := { s.kbd with hidhDev := some d } }
  | .take sem => { s with kbd := s.kbd.setSem false sem }
  | .give sem => { s with kbd := s.kbd.setSem true sem }
  | .compare mod code =>
    { s with kbd := { s.kbd with wasPressed := s.kbd.prevKeys.keys.contains code } }.note
      (.compared mod code)
  | .emit ch =>
    { s with trace :=
        if !s.kbd.wasPressed && s.kbd.cfg.onKey then .key ch :: s.trace else s.trace }
  | .remember keys => { s with kbd := { s.kbd with prevKeys := keys } }
  | .free d => s.freeDev d

/-- Records what is left to do for an event, or that it was handled. -/
def Sys.handling (s : Sys) (p : Posted) : List HidhStep → Sys
  | [] => { s with hidh := { s.hidh with handling := none } }.note (.handled p)
  | step :: steps => { s with hidh := { s.hidh with handling := some (p, step :: steps) } }

/-- One step of the event task: it takes the next event, or goes on with the one it has. -/
def dispatch (s : Sys) : Option Sys :=
  match s.hidh.handling with
  | some (p, step :: steps) => some ((step.exec s).handling p steps)
  | some (p, []) => some (s.handling p [])
  | none =>
    match s.hidh.eventQueue.items with
    | [] => none
    | p :: _ =>
      some ({ s with hidh := { s.hidh with eventQueue := s.hidh.eventQueue.tail } }.handling p
        (hidhSteps p.event))

/-! ## All of it -/

/-- One step beside the main task. -/
def eventStep (e : Event) (s : Sys) : Option Sys :=
  match e with
  | .tick n => some { s with ticks := s.ticks + n }
  | .startPairing => some (bleKbdHostStartPairing s)
  | .selectDevice index => some (bleKbdHostSelectDevice s index)
  | .advertised report => if s.radio.discovering then some (collectScanCb s report) else none
  | .connected handle ota identity => gapConnected s handle ota identity
  | .connectFailed status => gapConnectFailed s status
  | .disconnected handle reason => gapDisconnected s handle reason
  | .encChange handle status => gapEncChange s handle status
  | .bonded peer addrType => some (bondStored s peer addrType)
  | .repeatPairing handle => gapRepeatPairing s handle
  | .notifyRx handle attr data mem => gapNotifyRx s handle attr data mem
  | .mtuExchanged handle => gapMtuExchanged s handle
  | .gattCb i rsp => gattCb s i rsp
  | .dispatch => dispatch s

end BleKbdHost.Host
