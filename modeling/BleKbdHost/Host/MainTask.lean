import BleKbdHost.Host.Transport

/-!
# The main task

`kbd_main_task` with `try_bonded_reconnect` and `wait_for_start_pairing`. Its labels and the heads of
its loops are the constructors of `Label`; the locals that are alive there are their arguments.
`host` is the whole component and `boot` its state as `ble_kbd_host_init` starts the task.
-/

namespace BleKbdHost.Host

open Hid Keys Conc

/-- The two calls of `wait_for_start_pairing`. -/
inductive WaitSite where
  | beforeAttempt
  | afterAttempt
  deriving DecidableEq, Repr

inductive Label where
  | top
  /-- The head of the reconnect loop. -/
  | reconnecting
  /-- The loop of `wait_for_start_pairing`. -/
  | waitForStartPairing (site : WaitSite) (deadline : UInt32)
  /-- The attempt of the reconnect loop. -/
  | tryReconnect
  /-- The wait loop of `try_bonded_reconnect`. -/
  | bondedWait (deadline : UInt32)
  /-- The attempt failed. -/
  | reconnectFailed
  | doPair
  | restartScan
  | scanning (scanStart lastUpdate : UInt32)
  | selected (index : Nat)
  | connecting (deadline : UInt32)
  | connected
  | connectedWait
  deriving DecidableEq, Repr

/-! ## Helpers -/

/-- `pdMS_TO_TICKS` at the configured tick rate. -/
def msToTicks (ms : Nat) : Prog UInt32 := look fun s => pdMsToTicks s.kbd.cfg.tickRateHz ms

/-- `xSemaphoreTake` with a timeout. -/
def xSemaphoreTake (sem : Sem) (ms : Nat) : Prog Bool := do
  let ticks ← msToTicks ms
  let since ← xTaskGetTickCount
  .ask (.take sem since ticks) fun _ s => s.kbd.sem sem

/-- `vTaskDelay`. -/
def vTaskDelay (ms : Nat) : Prog Unit := do
  let ticks ← msToTicks ms
  let since ← xTaskGetTickCount
  .perform (.delay since ticks)

/-- `xQueueReceive` with a timeout in ticks. -/
def xQueueReceive (ticks : UInt32) : Prog (Option KbdCmd) := do
  let since ← xTaskGetTickCount
  .ask (.receiveCmd since ticks) fun _ s => s.kbd.cmdQueue.items.head?

/-- `xQueuePeek` without a timeout: whether a re-pair request is at the head. -/
def peekStartPairing (site : PollSite) : Prog Bool :=
  .ask (.peekCmd site) fun _ s => s.kbd.cmdQueue.items.head? == some .startPairing

/-- `set_state`. -/
def setState (st : KbdState) (line1 line2 : Line) : Prog Unit := do
  .perform (.setState st)
  .perform (.onStatus st line1 line2)

/-- Whether `s_connected_sem` is available: taken without a timeout, and given back. -/
def takeConnected : Prog Bool := do
  let ok ← .ask .takeConnected fun _ s => s.kbd.connectedSem
  .when (ok = true) (.perform (.give .connected))
  return ok

/-! ## The reconnect phase -/

def top : Prog Label := do
  let bondCount ← .ask .storeCount fun c s => if c.rc = 0 then s.radio.ourSec.length else 0
  let forceRepair ← look (·.kbd.cfg.forceRepair)
  if !forceRepair && decide (0 < bondCount) then
    setState .reconnecting (.text "Reconnecting...") (.text "Hold BOOT 2s to re-pair")
    return .reconnecting
  else
    return .doPair

/-- `wait_for_start_pairing(0)` begins. -/
def reconnecting : Prog Label := do
  let now ← xTaskGetTickCount
  return .waitForStartPairing .beforeAttempt now

/-- What follows a call of `wait_for_start_pairing` that returned false. -/
def WaitSite.next : WaitSite → Label
  | .beforeAttempt => .tryReconnect
  | .afterAttempt => .reconnecting

/-- One round of `wait_for_start_pairing`. -/
def waitForStartPairing (site : WaitSite) (deadline : UInt32) : Prog Label := do
  let now ← xTaskGetTickCount
  let remain := if now < deadline then deadline - now else 0
  let hundred ← msToTicks 100
  let slice := if hundred < remain then hundred else remain
  match ← xQueueReceive slice with
  | some .startPairing => return .doPair
  | some (.selectDevice _) => return .waitForStartPairing site deadline
  | none => if remain = 0 then return site.next else return .waitForStartPairing site deadline

/-- `try_bonded_reconnect`, up to its wait loop. -/
def tryBondedReconnect : Prog Label := do
  let (rc, bondCount) ← .ask .storeCount fun c s =>
    (c.rc, if c.rc = 0 then s.radio.peerSec.length else 0)
  if rc ≠ 0 ∨ bondCount = 0 then
    return .reconnectFailed
  else
    match ← .ask .storeReadPeerSec fun c s => if c.rc = 0 then s.radio.peerSec.head? else none with
    | none => return .reconnectFailed
    | some (bda, addrType) =>
      let _ ← xSemaphoreTake .openDone 0
      let _ ← espHidhDevOpen .bonded bda addrType
      let ticks ← msToTicks 15000
      let now ← xTaskGetTickCount
      return .bondedWait (now + ticks)

def tryReconnect : Prog Label := do
  match ← look (·.kbd.hidhDev) with
  | some d =>
    match ← espBleHidhDevReconnect d with
    | some _ => return .connected
    | none => return .reconnectFailed
  | none => tryBondedReconnect

/-- The end of `try_bonded_reconnect`. -/
def bondedDecide : Prog Label := do
  if ← takeConnected then
    return .connected
  else
    .perform .gapConnCancel
    return .reconnectFailed

/-- A re-pair request while the bonded peer is awaited: the command stays in the queue. -/
def bondedRepair : Prog Label := do
  .perform .gapConnCancel
  return .reconnectFailed

/-- The deadline of a wait for `s_open_done_sem` is not over. -/
def beforeDeadline (site : OpenSite) (deadline : UInt32) : Prog Bool :=
  .ask (.beforeDeadline site deadline) fun _ s => decide (s.ticks < deadline)

/-- The poll of the bonded wait. -/
def bondedPoll (deadline : UInt32) : Prog Label := do
  if ← peekStartPairing .bonded then bondedRepair else return .bondedWait deadline

def bondedWait (deadline : UInt32) : Prog Label := do
  if ← beforeDeadline .bonded deadline then
    if ← xSemaphoreTake .openDone 100 then bondedDecide else bondedPoll deadline
  else
    bondedDecide

/-- `wait_for_start_pairing(reconnect_ms)` begins. -/
def reconnectFailed : Prog Label := do
  .perform .attemptFailed
  let ms ← look fun s =>
    if s.kbd.cfg.reconnectIntervalMs = 0 then s.kbd.cfg.defaultReconnectIntervalMs
    else s.kbd.cfg.reconnectIntervalMs
  let ticks ← msToTicks ms.toNat
  let now ← xTaskGetTickCount
  return .waitForStartPairing .afterAttempt (now + ticks)

/-! ## The pairing phase -/

def doPair : Prog Label := do
  .perform .clearForceRepair
  .perform .storeClear
  .perform .clearHidhDev
  .perform .resetScan
  setState .scanning (.text "BT Keyboard Setup") (.text "Select a device")
  return .restartScan

def restartScan : Prog Label := do
  let scanRc ← call .gapDisc
  if scanRc ≠ 0 then
    vTaskDelay 1000
    return .restartScan
  else
    let scanStart ← xTaskGetTickCount
    return .scanning scanStart 0

/-- The periodic `on_scan_updated`: the new `last_update`. -/
def updateScan (lastUpdate : UInt32) : Prog UInt32 := do
  let now ← xTaskGetTickCount
  let hz ← look (·.kbd.cfg.tickRateHz)
  if 500 ≤ pdTicksToMs hz (now - lastUpdate) then
    let devs ← .ask .copyScan fun _ s => s.kbd.scanDevs.devs
    .perform (.onScanUpdated devs)
    return now
  else
    return lastUpdate

/-- The scan timeout at the end of a round. -/
def checkScanTimeout (scanStart lastUpdate : UInt32) : Prog Label := do
  let cnt ← look (·.kbd.scanDevs.devs.length)
  let timeoutMs ← look fun s =>
    if s.kbd.cfg.scanTimeoutMs = 0 then s.kbd.cfg.defaultScanTimeoutMs
    else s.kbd.cfg.scanTimeoutMs
  let hz ← look (·.kbd.cfg.tickRateHz)
  let now ← xTaskGetTickCount
  if cnt = 0 ∧ timeoutMs < pdTicksToMs hz (now - scanStart) then
    .perform .gapDiscCancel
    .perform (.onStatus .scanning (.text "Put keyboard in") (.text "pairing mode"))
    vTaskDelay 3000
    .perform .resetScan
    return .restartScan
  else
    return .scanning scanStart lastUpdate

def scanning (scanStart lastUpdate : UInt32) : Prog Label := do
  let lastUpdate ← updateScan lastUpdate
  let ticks ← msToTicks 100
  match ← xQueueReceive ticks with
  | some .startPairing =>
    .perform .gapDiscCancel
    .perform .resetScan
    .perform .storeClear
    return .restartScan
  | some (.selectDevice param) =>
    let valid ← .ask (.checkSelection param) fun _ s => s.kbd.validSelection param
    if valid then return .selected param.toNat else checkScanTimeout scanStart lastUpdate
  | none => checkScanTimeout scanStart lastUpdate

/-- The connection attempt to the selected entry. -/
def selected (index : Nat) : Prog Label := do
  .perform .gapDiscCancel
  vTaskDelay 300
  let sel ← .ask (.copySelected index) fun _ s => s.kbd.scanDev index
  setState .connecting (.name sel.name) (.text "Connecting...")
  let _ ← xSemaphoreTake .openDone 0
  let _ ← espHidhDevOpen .selected sel.addr sel.addrType
  let ticks ← msToTicks 60000
  let now ← xTaskGetTickCount
  return .connecting (now + ticks)

/-- After the wait for the connection. -/
def connectDecide : Prog Label := do
  if ← takeConnected then
    return .connected
  else
    .perform (.onStatus .scanning (.text "Connection failed") (.text "try again"))
    vTaskDelay 1000
    return .doPair

/-- A re-pair request while connecting: cancels the attempt and waits for its open event. -/
def connectingRepair : Prog Label := do
  let _ ← xQueueReceive 0
  .perform .gapConnCancel
  let _ ← xSemaphoreTake .openDone 2000
  return .doPair

/-- The poll of the connecting wait. -/
def connectingPoll (deadline : UInt32) : Prog Label := do
  if ← peekStartPairing .connecting then connectingRepair else return .connecting deadline

def connecting (deadline : UInt32) : Prog Label := do
  if ← beforeDeadline .selected deadline then
    if ← xSemaphoreTake .openDone 100 then connectDecide else connectingPoll deadline
  else
    connectDecide

/-! ## The connected phase -/

def connected : Prog Label := do
  setState .connected (.text "Keyboard connected!") (.text "")
  .perform .clearPrevKeys
  .perform (.emitKey 0)
  return .connectedWait

/-- The wait for `s_disconnected_sem`. -/
def awaitDisconnect : Prog Bool := do
  let ticks ← msToTicks 100
  let since ← xTaskGetTickCount
  .ask (.awaitDisconnect since ticks) fun _ s => s.kbd.disconnectedSem

/-- The link dropped. -/
def connectedDropped : Prog Label := do
  setState .reconnecting (.text "Keyboard disconnected") (.text "Hold BOOT 2s to re-pair")
  vTaskDelay 300
  return .top

/-- The wait for the close event of a link that was asked to be closed. -/
def awaitClosed : Prog Unit := do
  let ticks ← msToTicks 2000
  let since ← xTaskGetTickCount
  .perform (.awaitClosed since ticks)

/-- A re-pair request while connected: closes the link and waits for its close event. -/
def connectedRepair : Prog Label := do
  let _ ← xQueueReceive 0
  match ← .ask .readHidhDev fun _ s => s.kbd.hidhDev with
  | some d =>
    espHidhDevClose d
    awaitClosed
    return .doPair
  | none => return .doPair

/-- The poll of the connected phase. -/
def connectedPoll : Prog Label := do
  if ← peekStartPairing .connected then connectedRepair else return .connectedWait

def connectedWait : Prog Label := do
  if ← awaitDisconnect then connectedDropped else connectedPoll

/-! ## The system -/

/-- The blocks of `kbd_main_task`. -/
def kbdMainTask : Label → Prog Label
  | .top => top
  | .reconnecting => reconnecting
  | .waitForStartPairing site deadline => waitForStartPairing site deadline
  | .tryReconnect => tryReconnect
  | .bondedWait deadline => bondedWait deadline
  | .reconnectFailed => reconnectFailed
  | .doPair => doPair
  | .restartScan => restartScan
  | .scanning scanStart lastUpdate => scanning scanStart lastUpdate
  | .selected index => selected index
  | .connecting deadline => connecting deadline
  | .connected => connected
  | .connectedWait => connectedWait

/-- The component: the main task among the host task, the event task and the application. A fault
ends the run. -/
def host : System Op Choice Sys Event Label where
  live s := s.fault.isNone
  ready o s := o.ready s
  exec o c s := o.exec c s
  env := eventStep
  prog := kbdMainTask

/-- A configuration of a run. -/
abbrev HostConfig : Type := Config Op Choice Sys Label

/-- The start of `kbd_main_task` with the bonds of earlier boots; `force_repair` has cleared them. -/
def boot (cfg : KbdConfig) (bonds : List (Bda × UInt8)) : HostConfig where
  task := .ret .top
  state :=
    { kbd := { cfg := cfg }
      radio :=
        { ourSec := if cfg.forceRepair then [] else bonds.map (·.1)
          peerSec := if cfg.forceRepair then [] else bonds } }

end BleKbdHost.Host
