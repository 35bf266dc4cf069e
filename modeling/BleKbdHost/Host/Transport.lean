import BleKbdHost.Host.Discovery

/-!
# Opening, reconnecting and closing

`esp_ble_hidh_dev_open` and `esp_ble_hidh_dev_reconnect` of `nimble_hidh.c`, `esp_hidh_dev_open` and
`esp_hidh_dev_close` of `esp_hidh.c`. The addresses and types that only `ble_gap_connect` looks at
are left to it. Allocating a device, listing it and filling in its first fields is one step.
-/

namespace BleKbdHost.Host

open Hid Keys Conc

/-- `esp_hidh_dev_malloc`, and the initialisation of the new device. -/
def espHidhDevMalloc (bda : Bda) (addrType : UInt8) : Prog (Option DevId) :=
  .ask (.devMalloc bda addrType) fun c s => if c.rc = 0 then some s.hidh.nextDev else none

/-- Drains both semaphores of the transport. -/
def drainSemaphores : Prog Unit := do
  .perform .drainCb
  .perform .drainSec

/-- `ble_gap_connect` to the device's address: whether it was accepted. -/
def bleGapConnect (kind : CallKind) (d : DevId) : Prog Bool :=
  .ask (.gapConnect kind d) fun c s =>
    ((s.dev? d).map fun dev => connectAccepted c s dev.bda).getD false

/-- `dev->ble.conn_id`, after the connection attempt. -/
def readConnId (kind : CallKind) (d : DevId) : Prog Int :=
  .ask (.readConnId kind d) fun _ s => ((s.dev? d).map (·.connId)).getD (-1)

/-- Initiates security and, unless that is refused, waits for up to 30 s. -/
def initiateSecurity (d : DevId) : Prog Unit := do
  let ret ← call (.securityInitiate d)
  let hz ← look (·.kbd.cfg.tickRateHz)
  let since ← xTaskGetTickCount
  .when (ret = 0) (.perform (.takeSec d since (pdMsToTicks hz 30000)))

/-- The part of an open or a reconnect from the accepted connection request to the encrypted link:
whether there is one. -/
def waitForLink (kind : CallKind) (d : DevId) : Prog Bool := do
  .perform .waitCb
  let connId ← readConnId kind d
  return decide (0 ≤ connId)

/-- `esp_ble_hidh_dev_open`, once the connection is there. -/
def openLinked (d : DevId) : Prog (Option DevId) := do
  .perform (.installCallbacks d)
  initiateSecurity d
  readDeviceServices d
  .perform (.setConnected .open d)
  .perform (.postOpen .open d)
  attachReportListeners d
  return some d

/-- `esp_ble_hidh_dev_open` on its new device. -/
def openAllocated (d : DevId) : Prog (Option DevId) := do
  drainSemaphores
  if ← bleGapConnect .open d then
    if ← waitForLink .open d then
      openLinked d
    else
      .perform (.devFree d)
      return none
  else
    .perform (.devFree d)
    return none

/-- `esp_ble_hidh_dev_open`. -/
def espBleHidhDevOpen (bda : Bda) (addrType : UInt8) : Prog (Option DevId) := do
  match ← espHidhDevMalloc bda addrType with
  | none => return none
  | some d => openAllocated d

/-- `esp_ble_hidh_dev_open`, unless the address is known already. -/
def openUnlessKnown (known : Bool) (bda : Bda) (addrType : UInt8) : Prog (Option DevId) :=
  if known then return none else espBleHidhDevOpen bda addrType

/-- `esp_hidh_dev_open`. -/
def espHidhDevOpen (site : OpenSite) (bda : Bda) (addrType : UInt8) : Prog (Option DevId) := do
  let known ← .ask (.openCall site bda) fun _ s => (s.getByBda bda).isSome
  let dev ← openUnlessKnown known bda addrType
  .perform (.openReturns dev)
  return dev

/-- `esp_ble_hidh_dev_reconnect`, once the connection is there. -/
def reconnectLinked (d : DevId) : Prog (Option DevId) := do
  initiateSecurity d
  .perform (.setConnected .reconnect d)
  attachReportListeners d
  .perform (.postOpen .reconnect d)
  return some d

/-- `esp_ble_hidh_dev_reconnect` on a device in use. -/
def reconnectInUse (d : DevId) : Prog (Option DevId) := do
  drainSemaphores
  if ← bleGapConnect .reconnect d then
    if ← waitForLink .reconnect d then
      reconnectLinked d
    else
      return none
  else
    return none

/-- `esp_ble_hidh_dev_reconnect`, if the device is in use. -/
def reconnectIfInUse (inUse : Bool) (d : DevId) : Prog (Option DevId) :=
  if inUse then reconnectInUse d else return none

/-- `esp_ble_hidh_dev_reconnect`. -/
def espBleHidhDevReconnect (d : DevId) : Prog (Option DevId) := do
  let inUse ← .ask (.reconnectCall d) fun _ s => ((s.dev? d).map (·.inUse)).getD false
  let dev ← reconnectIfInUse inUse d
  .perform (.reconnectReturns dev)
  return dev

/-- `esp_hidh_dev_close`: asks for the link to be closed if the device is listed. -/
def espHidhDevClose (d : DevId) : Prog Unit := do
  let listed ← .ask (.closeCall d) fun _ s => (s.dev? d).isSome
  .when (listed = true) (.perform (.gapTerminate d))

end BleKbdHost.Host
