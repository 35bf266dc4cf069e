import BleKbdHost.Host.State

/-!
# The device functions of `esp_hidh.c`

The public `esp_hidh_dev_*` functions that take a device handle, with the transport functions of
`nimble_hidh.c` behind them. They run in a fixed state of the memory and of the device list (`Api`);
`Trace` is what a call does there: the handles it reads or calls through, the mutexes it holds, and
what it stores through its output pointers.
-/

namespace BleKbdHost.Handles

open Hid Host

/-! ## Calls -/

/-- Why a call does not return. -/
inductive Stop where
  | fault (fault : Fault)
  | blocked
  deriving DecidableEq, Repr

/-- `s_esp_hidh_devices_semaphore`, and the `mutex` of a device. -/
inductive Mutex where
  | devices
  | device (dev : DevId)
  deriving DecidableEq, Repr

/-- What is stored through an output pointer. -/
inductive Stored where
  | size (n : Nat)
  | bytes (bytes : List UInt8)
  | reports (reports : List (Option EspHidReportItem))
  | maps (maps : Option (List RawReportMap))
  deriving DecidableEq, Repr

/-- What a call has done so far. A handle is `none` where it is `NULL`, and so is an output pointer. -/
structure Trace where
  uses : List (Option DevId) := []
  held : List Mutex := []
  stores : List (Nat × Stored) := []
  deriving DecidableEq, Repr

/-- A call, by what it does and how it ends. -/
structure Call (α : Type) where
  run : Trace → Except Stop α × Trace

namespace Call

variable {α β : Type}

def stop (why : Stop) : Call α := ⟨fun t => (.error why, t)⟩

/-- A call that is followed by another, unless it stops. -/
def andThen (x : Call α) (f : α → Call β) : Call β where
  run t :=
    match x.run t with
    | (.ok a, t) => (f a).run t
    | (.error why, t) => (.error why, t)

instance : Monad Call where
  pure a := ⟨fun t => (.ok a, t)⟩
  bind := andThen

@[simp] theorem run_pure (a : α) (t : Trace) : (pure a : Call α).run t = (.ok a, t) := rfl

theorem run_bind_ok {x : Call α} {f : α → Call β} {t t' : Trace} {a : α}
    (h : x.run t = (.ok a, t')) : (x >>= f).run t = (f a).run t' := by
  change (x.andThen f).run t = (f a).run t'
  simp only [andThen, h]

theorem run_bind_error {x : Call α} {f : α → Call β} {t t' : Trace} {why : Stop}
    (h : x.run t = (.error why, t')) : (x >>= f).run t = (.error why, t') := by
  change (x.andThen f).run t = (.error why, t')
  simp only [andThen, h]

end Call

/-- `xSemaphoreTake` with `portMAX_DELAY`, and `xSemaphoreGive`. -/
def take (mutex : Mutex) : Call Unit where
  run t := if mutex ∈ t.held then (.error .blocked, t) else (.ok (), { t with held := mutex :: t.held })

def give (mutex : Mutex) : Call Unit where
  run t := (.ok (), { t with held := t.held.erase mutex })

/-- Stores through an output pointer. -/
def store (ptr : Option Nat) (value : Stored) : Call Unit where
  run t :=
    match ptr with
    | none => (.error (.fault .nullDeref), t)
    | some loc => (.ok (), { t with stores := t.stores ++ [(loc, value)] })

/-! ## Devices -/

/-- `esp_hid_transport_t`. -/
inductive HidTransport where
  | bt
  | ble
  | usb
  | max
  deriving DecidableEq, Repr

/-- `esp_hid_device_config_t`. -/
structure DeviceConfig where
  vendorId : UInt16
  productId : UInt16
  version : UInt16
  deviceName : Option Buf
  manufacturerName : Option Buf
  serialNumber : Option Buf
  reportMaps : Option (List RawReportMap)
  reportMapsLen : UInt8
  deriving DecidableEq, Repr

/-- `esp_hidh_dev_t`, with what else the public functions read: `callbacks` tells whether `close`,
`report_write`, `report_read` and `dump` are those of `nimble_hidh.c`, and the callbacks that a
transport may leave out are given by what they return. -/
structure HidhDev extends Dev where
  transport : HidTransport := .ble
  usage : EspHidUsage := .generic
  mutex : Bool := true
  setReport : Option (Nat → Nat → Int → List UInt8 → Int) := none
  getIdle : Option Int := none
  setIdle : Option (UInt8 → Int) := none
  getProtocol : Option Int := none
  setProtocol : Option (UInt8 → Int) := none

def HidhDev.config (dev : HidhDev) : DeviceConfig where
  vendorId := dev.vendorId
  productId := dev.productId
  version := dev.version
  deviceName := dev.deviceName
  manufacturerName := dev.manufacturerName
  serialNumber := dev.serialNumber
  reportMaps := dev.reportMaps
  reportMapsLen := dev.reportMapsLen

/-- How `ble_gattc_read_long` goes: it is turned down at once, or `nimble_on_read` is called for the parts
of the value, and then for its end or for an error. The end comes after a part, if an empty one. -/
inductive ReadAnswer where
  | refused (rc : Int)
  | done (part : List UInt8) (parts : List (List UInt8))
  | failed (parts : List (List UInt8)) (status : Int)
  deriving DecidableEq, Repr

/-- What the NimBLE host and the allocator answer. -/
structure Stack where
  terminate : UInt16 → UInt8 → Int
  writeFlat : UInt16 → UInt16 → List UInt8 → Int
  readLong : UInt16 → UInt16 → ReadAnswer
  malloc : Nat → Bool

/-- The memory behind handles and the device list: what is listed is alive. `cbSemaphore` tells of a
token that is there before the call, and `early` how often `nimble_on_read` is called before a wait takes
it. -/
structure Api where
  mem : DevId → Option HidhDev
  devices : List DevId
  live : ∀ d ∈ devices, (mem d).isSome = true
  stack : Stack
  cbSemaphore : Bool := false
  readStatus : Int := 0
  early : Nat := 0

def espOk : Int := 0
def espFail : Int := -1
def espErrNotSupported : Int := 0x106

section Functions

variable (w : Api) (dev : Option DevId)

/-- Reads through a handle. -/
def use : Call HidhDev where
  run t :=
    match dev with
    | none => (.error (.fault .nullDeref), { t with uses := t.uses ++ [none] })
    | some d =>
      match w.mem d with
      | none => (.error (.fault .useAfterFree), { t with uses := t.uses ++ [some d] })
      | some rec => (.ok rec, { t with uses := t.uses ++ [some d] })

/-- `esp_hidh_dev_exists`. -/
def espHidhDevExists : Call Bool :=
  match dev with
  | none => pure false
  | some d => do
    take .devices
    let found := w.devices.any (· == d)
    give .devices
    return found

/-- `esp_hidh_dev_lock`. -/
def espHidhDevLock : Call Unit :=
  match dev with
  | none => pure ()
  | some d => do
    let rec ← use w dev
    if rec.mutex then take (.device d)

/-- `esp_hidh_dev_unlock`. -/
def espHidhDevUnlock : Call Unit :=
  match dev with
  | none => pure ()
  | some d => do
    let rec ← use w dev
    if rec.mutex then give (.device d)

/-- What nearly all of the functions do: look the handle up, and act on the locked device. -/
def guarded {α : Type} (fail : α) (act : Call α) : Call α := do
  if ← espHidhDevExists w dev then
    espHidhDevLock w dev
    let ret ← act
    espHidhDevUnlock w dev
    return ret
  else
    return fail

/-- Calls one of the four callbacks of the BLE transport. -/
def callback {α : Type} (body : HidhDev → Call α) : Call α := do
  let rec ← use w dev
  if rec.callbacks then body rec else Call.stop (.fault .nullDeref)

/-! ## The BLE transport -/

/-- `esp_hidh_dev_get_report_by_id_and_type`. -/
def espHidhDevGetReportByIdAndType (rec : HidhDev) (mapIndex reportId : Nat) (reportType : Int) :
    Option DevReport :=
  rec.reports.find? fun r => r.mapIndex.toNat == mapIndex && r.reportId.toNat == reportId &&
    (r.reportType.toNat : Int) == reportType && r.protocolMode == ProtocolMode.report

/-- `esp_ble_hidh_dev_close`. -/
def espBleHidhDevClose (rec : HidhDev) : Call Int :=
  pure (w.stack.terminate (.ofInt rec.connId) 0x13)

/-- `esp_ble_hidh_dev_report_write`. `WAIT_CB` comes back for the callback of an accepted write, or
for what was in the semaphore. -/
def espBleHidhDevReportWrite (mapIndex reportId : Nat) (reportType : UInt8) (value : List UInt8)
    (rec : HidhDev) : Call Int :=
  match espHidhDevGetReportByIdAndType rec mapIndex reportId reportType.toNat with
  | none => pure espFail
  | some report =>
    if report.valueLen < value.length then
      pure espFail
    else
      let rc := w.stack.writeFlat (.ofInt rec.connId) report.handle value
      if rc = 0 ∨ w.cbSemaphore = true then pure rc else Call.stop .blocked

/-- What has arrived after `early` calls of `nimble_on_read`, all of which brought a part. -/
def receivedEarly (parts : List (List UInt8)) : Except Int (List UInt8) :=
  if w.early = 0 ∧ w.readStatus ≠ 0 then .error w.readStatus else .ok (parts.take w.early).flatten

/-- What the `WAIT_CB` of an accepted read comes back to; `none` where it does not come back.
`nimble_on_read` gives the semaphore at the end of the value only, and an error leaves it as it was. -/
def received : ReadAnswer → Option (Except Int (List UInt8))
  | .refused rc => some (.error rc)
  | .done part parts =>
    if w.cbSemaphore = true ∧ w.early ≤ (part :: parts).length then
      some (receivedEarly w (part :: parts))
    else
      some (.ok (part :: parts).flatten)
  | .failed parts status =>
    if w.cbSemaphore = true then
      if w.early ≤ parts.length then some (receivedEarly w parts) else some (.error status)
    else
      none

/-- `read_char`. -/
def readChar (connHandle handle : UInt16) : Call (Except Int (List UInt8)) :=
  match received w (w.stack.readLong connHandle handle) with
  | some result => pure result
  | none => Call.stop .blocked

/-- `memcpy` to an output buffer touches it only where there is something to copy. -/
def memcpyOut (value : Option Nat) (bytes : List UInt8) : Call Unit :=
  if bytes = [] then pure () else store value (.bytes bytes)

/-- `esp_ble_hidh_dev_report_read`. -/
def espBleHidhDevReportRead (mapIndex reportId : Nat) (reportType : Int) (maxLength : Nat)
    (value valueLen : Option Nat) (rec : HidhDev) : Call Int :=
  match espHidhDevGetReportByIdAndType rec mapIndex reportId reportType with
  | none => pure espFail
  | some report => do
    match ← readChar w (.ofInt rec.connId) report.handle with
    | .error _ => return espFail
    | .ok data =>
      let len := min data.length maxLength
      store valueLen (.size len)
      memcpyOut value (data.take len)
      return espOk

/-- `esp_ble_hidh_dev_dump` goes through `report_maps` as far as `report_maps_len` says. -/
def espBleHidhDevDump (rec : HidhDev) : Call Unit :=
  if rec.reportMapsLen = 0 then
    pure ()
  else
    match rec.reportMaps with
    | none => Call.stop (.fault .nullDeref)
    | some maps =>
      if maps.length < rec.reportMapsLen.toNat then Call.stop (.fault .outOfBounds) else pure ()

/-! ## Operations -/

def espHidhDevClose : Call Int :=
  guarded w dev espFail (callback w dev (espBleHidhDevClose w))

/-- It is left to the component to free its devices. -/
def espHidhDevFree : Call Int := pure espOk

def espHidhDevDump : Call Unit :=
  guarded w dev () (callback w dev espBleHidhDevDump)

def espHidhDevOutputSet (mapIndex reportId : Nat) (value : List UInt8) : Call Int :=
  guarded w dev espFail
    (callback w dev (espBleHidhDevReportWrite w mapIndex reportId ReportType.output value))

def espHidhDevFeatureSet (mapIndex reportId : Nat) (value : List UInt8) : Call Int :=
  guarded w dev espFail
    (callback w dev (espBleHidhDevReportWrite w mapIndex reportId ReportType.feature value))

def espHidhDevFeatureGet (mapIndex reportId maxLength : Nat) (value valueLen : Option Nat) : Call Int :=
  guarded w dev espFail (callback w dev
    (espBleHidhDevReportRead w mapIndex reportId ReportType.feature.toNat maxLength value valueLen))

def espHidhDevGetReport (mapIndex reportId : Nat) (reportType : Int) (maxLen : Nat) : Call Int :=
  guarded w dev espFail (callback w dev
    (espBleHidhDevReportRead w mapIndex reportId reportType maxLen none none))

/-- Calls a callback that may be missing. -/
def optional (field : HidhDev → Option Int) : Call Int :=
  guarded w dev espFail do
    let rec ← use w dev
    match field rec with
    | some ret => return ret
    | none => return espErrNotSupported

def espHidhDevSetReport (mapIndex reportId : Nat) (reportType : Int) (data : List UInt8) : Call Int :=
  optional w dev fun rec => rec.setReport.map fun call => call mapIndex reportId reportType data

def espHidhDevGetIdle : Call Int := optional w dev (·.getIdle)

def espHidhDevSetIdle (idleTime : UInt8) : Call Int :=
  optional w dev fun rec => rec.setIdle.map fun call => call idleTime

def espHidhDevGetProtocol : Call Int := optional w dev (·.getProtocol)

def espHidhDevSetProtocol (protocolMode : UInt8) : Call Int :=
  optional w dev fun rec => rec.setProtocol.map fun call => call protocolMode

/-! ## Getters -/

/-- Returns a field of the device. -/
def getter {α : Type} (fail : α) (field : HidhDev → α) : Call α :=
  guarded w dev fail do
    let rec ← use w dev
    return field rec

/-- A string of the configuration, the empty one in place of `NULL`. -/
def orEmpty (name : Option Buf) : List UInt8 := (name.map (·.bytes)).getD []

def espHidhDevBdaGet : Call (Option Bda) := getter w dev none fun rec => some rec.bda

def espHidhDevTransportGet : Call HidTransport := getter w dev .max (·.transport)

def espHidhDevConfigGet : Call (Option DeviceConfig) := getter w dev none fun rec => some rec.config

def espHidhDevNameGet : Call (Option (List UInt8)) :=
  getter w dev none fun rec => some (orEmpty rec.deviceName)

def espHidhDevManufacturerGet : Call (Option (List UInt8)) :=
  getter w dev none fun rec => some (orEmpty rec.manufacturerName)

def espHidhDevSerialGet : Call (Option (List UInt8)) :=
  getter w dev none fun rec => some (orEmpty rec.serialNumber)

def espHidhDevVendorIdGet : Call UInt16 := getter w dev 0 (·.vendorId)

def espHidhDevProductIdGet : Call UInt16 := getter w dev 0 (·.productId)

/-- The condition is negated here, and nowhere else. -/
def espHidhDevVersionGet : Call UInt16 := do
  if !(← espHidhDevExists w dev) then
    espHidhDevLock w dev
    let rec ← use w dev
    espHidhDevUnlock w dev
    return rec.version
  else
    return 0

def espHidhDevUsageGet : Call EspHidUsage := getter w dev .generic (·.usage)

def itemOf (dr : DevReport) : EspHidReportItem where
  mapIndex := dr.mapIndex
  reportId := dr.reportId
  reportType := dr.reportType
  protocolMode := dr.protocolMode
  usage := dr.usage
  valueLen := dr.valueLen.toUInt16

/-- The loop of `esp_hidh_dev_reports_get`, whose counter is a byte; `none` for the `goto`. -/
def copyReports (reportsLen : Nat) :
    UInt8 → List DevReport → List (Option EspHidReportItem) → Option (List (Option EspHidReportItem))
  | i, [], r => if i.toNat < reportsLen then none else some r
  | i, dr :: rest, r =>
    if i.toNat < reportsLen then
      copyReports reportsLen (i + 1) rest (r.set i.toNat (some (itemOf dr)))
    else
      some r

/-- The body of `esp_hidh_dev_reports_get`. `reports_len` is the length of the list everywhere. -/
def reportsGetBody (numReports reports : Option Nat) : Call Int := do
  let rec ← use w dev
  if w.stack.malloc rec.reports.length then
    match copyReports rec.reports.length 0 rec.reports (List.replicate rec.reports.length none) with
    | none => return espFail
    | some r =>
      store reports (.reports r)
      store numReports (.size rec.reports.length)
      return espOk
  else
    return espFail

def espHidhDevReportsGet (numReports reports : Option Nat) : Call Int :=
  guarded w dev espFail (reportsGetBody w dev numReports reports)

def espHidhDevReportMapsGet (numMaps maps : Option Nat) : Call Int :=
  guarded w dev espFail do
    let rec ← use w dev
    store numMaps (.size rec.reportMapsLen.toNat)
    store maps (.maps rec.reportMaps)
    return espOk

end Functions

end BleKbdHost.Handles
