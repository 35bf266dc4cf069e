import BleKbdHost.Host.Callbacks

/-!
# Discovery and subscription

`read_device_services` and `attach_report_listeners` of `nimble_hidh.c`, as tasks. The local
variables that live across the loops of `read_device_services` are the fields of `DiscVars`.
-/

namespace BleKbdHost.Host

open Hid Keys Conc

/-- A piece of the main task. -/
abbrev Prog (α : Type) : Type := Task Op Choice Sys α

/-! ## UUIDs and flags -/

namespace Uuid

def gap : UInt16 := 0x1800
def dis : UInt16 := 0x180A
def bas : UInt16 := 0x180F
def hid : UInt16 := 0x1812
def deviceName : UInt16 := 0x2A00
def batteryLevel : UInt16 := 0x2A19
def bootKbdInp : UInt16 := 0x2A22
def serialNumber : UInt16 := 0x2A25
def manufacturerName : UInt16 := 0x2A29
def bootKbdOut : UInt16 := 0x2A32
def bootMouseInp : UInt16 := 0x2A33
def reportMap : UInt16 := 0x2A4B
def rpt : UInt16 := 0x2A4D
def protocolMode : UInt16 := 0x2A4E
def pnpId : UInt16 := 0x2A50
def cltCfg : UInt16 := 0x2902
def rptRef : UInt16 := 0x2908

end Uuid

/-- `BLE_GATT_CHR_PROP_READ`. -/
def GattChr.readable (chr : GattChr) : Bool := chr.properties &&& 0x02 != 0

/-- `BLE_GATT_CHR_PROP_NOTIFY`. -/
def canNotify (properties : UInt8) : Bool := properties &&& 0x10 != 0

/-! ## Steps -/

/-- A read of shared variables. -/
def look {α : Type} (f : Sys → α) : Prog α := .ask .look fun _ s => f s

/-- An operation that is a call with a return code. -/
def call (o : Op) : Prog Int := .ask o fun c _ => c.rc

/-- `xTaskGetTickCount`. -/
def xTaskGetTickCount : Prog UInt32 := look (·.ticks)

/-- A field of a device. -/
def lookDev {α : Type} (d : DevId) (dflt : α) (f : Dev → α) : Prog α :=
  .ask (.readDev d) fun _ s => ((s.dev? d).map f).getD dflt

/-- Waits for the terminal callback of a discovery request and asserts its status. -/
def waitDisc : Prog Unit := do
  .perform .waitCb
  .perform .assertStatus

/-! ## Reading values -/

/-- The output parameters `out` and `out_len` of a read. -/
structure ReadVar where
  rdata : Option Buf := none
  rlen : UInt16 := 0
  deriving DecidableEq, Repr

/-- The common body of `read_char` and `read_descr`: a long read, whose output is only written when
it succeeds. -/
def readLongValue (d : DevId) (handle uuid : UInt16) (out : ReadVar) : Prog (Int × ReadVar) := do
  let rc ← call (.readLong d handle uuid)
  if rc ≠ 0 then
    return (rc, out)
  else
    .perform .waitCb
    .ask (.endRead uuid) fun _ s =>
      if s.nimble.readStatus = 0 then (0, ⟨s.nimble.readDataVal, s.nimble.readDataLen⟩)
      else (s.nimble.readStatus, out)

/-- `read_char`. -/
def readChar (d : DevId) (chr : GattChr) (out : ReadVar) : Prog (Int × ReadVar) :=
  readLongValue d chr.valHandle chr.uuid16 out

/-- `read_descr`. -/
def readDescr (d : DevId) (dsc : GattDsc) (out : ReadVar) : Prog (Int × ReadVar) :=
  readLongValue d dsc.handle dsc.uuid16 out

/-- `rdata[i]`; behind the value stands the terminating zero. -/
def ReadVar.byte (v : ReadVar) (i : Nat) : UInt8 := ((v.rdata.map (·.bytes)).getD []).getD i 0

/-- `*((uint16_t *)&rdata[i])`. -/
def ReadVar.half (v : ReadVar) (i : Nat) : UInt16 :=
  (v.byte i).toUInt16 + 256 * (v.byte (i + 1)).toUInt16

/-! ## One characteristic -/

/-- The locals of `read_device_services` that outlive an iteration. -/
structure DiscVars where
  report : Option DevReport := none
  out : ReadVar := {}
  hidindex : UInt8 := 0
  deriving DecidableEq, Repr

/-- How the examination of a characteristic goes on: `return`, `continue`, or its descriptors. -/
inductive ChrNext where
  | stop
  | skip (v : DiscVars)
  | descriptors (v : DiscVars)
  deriving DecidableEq, Repr

/-- The report of a report characteristic, before its descriptors are read. -/
def newReport (chr : GattChr) (hidindex : UInt8) : DevReport :=
  let report : DevReport :=
    { mapIndex := hidindex, reportId := 0, reportType := 0
      protocolMode := ProtocolMode.report, valueLen := 0, usage := .generic
      handle := chr.valHandle, cccHandle := 0, permissions := chr.properties }
  if chr.uuid16 = Uuid.bootKbdInp then
    { report with
      protocolMode := ProtocolMode.boot, reportType := ReportType.input, usage := .keyboard
      valueLen := 8 }
  else if chr.uuid16 = Uuid.bootKbdOut then
    { report with
      protocolMode := ProtocolMode.boot, reportType := ReportType.output, usage := .keyboard
      valueLen := 8 }
  else if chr.uuid16 = Uuid.bootMouseInp then
    { report with
      protocolMode := ProtocolMode.boot, reportType := ReportType.input, usage := .mouse
      valueLen := 8 }
  else report

/-- A value that is stored in the device when it was read and is not empty. -/
def readInto (d : DevId) (chr : GattChr) (v : DiscVars) (field : ReadVar → DevField) :
    Prog DiscVars := do
  let (rc, out) ← readChar d chr v.out
  .when (rc = 0 ∧ out.rlen ≠ 0) (.perform (.setField d (field out)))
  return { v with out := out }

/-- A characteristic of the GAP service. -/
def gapChr (d : DevId) (chr : GattChr) (v : DiscVars) : Prog ChrNext := do
  let named ← lookDev d true (·.deviceName.isSome)
  if !named && chr.uuid16 == Uuid.deviceName && chr.readable then
    return .descriptors (← readInto d chr v fun out => .deviceName out.rdata)
  else
    return .skip v

/-- A characteristic of the battery service. -/
def basChr (d : DevId) (chr : GattChr) (v : DiscVars) : Prog ChrNext := do
  if chr.uuid16 == Uuid.batteryLevel && chr.readable then
    .perform (.setField d (.batteryHandle chr.valHandle))
    return .descriptors v
  else
    return .skip v

/-- The PnP id. `free(rdata)` follows the read whether it succeeded or not. -/
def readPnpId (d : DevId) (chr : GattChr) (v : DiscVars) : Prog ChrNext := do
  let (rc, out) ← readChar d chr v.out
  .when (rc = 0 ∧ out.rlen = 7)
    (.perform (.setField d (.pnpId (out.half 1) (out.half 3) (out.half 5))))
  .perform (.freeBuf out.rdata)
  return .skip { v with out := out }

/-- A characteristic of the device information service. -/
def disChr (d : DevId) (chr : GattChr) (v : DiscVars) : Prog ChrNext := do
  if chr.readable then
    if chr.uuid16 = Uuid.pnpId then
      readPnpId d chr v
    else if chr.uuid16 = Uuid.manufacturerName then
      return .skip (← readInto d chr v fun out => .manufacturerName out.rdata)
    else if chr.uuid16 = Uuid.serialNumber then
      return .skip (← readInto d chr v fun out => .serialNumber out.rdata)
    else
      return .skip v
  else
    return .skip v

/-- A characteristic of a HID service. -/
def hidChr (d : DevId) (chr : GattChr) (v : DiscVars) : Prog ChrNext := do
  if chr.uuid16 = Uuid.protocolMode then
    if chr.readable then
      return .skip (← readInto d chr v fun out => .protocolMode v.hidindex.toNat (out.byte 0))
    else
      return .skip v
  else if chr.uuid16 = Uuid.reportMap then
    if chr.readable then
      return .skip (← readInto d chr v fun out => .reportMap v.hidindex.toNat out.rdata out.rlen)
    else
      return .skip v
  else if chr.uuid16 = Uuid.bootKbdInp ∨ chr.uuid16 = Uuid.bootKbdOut ∨
      chr.uuid16 = Uuid.bootMouseInp ∨ chr.uuid16 = Uuid.rpt then
    let rc ← call .mallocReport
    if rc ≠ 0 then
      return .stop
    else
      return .descriptors { v with report := some (newReport chr v.hidindex) }
  else
    return .skip v

/-- The part of the characteristic loop before the descriptors. -/
def examineChr (d : DevId) (suuid : UInt16) (chr : GattChr) (v : DiscVars) : Prog ChrNext :=
  if suuid = Uuid.gap then gapChr d chr v
  else if suuid = Uuid.bas then basChr d chr v
  else if suuid = Uuid.dis then disChr d chr v
  else hidChr d chr v

/-! ## The descriptors of a characteristic -/

/-- A report reference descriptor. -/
def readReportRef (d : DevId) (dsc : GattDsc) (report : DevReport) (v : DiscVars) :
    Prog DiscVars := do
  let (rc, out) ← readDescr d dsc v.out
  if rc = 0 ∧ out.rlen ≠ 0 then
    .perform (.freeBuf out.rdata)
    return { v with
      out := out
      report := some { report with reportId := out.byte 0, reportType := out.byte 1 } }
  else
    return { v with out := out }

/-- A descriptor of a characteristic that has a report. -/
def reportDsc (d : DevId) (dsc : GattDsc) (report : DevReport) (v : DiscVars) : Prog DiscVars :=
  if dsc.uuid16 = Uuid.cltCfg ∧ canNotify report.permissions then
    return { v with report := some { report with cccHandle := dsc.handle } }
  else if dsc.uuid16 = Uuid.rptRef then
    readReportRef d dsc report v
  else
    return v

/-- One descriptor. -/
def examineDsc (d : DevId) (suuid : UInt16) (chr : GattChr) (dsc : GattDsc) (v : DiscVars) :
    Prog DiscVars := do
  if suuid = Uuid.bas then
    .when (dsc.uuid16 = Uuid.cltCfg ∧ canNotify chr.properties)
      (.perform (.setField d (.batteryCccHandle dsc.handle)))
    return v
  else
    match v.report with
    | some report => if suuid = Uuid.hid then reportDsc d dsc report v else return v
    | none => return v

/-- `descr_result[i]`. -/
def readDsc (i : Nat) : Prog GattDsc :=
  .ask (.readDsc i) fun _ s => (slot s.nimble.descrResult i).toOption.getD ⟨0, 0⟩

/-- The descriptor loop from index `i`, for `n` more descriptors. -/
def dscLoop (d : DevId) (suuid : UInt16) (chr : GattChr) : Nat → Nat → DiscVars → Prog DiscVars
  | 0, _, v => return v
  | n + 1, i, v => do
    let dsc ← readDsc i
    let v ← examineDsc d suuid chr dsc v
    dscLoop d suuid chr n (i + 1) v

/-- A report of a HID service joins the device's reports. -/
def pushReport (d : DevId) (suuid : UInt16) (v : DiscVars) : Prog Unit :=
  match v.report with
  | some report => .when (suuid = Uuid.hid) (.perform (.setField d (.pushReport report)))
  | none => return ()

/-- The descriptor part of the characteristic loop. -/
def chrDescriptors (d : DevId) (suuid : UInt16) (chr : GattChr) (endHandle : UInt16)
    (v : DiscVars) : Prog DiscVars := do
  let rc ← call (.discAllDscs d chr.valHandle endHandle)
  waitDisc
  let dcount ← look (·.nimble.dscsDiscovered)
  let v ← dscLoop d suuid chr (if rc = 0 then dcount % 65536 else 0) 0 v
  pushReport d suuid v
  .perform .resetDscs
  return v

/-! ## The characteristics of a service -/

/-- `char_result[i]`. -/
def readChr (i : Nat) : Prog GattChr :=
  .ask (.readChr i) fun _ s => (slot s.nimble.charResult i).toOption.getD ⟨0, 0, 0, 0⟩

/-- `char_result[i].def_handle`. -/
def readDefHandle (i : Nat) : Prog UInt16 :=
  .ask (.readDefHandle i) fun _ s =>
    ((slot s.nimble.charResult i).toOption.getD ⟨0, 0, 0, 0⟩).defHandle

/-- The first handle behind the descriptors of characteristic `i`, when `n` more follow. -/
def chrEndHandle (svc : GattSvc) (n i : Nat) : Prog UInt16 :=
  if n = 0 then return svc.endHandle else readDefHandle (i + 1)

/-- The characteristic loop from index `i`, for `n` more characteristics; `none` is the `return`
out of the whole discovery. -/
def chrLoop (d : DevId) (svc : GattSvc) : Nat → Nat → DiscVars → Prog (Option DiscVars)
  | 0, _, v => return some v
  | n + 1, i, v => do
    let chr ← readChr i
    match ← examineChr d svc.uuid16 chr v with
    | .stop => return none
    | .skip v => chrLoop d svc n (i + 1) v
    | .descriptors v =>
      let endHandle ← chrEndHandle svc n i
      let v ← chrDescriptors d svc.uuid16 chr endHandle v
      chrLoop d svc n (i + 1) v

/-- One service. -/
def examineSvc (d : DevId) (svc : GattSvc) (v : DiscVars) : Prog (Option DiscVars) := do
  if svc.uuid16 = Uuid.bas ∨ svc.uuid16 = Uuid.dis ∨ svc.uuid16 = Uuid.hid ∨
      svc.uuid16 = Uuid.gap then
    let rc ← call (.discAllChrs d svc.startHandle svc.endHandle)
    waitDisc
    let ccount ← look (·.nimble.chrsDiscovered)
    match ← chrLoop d svc (if rc = 0 then ccount % 65536 else 0) 0 v with
    | none => return none
    | some v =>
      .perform .resetChrs
      if rc = 0 ∧ svc.uuid16 = Uuid.hid then
        return some { v with hidindex := v.hidindex + 1 }
      else
        return some v
  else
    return some v

/-! ## All services -/

/-- `service_result[i]`. -/
def readSvc (i : Nat) : Prog GattSvc :=
  .ask (.readSvc i) fun _ s => (slot s.nimble.serviceResult i).toOption.getD ⟨0, 0, 0⟩

/-- The service loop from index `i`, for `n` more services. -/
def svcLoop (d : DevId) : Nat → Nat → DiscVars → Prog (Option DiscVars)
  | 0, _, v => return some v
  | n + 1, i, v => do
    let svc ← readSvc i
    match ← examineSvc d svc v with
    | none => return none
    | some v => svcLoop d n (i + 1) v

/-- What a report map item says about a report of its service. -/
def matchItem (report : DevReport) (r : EspHidReportItem) : DevReport :=
  if report.protocolMode = ProtocolMode.boot ∧ report.protocolMode = r.protocolMode ∧
      report.reportType = r.reportType ∧ report.usage = r.usage then
    { report with reportId := r.reportId, valueLen := r.valueLen.toNat }
  else if report.protocolMode = r.protocolMode ∧ report.reportType = r.reportType ∧
      report.reportId = r.reportId then
    { report with usage := r.usage, valueLen := r.valueLen.toNat }
  else report

/-- The matching loop over the reports and over the items of map `i`. -/
def matchReports (i : Nat) (map : EspHidReportMap) (reports : List DevReport) : List DevReport :=
  reports.map fun report =>
    if report.mapIndex.toNat = i then map.reports.foldl matchItem report else report

/-- `dev->config.report_maps[i]`. -/
def readReportMap (d : DevId) (i : Nat) : Prog RawReportMap :=
  .ask (.readReportMap d i) fun _ s => (s.reportMap d i).toOption.getD {}

/-- `esp_hid_parse_report_map` on the parser statics of the program. -/
def parseReportMap (data : Option Buf) : Prog (Option EspHidReportMap) :=
  .ask (.parseReportMap data) fun _ s =>
    match data with
    | none => none
    | some buf =>
      match espHidParseReportMap s.nimble.parser buf.bytes with
      | .ok (map, _) => map
      | .error _ => none

/-- The loop over the raw report maps from index `i`, for `n` more. -/
def mapLoop (d : DevId) : Nat → Nat → Prog Unit
  | 0, _ => return ()
  | n + 1, i => do
    let reports ← lookDev d [] (·.reports)
    if reports.isEmpty then
      mapLoop d n (i + 1)
    else
      let raw ← readReportMap d i
      if raw.len = 0 then
        mapLoop d n (i + 1)
      else
        match ← parseReportMap raw.data with
        | none => mapLoop d n (i + 1)
        | some map =>
          let appearance ← lookDev d 0 (·.appearance)
          .when (appearance = 0) (.perform (.setField d (.appearance map.appearance)))
          .perform (.setField d (.reports (matchReports i map reports)))
          mapLoop d n (i + 1)

/-- `read_device_services`. -/
def readDeviceServices (d : DevId) : Prog Unit := do
  let rc ← call (.discAllSvcs d)
  waitDisc
  let dcount ← look (·.nimble.servicesDiscovered)
  if rc = 0 then
    let mapsRc ← call (.mallocReportMaps d)
    if mapsRc ≠ 0 then
      return ()
    else
      let modeRc ← call (.mallocProtocolMode d)
      if modeRc ≠ 0 then
        return ()
      else
        match ← svcLoop d (dcount % 65536) 0 {} with
        | none => return ()
        | some _ =>
          .perform .svcsDone
          let len ← lookDev d 0 (·.reportMapsLen)
          mapLoop d len.toNat 0
  else
    return ()

/-! ## Subscribing -/

/-- `register_for_notify`: a refused request is logged, and waited for all the same. -/
def registerForNotify (conn handle : UInt16) : Prog Unit := do
  .perform (.writeFlat conn handle [1, 0])
  .perform .waitCb

/-- `write_char_descr`. -/
def writeCharDescr (conn handle : UInt16) (value : List UInt8) : Prog Unit := do
  .perform (.writeFlat conn handle value)
  .perform .waitCb

/-- `dev->ble.conn_id` as an argument. -/
def readConnHandle (d : DevId) : Prog UInt16 := .ask (.readDev d) fun _ s => s.connHandle d

/-- Subscribes to one characteristic and writes its client configuration if it has one. -/
def subscribe (d : DevId) (handle cccHandle : UInt16) : Prog Unit := do
  let conn ← readConnHandle d
  registerForNotify conn handle
  .when (cccHandle ≠ 0) do
    let conn ← readConnHandle d
    writeCharDescr conn cccHandle [1, 0]

/-- The report loop of `attach_report_listeners`. -/
def subscribeReports (d : DevId) : List DevReport → Prog Unit
  | [] => return ()
  | report :: reports => do
    .when (canNotify report.permissions ∧ report.protocolMode = ProtocolMode.report)
      (subscribe d report.handle report.cccHandle)
    subscribeReports d reports

/-- `attach_report_listeners`. -/
def attachReportListeners (d : DevId) : Prog Unit := do
  let (reports, battery, batteryCcc) ←
    lookDev d ([], 0, 0) fun dev => (dev.reports, dev.batteryHandle, dev.batteryCccHandle)
  .when (battery ≠ 0) (subscribe d battery batteryCcc)
  subscribeReports d reports

end BleKbdHost.Host
