import BleKbdHost.Conc.Along
import BleKbdHost.Host.MainTask

/-!
# What the functions perform

A few operations are performed by a single block of the main task: starting the scan, copying the
selected entry and reconnecting a remembered device. All other functions are `Common`: they perform
none of these, and write nothing to a peer but the value that enables notifications.
-/

namespace BleKbdHost.Host

open Hid Keys Conc Task

/-- What the other functions may perform. -/
def Op.Common : Op → Prop
  | .gapDisc | .copySelected _ | .reconnectCall _ => False
  | .writeFlat _ _ value => value = [1, 0]
  | _ => True

abbrev Common {α : Type} (t : Prog α) : Prop := t.Only Op.Common

section Functions

variable {α : Type} {d : DevId} {suuid : UInt16} {chr : GattChr} {v : DiscVars}

theorem common_ask {o : Op} {r : Choice → Sys → α} (h : o.Common) : Common (.ask o r) :=
  only_ask.mpr h

theorem common_look (f : Sys → α) : Common (look f) := only_ask.mpr trivial

/-! ## Discovery -/

theorem common_waitDisc : Common waitDisc :=
  .bind (common_ask trivial) fun _ => common_ask trivial

theorem common_readLongValue (handle uuid : UInt16) (out : ReadVar) :
    Common (readLongValue d handle uuid out) :=
  .bind (common_ask trivial) fun _ => .ite trivial <|
    .bind (common_ask trivial) fun _ => common_ask trivial

theorem common_readInto (field : ReadVar → DevField) : Common (readInto d chr v field) :=
  .bind (common_readLongValue _ _ _) fun _ => .bind (.when (common_ask trivial)) fun _ => trivial

theorem common_gapChr : Common (gapChr d chr v) :=
  .bind (common_ask trivial) fun _ => .ite (.bind (common_readInto _) fun _ => trivial) trivial

theorem common_basChr : Common (basChr d chr v) :=
  .ite (.bind (common_ask trivial) fun _ => trivial) trivial

theorem common_readPnpId : Common (readPnpId d chr v) :=
  .bind (common_readLongValue _ _ _) fun _ => .bind (.when (common_ask trivial)) fun _ =>
    .bind (common_ask trivial) fun _ => trivial

theorem common_disChr : Common (disChr d chr v) :=
  .ite (.ite common_readPnpId <| .ite (.bind (common_readInto _) fun _ => trivial) <|
    .ite (.bind (common_readInto _) fun _ => trivial) trivial) trivial

theorem common_hidChr : Common (hidChr d chr v) :=
  .ite (.ite (.bind (common_readInto _) fun _ => trivial) trivial) <|
    .ite (.ite (.bind (common_readInto _) fun _ => trivial) trivial) <|
      .ite (.bind (common_ask trivial) fun _ => .ite trivial trivial) trivial

theorem common_examineChr : Common (examineChr d suuid chr v) :=
  .ite common_gapChr (.ite common_basChr (.ite common_disChr common_hidChr))

theorem common_readReportRef (dsc : GattDsc) (report : DevReport) :
    Common (readReportRef d dsc report v) :=
  .bind (common_readLongValue _ _ _) fun _ =>
    .ite (.bind (common_ask trivial) fun _ => trivial) trivial

theorem common_examineDsc (dsc : GattDsc) : Common (examineDsc d suuid chr dsc v) := by
  refine .ite (.bind (.when (common_ask trivial)) fun _ => trivial) ?_
  split
  · exact .ite (.ite trivial (.ite (common_readReportRef _ _) trivial)) trivial
  · trivial

theorem common_dscLoop (n i : Nat) : Common (dscLoop d suuid chr n i v) := by
  induction n generalizing i v with
  | zero => trivial
  | succ n ih =>
    exact .bind (common_ask trivial) fun _ => .bind (common_examineDsc _) fun _ => ih _

theorem common_pushReport : Common (pushReport d suuid v) := by
  unfold pushReport
  split
  · exact .when (common_ask trivial)
  · trivial

theorem common_chrDescriptors (endHandle : UInt16) :
    Common (chrDescriptors d suuid chr endHandle v) :=
  .bind (common_ask trivial) fun _ => .bind common_waitDisc fun _ => .bind (common_look _) fun _ =>
    .bind (common_dscLoop _ _) fun _ => .bind common_pushReport fun _ =>
      .bind (common_ask trivial) fun _ => trivial

theorem common_chrLoop (svc : GattSvc) (n i : Nat) : Common (chrLoop d svc n i v) := by
  induction n generalizing i v with
  | zero => trivial
  | succ n ih =>
    refine .bind (common_ask trivial) fun chr => .bind common_examineChr fun next => ?_
    cases next with
    | stop => trivial
    | skip v => exact ih _
    | descriptors v =>
      exact .bind (.ite trivial (common_ask trivial)) fun _ =>
        .bind (common_chrDescriptors _) fun _ => ih _

theorem common_examineSvc (svc : GattSvc) : Common (examineSvc d svc v) := by
  refine .ite (.bind (common_ask trivial) fun _ => .bind common_waitDisc fun _ =>
    .bind (common_look _) fun _ => .bind (common_chrLoop _ _ _) fun v? => ?_) trivial
  cases v? with
  | none => trivial
  | some v => exact .bind (common_ask trivial) fun _ => .ite trivial trivial

theorem common_svcLoop (n i : Nat) : Common (svcLoop d n i v) := by
  induction n generalizing i v with
  | zero => trivial
  | succ n ih =>
    refine .bind (common_ask trivial) fun svc => .bind (common_examineSvc svc) fun v? => ?_
    cases v? with
    | none => trivial
    | some v => exact ih _

theorem common_mapLoop (n i : Nat) : Common (mapLoop d n i) := by
  induction n generalizing i with
  | zero => trivial
  | succ n ih =>
    refine .bind (common_ask trivial) fun _ => .ite (ih _) <| .bind (common_ask trivial) fun _ =>
      .ite (ih _) <| .bind (common_ask trivial) fun map? => ?_
    cases map? with
    | none => exact ih _
    | some map =>
      exact .bind (common_ask trivial) fun _ => .bind (.when (common_ask trivial)) fun _ =>
        .bind (common_ask trivial) fun _ => ih _

theorem common_readDeviceServices : Common (readDeviceServices d) := by
  refine .bind (common_ask trivial) fun _ => .bind common_waitDisc fun _ =>
    .bind (common_look _) fun _ => .ite (.bind (common_ask trivial) fun _ => .ite trivial <|
      .bind (common_ask trivial) fun _ => .ite trivial <|
        .bind (common_svcLoop _ _) fun v? => ?_) trivial
  cases v? with
  | none => trivial
  | some v =>
    exact .bind (common_ask trivial) fun _ => .bind (common_ask trivial) fun _ => common_mapLoop _ _

/-! ## The transport calls -/

theorem common_subscribe (handle cccHandle : UInt16) : Common (subscribe d handle cccHandle) :=
  .bind (common_ask trivial) fun _ =>
    .bind (.bind (common_ask rfl) fun _ => common_ask trivial) fun _ =>
      .when (.bind (common_ask trivial) fun _ => .bind (common_ask rfl) fun _ => common_ask trivial)

theorem common_subscribeReports (reports : List DevReport) :
    Common (subscribeReports d reports) := by
  induction reports with
  | nil => trivial
  | cons report reports ih => exact .bind (.when (common_subscribe _ _)) fun _ => ih

theorem common_attachReportListeners : Common (attachReportListeners d) :=
  .bind (common_ask trivial) fun _ => .bind (.when (common_subscribe _ _)) fun _ =>
    common_subscribeReports _

theorem common_initiateSecurity : Common (initiateSecurity d) :=
  .bind (common_ask trivial) fun _ => .bind (common_look _) fun _ => .bind (common_look _) fun _ =>
    .when (common_ask trivial)

theorem common_drainSemaphores : Common drainSemaphores :=
  .bind (common_ask trivial) fun _ => common_ask trivial

theorem common_waitForLink (kind : CallKind) : Common (waitForLink kind d) :=
  .bind (common_ask trivial) fun _ => .bind (common_ask trivial) fun _ => trivial

theorem common_openLinked : Common (openLinked d) :=
  .bind (common_ask trivial) fun _ => .bind common_initiateSecurity fun _ =>
    .bind common_readDeviceServices fun _ => .bind (common_ask trivial) fun _ =>
      .bind (common_ask trivial) fun _ => .bind common_attachReportListeners fun _ => trivial

theorem common_devFree : Common ((.perform (.devFree d) : Prog Unit) >>= fun _ =>
    (pure none : Prog (Option DevId))) :=
  .bind (common_ask trivial) fun _ => trivial

theorem common_openAllocated : Common (openAllocated d) :=
  .bind common_drainSemaphores fun _ => .bind (common_ask trivial) fun _ =>
    .ite (.bind (common_waitForLink _) fun _ => .ite common_openLinked common_devFree) common_devFree

theorem common_espBleHidhDevOpen (bda : Bda) (addrType : UInt8) :
    Common (espBleHidhDevOpen bda addrType) := by
  refine .bind (common_ask trivial) fun d? => ?_
  cases d? with
  | none => trivial
  | some d => exact common_openAllocated

theorem common_espHidhDevOpen (site : OpenSite) (bda : Bda) (addrType : UInt8) :
    Common (espHidhDevOpen site bda addrType) :=
  .bind (common_ask trivial) fun _ =>
    .bind (.ite trivial (common_espBleHidhDevOpen _ _)) fun _ =>
      .bind (common_ask trivial) fun _ => trivial

theorem common_reconnectInUse : Common (reconnectInUse d) :=
  .bind common_drainSemaphores fun _ => .bind (common_ask trivial) fun _ =>
    .ite (.bind (common_waitForLink _) fun _ => .ite
      (.bind common_initiateSecurity fun _ => .bind (common_ask trivial) fun _ =>
        .bind common_attachReportListeners fun _ => .bind (common_ask trivial) fun _ => trivial)
      trivial) trivial

/-! ## The blocks -/

theorem common_xSemaphoreTake (sem : Sem) (ms : Nat) : Common (xSemaphoreTake sem ms) :=
  .bind (common_look _) fun _ => .bind (common_look _) fun _ => common_ask trivial

theorem common_vTaskDelay (ms : Nat) : Common (vTaskDelay ms) :=
  .bind (common_look _) fun _ => .bind (common_look _) fun _ => common_ask trivial

theorem common_xQueueReceive (ticks : UInt32) : Common (xQueueReceive ticks) :=
  .bind (common_look _) fun _ => common_ask trivial

theorem common_setState (st : KbdState) (line1 line2 : Line) :
    Common (setState st line1 line2) :=
  .bind (common_ask trivial) fun _ => common_ask trivial

theorem common_takeConnected : Common takeConnected :=
  .bind (common_ask trivial) fun _ => .bind (.when (common_ask trivial)) fun _ => trivial

theorem common_tryBondedReconnect : Common tryBondedReconnect := by
  refine .bind (common_ask trivial) fun count => .ite trivial <| .bind (common_ask trivial) fun peer => ?_
  cases peer with
  | none => trivial
  | some peer =>
    exact .bind (common_xSemaphoreTake _ _) fun _ => .bind (common_espHidhDevOpen _ _ _) fun _ =>
      .bind (common_look _) fun _ => .bind (common_look _) fun _ => trivial

theorem common_bondedDecide : Common bondedDecide :=
  .bind common_takeConnected fun _ => .ite trivial (.bind (common_ask trivial) fun _ => trivial)

theorem common_connectDecide : Common connectDecide :=
  .bind common_takeConnected fun _ => .ite trivial <| .bind (common_ask trivial) fun _ =>
    .bind (common_vTaskDelay _) fun _ => trivial

theorem common_updateScan (lastUpdate : UInt32) : Common (updateScan lastUpdate) :=
  .bind (common_look _) fun _ => .bind (common_look _) fun _ => .ite
    (.bind (common_ask trivial) fun _ => .bind (common_ask trivial) fun _ => trivial) trivial

theorem common_checkScanTimeout (scanStart lastUpdate : UInt32) :
    Common (checkScanTimeout scanStart lastUpdate) :=
  .bind (common_look _) fun _ => .bind (common_look _) fun _ => .bind (common_look _) fun _ =>
    .bind (common_look _) fun _ => .ite
      (.bind (common_ask trivial) fun _ => .bind (common_ask trivial) fun _ =>
        .bind (common_vTaskDelay _) fun _ => .bind (common_ask trivial) fun _ => trivial) trivial

theorem common_scanning (scanStart lastUpdate : UInt32) :
    Common (scanning scanStart lastUpdate) := by
  refine .bind (common_updateScan _) fun _ => .bind (common_look _) fun _ =>
    .bind (common_xQueueReceive _) fun cmd => ?_
  rcases cmd with _ | _ | param
  · exact common_checkScanTimeout _ _
  · exact .bind (common_ask trivial) fun _ => .bind (common_ask trivial) fun _ =>
      .bind (common_ask trivial) fun _ => trivial
  · exact .bind (common_ask trivial) fun _ => .ite trivial (common_checkScanTimeout _ _)

theorem common_connectedRepair : Common connectedRepair := by
  refine .bind (common_xQueueReceive _) fun _ => .bind (common_ask trivial) fun dev => ?_
  cases dev with
  | none => trivial
  | some d =>
    exact .bind (.bind (common_ask trivial) fun _ => .when (common_ask trivial)) fun _ =>
      .bind (.bind (common_look _) fun _ => .bind (common_look _) fun _ => common_ask trivial)
        fun _ => trivial

theorem common_connectedWait : Common connectedWait :=
  .bind (.bind (common_look _) fun _ => .bind (common_look _) fun _ => common_ask trivial) fun _ =>
    .ite (.bind (common_setState _ _ _) fun _ => .bind (common_vTaskDelay _) fun _ => trivial)
      (.bind (common_ask trivial) fun _ => .ite common_connectedRepair trivial)

/-- The blocks with operations of their own. -/
def Label.owns : Label → Bool
  | .restartScan | .selected _ | .tryReconnect => true
  | _ => false

/-- **The other blocks are common.** -/
theorem common_kbdMainTask {l : Label} (hl : l.owns = false) : Common (kbdMainTask l) := by
  cases l with
  | top =>
    exact .bind (common_ask trivial) fun _ => .bind (common_look _) fun _ => .ite
      (.bind (common_setState _ _ _) fun _ => trivial) trivial
  | reconnecting => exact .bind (common_look _) fun _ => trivial
  | waitForStartPairing site deadline =>
    refine .bind (common_look _) fun _ => .bind (common_look _) fun _ =>
      .bind (common_xQueueReceive _) fun cmd => ?_
    rcases cmd with _ | _ | param
    · exact .ite trivial trivial
    · trivial
    · trivial
  | bondedWait deadline =>
    exact .bind (common_ask trivial) fun _ => .ite
      (.bind (common_xSemaphoreTake _ _) fun _ => .ite common_bondedDecide <|
        .bind (common_ask trivial) fun _ => .ite (.bind (common_ask trivial) fun _ => trivial)
          trivial) common_bondedDecide
  | reconnectFailed =>
    exact .bind (common_ask trivial) fun _ => .bind (common_look _) fun _ =>
      .bind (common_look _) fun _ => .bind (common_look _) fun _ => trivial
  | doPair =>
    exact .bind (common_ask trivial) fun _ => .bind (common_ask trivial) fun _ =>
      .bind (common_ask trivial) fun _ => .bind (common_ask trivial) fun _ =>
        .bind (common_setState _ _ _) fun _ => trivial
  | scanning scanStart lastUpdate => exact common_scanning _ _
  | connecting deadline =>
    exact .bind (common_ask trivial) fun _ => .ite
      (.bind (common_xSemaphoreTake _ _) fun _ => .ite common_connectDecide <|
        .bind (common_ask trivial) fun _ => .ite
          (.bind (common_xQueueReceive _) fun _ => .bind (common_ask trivial) fun _ =>
            .bind (common_xSemaphoreTake _ _) fun _ => trivial) trivial) common_connectDecide
  | connected =>
    exact .bind (common_setState _ _ _) fun _ => .bind (common_ask trivial) fun _ =>
      .bind (common_ask trivial) fun _ => trivial
  | connectedWait => exact common_connectedWait
  | restartScan | selected _ | tryReconnect => cases hl

end Functions

end BleKbdHost.Host
