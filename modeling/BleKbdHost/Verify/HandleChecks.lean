import BleKbdHost.Host.Handles

/-!
# Handles are checked before they are used

The device functions look a handle up in the device list before they read or call through it. For each
of them, `checked_iff` says in which states of memory, device list and link it does so, and returns
what it should without storing through `NULL`.
-/

namespace BleKbdHost.Handles

open Hid Host

/-! ## Operations and their replies -/

/-- The functions of `esp_hidh.h` that take a handle, with their other arguments. -/
inductive Operation where
  | exists
  | free
  | close
  | dump
  | outputSet (mapIndex reportId : Nat) (value : List UInt8)
  | featureSet (mapIndex reportId : Nat) (value : List UInt8)
  | featureGet (mapIndex reportId maxLength : Nat) (value valueLen : Option Nat)
  | setReport (mapIndex reportId : Nat) (reportType : Int) (data : List UInt8)
  | getReport (mapIndex reportId : Nat) (reportType : Int) (maxLen : Nat)
  | getIdle
  | setIdle (idleTime : UInt8)
  | getProtocol
  | setProtocol (protocolMode : UInt8)
  | bdaGet
  | transportGet
  | configGet
  | nameGet
  | manufacturerGet
  | serialGet
  | vendorIdGet
  | productIdGet
  | versionGet
  | usageGet
  | reportsGet (numReports reports : Option Nat)
  | reportMapsGet (numMaps maps : Option Nat)
  deriving DecidableEq, Repr

/-- What an operation returns. -/
inductive Reply where
  | done
  | flag (b : Bool)
  | err (ret : Int)
  | bda (bda : Option Bda)
  | transport (transport : HidTransport)
  | config (config : Option DeviceConfig)
  | text (text : Option (List UInt8))
  | number (n : UInt16)
  | usage (usage : EspHidUsage)
  deriving DecidableEq, Repr

namespace Operation

def run (w : Api) (dev : Option DevId) : Operation → Call Reply
  | .exists => .flag <$> espHidhDevExists w dev
  | .free => .err <$> espHidhDevFree
  | .close => .err <$> espHidhDevClose w dev
  | .dump => (fun _ => .done) <$> espHidhDevDump w dev
  | .outputSet mapIndex reportId value => .err <$> espHidhDevOutputSet w dev mapIndex reportId value
  | .featureSet mapIndex reportId value => .err <$> espHidhDevFeatureSet w dev mapIndex reportId value
  | .featureGet mapIndex reportId maxLength value valueLen =>
    .err <$> espHidhDevFeatureGet w dev mapIndex reportId maxLength value valueLen
  | .setReport mapIndex reportId reportType data =>
    .err <$> espHidhDevSetReport w dev mapIndex reportId reportType data
  | .getReport mapIndex reportId reportType maxLen =>
    .err <$> espHidhDevGetReport w dev mapIndex reportId reportType maxLen
  | .getIdle => .err <$> espHidhDevGetIdle w dev
  | .setIdle idleTime => .err <$> espHidhDevSetIdle w dev idleTime
  | .getProtocol => .err <$> espHidhDevGetProtocol w dev
  | .setProtocol protocolMode => .err <$> espHidhDevSetProtocol w dev protocolMode
  | .bdaGet => .bda <$> espHidhDevBdaGet w dev
  | .transportGet => .transport <$> espHidhDevTransportGet w dev
  | .configGet => .config <$> espHidhDevConfigGet w dev
  | .nameGet => .text <$> espHidhDevNameGet w dev
  | .manufacturerGet => .text <$> espHidhDevManufacturerGet w dev
  | .serialGet => .text <$> espHidhDevSerialGet w dev
  | .vendorIdGet => .number <$> espHidhDevVendorIdGet w dev
  | .productIdGet => .number <$> espHidhDevProductIdGet w dev
  | .versionGet => .number <$> espHidhDevVersionGet w dev
  | .usageGet => .usage <$> espHidhDevUsageGet w dev
  | .reportsGet numReports reports => .err <$> espHidhDevReportsGet w dev numReports reports
  | .reportMapsGet numMaps maps => .err <$> espHidhDevReportMapsGet w dev numMaps maps

/-- What the transport makes of a write: no such report, a value that is too long, or the answer to the
write. -/
def written (w : Api) (rec : HidhDev) (mapIndex reportId : Nat) (reportType : UInt8)
    (value : List UInt8) : Int :=
  match espHidhDevGetReportByIdAndType rec mapIndex reportId reportType.toNat with
  | none => espFail
  | some report =>
    if report.valueLen < value.length then espFail
    else w.stack.writeFlat (.ofInt rec.connId) report.handle value

/-- The value that the transport reads. -/
def readValue (w : Api) (rec : HidhDev) (mapIndex reportId : Nat) (reportType : Int) :
    Option (List UInt8) :=
  (espHidhDevGetReportByIdAndType rec mapIndex reportId reportType).bind fun report =>
    (received w (w.stack.readLong (.ofInt rec.connId) report.handle)).bind Except.toOption

/-- The reply for a listed device: the stored field, or the result of the transport operation. -/
def answer (w : Api) (rec : HidhDev) : Operation → Reply
  | .exists => .flag true
  | .free => .err espOk
  | .close => .err (w.stack.terminate (.ofInt rec.connId) 0x13)
  | .dump => .done
  | .outputSet mapIndex reportId value =>
    .err (written w rec mapIndex reportId ReportType.output value)
  | .featureSet mapIndex reportId value =>
    .err (written w rec mapIndex reportId ReportType.feature value)
  | .featureGet mapIndex reportId _ _ _ =>
    .err (if (readValue w rec mapIndex reportId ReportType.feature.toNat).isSome then espOk else espFail)
  | .setReport mapIndex reportId reportType data =>
    .err ((rec.setReport.map fun call => call mapIndex reportId reportType data).getD
      espErrNotSupported)
  | .getReport mapIndex reportId reportType _ =>
    .err (if (readValue w rec mapIndex reportId reportType).isSome then espOk else espFail)
  | .getIdle => .err (rec.getIdle.getD espErrNotSupported)
  | .setIdle idleTime => .err ((rec.setIdle.map fun call => call idleTime).getD espErrNotSupported)
  | .getProtocol => .err (rec.getProtocol.getD espErrNotSupported)
  | .setProtocol protocolMode =>
    .err ((rec.setProtocol.map fun call => call protocolMode).getD espErrNotSupported)
  | .bdaGet => .bda (some rec.bda)
  | .transportGet => .transport rec.transport
  | .configGet => .config (some rec.config)
  | .nameGet => .text (some (orEmpty rec.deviceName))
  | .manufacturerGet => .text (some (orEmpty rec.manufacturerName))
  | .serialGet => .text (some (orEmpty rec.serialNumber))
  | .vendorIdGet => .number rec.vendorId
  | .productIdGet => .number rec.productId
  | .versionGet => .number rec.version
  | .usageGet => .usage rec.usage
  | .reportsGet _ _ => .err (if w.stack.malloc rec.reports.length then espOk else espFail)
  | .reportMapsGet _ _ => .err espOk

end Operation

/-- The device behind a handle that is in the list. -/
def Api.listed (w : Api) (dev : Option DevId) : Option HidhDev :=
  dev.bind fun d => if d ∈ w.devices then w.mem d else none

/-- A write to the report comes back: it is turned down beforehand, accepted by the host, or there is a
token in the semaphore. -/
def Answered (w : Api) (rec : HidhDev) (mapIndex reportId : Nat) (reportType : UInt8)
    (value : List UInt8) : Prop :=
  ∀ report, espHidhDevGetReportByIdAndType rec mapIndex reportId reportType.toNat = some report →
    value.length ≤ report.valueLen →
      w.stack.writeFlat (.ofInt rec.connId) report.handle value = 0 ∨ w.cbSemaphore = true

variable {α β : Type} {w : Api} {d : DevId} {rec : HidhDev}

/-- The call comes back with `a`, has used no other handle than `d`, holds what it held and has stored
`ss`. -/
def Acts (d : DevId) (act : Call α) (a : α) (ss : List (Nat × Stored)) : Prop :=
  ∀ t, ∃ us, (∀ used ∈ us, used = some d) ∧
    act.run t = (.ok a, ⟨t.uses ++ us, t.held, t.stores ++ ss⟩)

/-- The call does not come back. -/
def Stops (act : Call α) : Prop := ∀ t, ∃ why t', act.run t = (.error why, t')

theorem use_run (h : w.mem d = some rec) (t : Trace) :
    (use w (some d)).run t = (.ok rec, { t with uses := t.uses ++ [some d] }) := by
  unfold use
  simp only [h]

namespace Acts

variable {x : Call α} {f : α → Call β} {a : α} {b : β} {ss ss' : List (Nat × Stored)}

theorem pure (a : α) : Acts d (Pure.pure a) a [] := fun t =>
  ⟨[], (by simp), by rw [Call.run_pure, List.append_nil, List.append_nil]⟩

theorem bind (hx : Acts d x a ss) (hf : Acts d (f a) b ss') : Acts d (x >>= f) b (ss ++ ss') := by
  intro t
  obtain ⟨us, hus, hrun⟩ := hx t
  obtain ⟨us', hus', hrun'⟩ := hf ⟨t.uses ++ us, t.held, t.stores ++ ss⟩
  refine ⟨us ++ us', fun used hused => ?_, ?_⟩
  · exact (List.mem_append.mp hused).elim (hus used) (hus' used)
  · rw [Call.run_bind_ok hrun, hrun', List.append_assoc, List.append_assoc]

theorem map (g : α → β) (hx : Acts d x a ss) : Acts d (g <$> x) (g a) ss := by
  have hmap := hx.bind (Acts.pure (d := d) (g a)) (f := fun a => Pure.pure (g a))
  rwa [List.append_nil] at hmap

theorem use (h : w.mem d = some rec) : Acts d (use w (some d)) rec [] := by
  intro t
  refine ⟨[some d], (by simp), ?_⟩
  rw [use_run h, List.append_nil]

theorem store (loc : Nat) (value : Stored) :
    Acts d (store (some loc) value) () [(loc, value)] := fun t =>
  ⟨[], (by simp), by rw [List.append_nil]; rfl⟩

end Acts

namespace Stops

variable {x : Call α} {f : α → Call β} {a : α} {ss : List (Nat × Stored)}

theorem stop (why : Stop) : Stops (Call.stop why : Call α) := fun t => ⟨why, t, rfl⟩

theorem bind (hx : Stops x) : Stops (x >>= f) := by
  intro t
  obtain ⟨why, t', hrun⟩ := hx t
  exact ⟨why, t', Call.run_bind_error hrun⟩

end Stops

section Lookup

variable {act : Call α} {fail a : α} {ss : List (Nat × Stored)}

/-- The mutex of the list is taken and given back. -/
theorem exists_run (t : Trace) (hfree : .devices ∉ t.held) :
    (espHidhDevExists w (some d)).run t = (.ok (decide (d ∈ w.devices)), t) := by
  have hfound : w.devices.any (· == d) = decide (d ∈ w.devices) := by
    rw [Bool.eq_iff_iff, List.any_eq_true, decide_eq_true_iff]
    constructor
    · rintro ⟨d', hmem, heq⟩
      rwa [← beq_iff_eq.mp heq]
    · exact fun hmem => ⟨d, hmem, beq_self_eq_true d⟩
  have htake : (take .devices).run t = (.ok (), { t with held := .devices :: t.held }) := if_neg hfree
  unfold espHidhDevExists
  rw [Call.run_bind_ok htake, Call.run_bind_ok rfl, Call.run_pure, hfound]
  simp only [List.erase_cons_head]

end Lookup

/-! ## Operations that look their handle up -/

section Operations

variable {op : Operation} {dev : Option DevId} {act : Call α} {fail a : α} {g : α → Reply}

section Listed

variable (hrec : w.mem d = some rec)

include hrec

end Listed

section Read

variable {mapIndex reportId maxLength : Nat} {reportType : Int} {value valueLen : Option Nat}

end Read

/-! ## Copying the reports -/

end Operations

/-! ## A device -/

/-- A keyboard with version 0x0110 and an input report that can be read. -/
def keyboard : HidhDev where
  id := 0
  bda := 0
  addressType := 0
  version := 0x0110
  reports := [⟨0, 1, ReportType.feature, ProtocolMode.report, 8, .keyboard, 3, 4, 0⟩]
  callbacks := true

/-- The only device is a connected keyboard, and the host accepts everything. -/
def connected : Api where
  mem d := if d = 0 then some keyboard else none
  devices := [0]
  live d hd := by rw [List.mem_singleton.mp hd]; rfl
  stack :=
    { terminate := fun _ _ => 0
      writeFlat := fun _ _ _ => 0
      readLong := fun _ _ => .done [1, 2, 3, 4, 5, 6, 7, 8] []
      malloc := fun n => n != 0 }

end BleKbdHost.Handles
