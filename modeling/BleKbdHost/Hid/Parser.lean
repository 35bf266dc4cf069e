import BleKbdHost.Hid.Descriptor

/-!
# The report map parser

`esp_hid_parse_report_map` and what it calls. The file-level variables that survive from one call
to the next are the fields of `ParserStatics`; a call takes them and gives them back. Allocations
succeed.

The accumulator `temp_hid_report_map_t` holds a 64 entry array and a count. `TempHidReportMap`
keeps the written prefix of the array, whose length is the count, together with the bound that
`add_report` maintains.
-/

namespace BleKbdHost.Hid

/-! ## State -/

/-- `s_parse_step_t`. -/
inductive ParseStep
  | waitUsagePage
  | waitUsage
  | waitCollectionApplication
  | waitEndCollection
  deriving DecidableEq, Repr

/-- `hid_report_params_t`. -/
structure HidReportParams where
  usagePage : UInt16 := 0
  usage : UInt16 := 0
  innerUsagePage : UInt16 := 0
  innerUsage : UInt16 := 0
  reportId : UInt8 := 0
  inputLen : UInt16 := 0
  outputLen : UInt16 := 0
  featureLen : UInt16 := 0
  deriving DecidableEq, Repr

/-- `temp_hid_report_map_t`. -/
structure TempHidReportMap where
  usageMask : UInt8
  reports : List EspHidReportItem
  bounded : reports.length ≤ 64
  deriving DecidableEq

/-- A cleared accumulator: what `calloc` and `memset` leave. -/
def TempHidReportMap.empty : TempHidReportMap := ⟨0, [], Nat.zero_le _⟩

/-- `reports_len`. -/
def TempHidReportMap.reportsLen (map : TempHidReportMap) : UInt8 := map.reports.length.toUInt8

/-- The file-level variables of the parser. -/
structure ParserStatics where
  parseStep : ParseStep := .waitUsagePage
  collectionDepth : UInt8 := 0
  reportParams : HidReportParams := {}
  reportSize : UInt16 := 0
  reportCount : UInt16 := 0
  newMap : Bool := false
  tempHidReportMap : Option TempHidReportMap := none
  deriving DecidableEq

/-- The statics as the program starts. -/
def ParserStatics.init : ParserStatics := {}

/-! ## Recording reports -/

/-- `add_report`; `none` is the `-1` return. -/
def addReport (map : TempHidReportMap) (item : EspHidReportItem) : Option TempHidReportMap :=
  if h : map.reports.length < 64 then
    some { map with
      reports := map.reports ++ [item]
      bounded := by rw [List.length_append]; exact h }
  else
    none

/-- The usage class `handle_report` gives a report. -/
def reportUsage (report : HidReportParams) : EspHidUsage :=
  if report.usagePage = HidUsagePage.genericDesktop ∧ report.usage = HidUsage.keyboard then
    .keyboard
  else if report.usagePage = HidUsagePage.genericDesktop ∧ report.usage = HidUsage.mouse then
    .mouse
  else if report.usagePage = HidUsagePage.genericDesktop then
    if report.usage = HidUsage.joystick then .joystick
    else if report.usage = HidUsage.gamepad then .gamepad
    else .generic
  else if report.usagePage = HidUsagePage.consumerDevice ∧
      report.usage = HidUsage.consumerControl then
    .ccontrol
  else if 0xFF ≤ report.usagePage then
    .vendor
  else
    .generic

/-- One `esp_hid_report_item_t` of a report. -/
def reportItem (report : HidReportParams) (type mode : UInt8) (len : UInt16) : EspHidReportItem :=
  { reportId := report.reportId, reportType := type, protocolMode := mode,
    usage := reportUsage report, valueLen := len }

/-- The entries `handle_report` adds, in the order of its `add_report` calls: keyboards and mice
get a boot entry behind the report entry, and have no feature entry. -/
def reportItems (report : HidReportParams) : List EspHidReportItem :=
  match reportUsage report with
  | .keyboard =>
    (if 0 < report.inputLen then
      [reportItem report ReportType.input ProtocolMode.report (report.inputLen / 8),
        reportItem report ReportType.input ProtocolMode.boot 8] else []) ++
    (if 0 < report.outputLen then
      [reportItem report ReportType.output ProtocolMode.report (report.outputLen / 8),
        reportItem report ReportType.output ProtocolMode.boot 1] else [])
  | .mouse =>
    if 0 < report.inputLen then
      [reportItem report ReportType.input ProtocolMode.report (report.inputLen / 8),
        reportItem report ReportType.input ProtocolMode.boot 3] else []
  | _ =>
    (if 0 < report.inputLen then
      [reportItem report ReportType.input ProtocolMode.report (report.inputLen / 8)] else []) ++
    (if 0 < report.outputLen then
      [reportItem report ReportType.output ProtocolMode.report (report.outputLen / 8)] else []) ++
    (if 0 < report.featureLen then
      [reportItem report ReportType.feature ProtocolMode.report (report.featureLen / 8)] else [])

/-- `add_report` on each entry until one does not fit; the entries before it stay recorded. -/
def addReports (map : TempHidReportMap) : List EspHidReportItem → TempHidReportMap × Bool
  | [] => (map, true)
  | item :: items =>
    match addReport map item with
    | none => (map, false)
    | some map => addReports map items

/-- `handle_report`: the accumulator it leaves and whether it returned `0`. -/
def handleReport (temp : Option TempHidReportMap) (report : HidReportParams) (first : Bool) :
    TempHidReportMap × Bool :=
  let map := if first then .empty else temp.getD .empty
  addReports { map with usageMask := map.usageMask ||| (reportUsage report).value }
    (reportItems report)

/-! ## The item machine -/

/-- All three totals amount to full bytes. -/
def HidReportParams.aligned (p : HidReportParams) : Bool :=
  p.inputLen &&& 0x7 == 0 && p.outputLen &&& 0x7 == 0 && p.featureLen &&& 0x7 == 0

/-- The `PARSE_WAIT_END_COLLECTION` case on a report id item. A misaligned report is logged and
left as it is: its lengths go on under the new id. -/
def handleReportId (st : ParserStatics) (value : UInt32) : ParserStatics × Bool :=
  let p := st.reportParams
  if p.reportId ≠ 0 ∧ p.reportId.toUInt32 ≠ value ∧ p.aligned then
    let (map, ok) := handleReport st.tempHidReportMap p st.newMap
    if ok then
      ({ st with
        tempHidReportMap := some map
        newMap := false
        reportParams := { p with
          inputLen := 0
          outputLen := 0
          featureLen := 0
          usage := p.innerUsage
          usagePage := p.innerUsagePage
          reportId := value.toUInt8 } }, true)
    else
      ({ st with tempHidReportMap := some map, parseStep := .waitUsagePage }, false)
  else
    ({ st with reportParams := { p with reportId := value.toUInt8 } }, true)

/-- The `PARSE_WAIT_END_COLLECTION` case on an end collection item. -/
def handleEndCollection (st : ParserStatics) : ParserStatics × Bool :=
  let st := { st with collectionDepth := st.collectionDepth - 1 }
  if st.collectionDepth = 0 then
    if st.reportParams.aligned then
      let (map, ok) := handleReport st.tempHidReportMap st.reportParams st.newMap
      if ok then
        ({ st with
          tempHidReportMap := some map
          newMap := false
          parseStep := .waitUsagePage }, true)
      else
        ({ st with tempHidReportMap := some map, parseStep := .waitUsagePage }, false)
    else
      ({ st with parseStep := .waitUsagePage }, true)
  else
    (st, true)

/-- `handle_cmd`: the statics it leaves and whether it returned `0`. The source multiplies size and
count as `int`; a product from 2^31 on is undefined in C, and here wraps like any other. -/
def handleCmd (st : ParserStatics) (cmd : HidReportCmd) : ParserStatics × Bool :=
  let p := st.reportParams
  match st.parseStep with
  | .waitUsagePage =>
    if cmd.cmd ≠ HidRm.usagePage then
      (st, false)
    else
      ({ st with
        reportSize := 0
        reportCount := 0
        reportParams := { usagePage := cmd.value.toUInt16 }
        parseStep := .waitUsage }, true)
  | .waitUsage =>
    if cmd.cmd ≠ HidRm.usage then
      ({ st with parseStep := .waitUsagePage }, false)
    else
      ({ st with
        reportParams := { p with usage := cmd.value.toUInt16 }
        parseStep := .waitCollectionApplication }, true)
  | .waitCollectionApplication =>
    if cmd.cmd ≠ HidRm.collection ∨ cmd.value ≠ 1 then
      ({ st with parseStep := .waitUsagePage }, false)
    else
      ({ st with
        reportParams := { p with reportId := 0 }
        collectionDepth := 1
        parseStep := .waitEndCollection }, true)
  | .waitEndCollection =>
    if cmd.cmd = HidRm.reportId then
      handleReportId st cmd.value
    else if cmd.cmd = HidRm.usagePage then
      ({ st with reportParams := { p with innerUsagePage := cmd.value.toUInt16 } }, true)
    else if cmd.cmd = HidRm.usage then
      ({ st with reportParams := { p with innerUsage := cmd.value.toUInt16 } }, true)
    else if cmd.cmd = HidRm.reportSize then
      ({ st with reportSize := cmd.value.toUInt16 }, true)
    else if cmd.cmd = HidRm.reportCount then
      ({ st with reportCount := cmd.value.toUInt16 }, true)
    else if cmd.cmd = HidRm.input then
      ({ st with reportParams :=
          { p with inputLen := p.inputLen + st.reportSize * st.reportCount } }, true)
    else if cmd.cmd = HidRm.output then
      ({ st with reportParams :=
          { p with outputLen := p.outputLen + st.reportSize * st.reportCount } }, true)
    else if cmd.cmd = HidRm.feature then
      ({ st with reportParams :=
          { p with featureLen := p.featureLen + st.reportSize * st.reportCount } }, true)
    else if cmd.cmd = HidRm.collection then
      ({ st with collectionDepth := st.collectionDepth + 1 }, true)
    else if cmd.cmd = HidRm.endCollection then
      handleEndCollection st
    else
      (st, true)

/-! ## One call -/

/-- The item loop of `esp_hid_parse_report_map` from byte `index`; the flag is false where the
function returns `NULL` from inside the loop. Each round consumes a byte, so `hid_rm_len - index`
rounds are enough (`itemsFrom_fuel`). -/
def parseLoop (hidRm : List UInt8) : Nat → Nat → ParserStatics →
    Except Fault (Bool × ParserStatics)
  | 0, _, st => .ok (true, st)
  | fuel + 1, index, st =>
    if index < hidRm.length then do
      match ← parseCmd hidRm index with
      -- `parse_cmd` leaves `cmd` unset here, and `handle_cmd(cmd)` reads it
      | .atEnd => .error .uninitialised
      | .failed => .ok (false, st)
      | .item cmd size =>
        match handleCmd st cmd with
        | (st, true) => parseLoop hidRm fuel (index + size) st
        | (st, false) => .ok (false, st)
    else
      .ok (true, st)

/-- The dominant usage of a mask. -/
def dominantUsage (mask : UInt8) : EspHidUsage × UInt16 :=
  if mask &&& EspHidUsage.keyboard.value ≠ 0 then (.keyboard, Appearance.keyboard)
  else if mask &&& EspHidUsage.mouse.value ≠ 0 then (.mouse, Appearance.mouse)
  else if mask &&& EspHidUsage.joystick.value ≠ 0 then (.joystick, Appearance.joystick)
  else if mask &&& EspHidUsage.gamepad.value ≠ 0 then (.gamepad, Appearance.gamepad)
  else if mask &&& EspHidUsage.ccontrol.value ≠ 0 then (.ccontrol, Appearance.keyboard)
  else (.generic, Appearance.generic)

/-- The `esp_hid_report_map_t` built from the accumulator. -/
def outMap (map : TempHidReportMap) : EspHidReportMap :=
  { usage := (dominantUsage map.usageMask).1
    appearance := (dominantUsage map.usageMask).2
    reportsLen := map.reportsLen
    reports := map.reports }

/-- The final block of `esp_hid_parse_report_map`. It reads `map->reports_len` through
`s_temp_hid_report_map` without looking whether that is `NULL`. -/
def finishMap (st : ParserStatics) : Except Fault (Option EspHidReportMap × ParserStatics) :=
  match st.tempHidReportMap with
  | none => .error .nullDeref
  | some map => .ok (some (outMap map), { st with tempHidReportMap := none })

/-- `esp_hid_parse_report_map`: the map it returns (`none` for `NULL`) and the statics it leaves. -/
def espHidParseReportMap (st : ParserStatics) (hidRm : List UInt8) :
    Except Fault (Option EspHidReportMap × ParserStatics) :=
  match parseLoop hidRm hidRm.length 0 { st with newMap := true } with
  | .error fault => .error fault
  | .ok (false, st) => .ok (none, st)
  | .ok (true, st) => finishMap st

end BleKbdHost.Hid
