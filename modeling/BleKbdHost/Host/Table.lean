import BleKbdHost.Verify.Matching

/-!
# What an attribute table says of a device

`Peer` is the attribute table of a peer as its answers show it. `Peer.device` reads a device off it,
one attribute after the other, with the table at hand: without requests, callbacks, result arrays,
counters or waits.
-/

namespace BleKbdHost.Host

open Hid Keys Conc

/-! ## Devices up to their buffers -/

/-- A buffer, whichever it is. -/
def Buf.plain (buf : Buf) : Buf := ⟨0, buf.bytes⟩

def RawReportMap.plain (raw : RawReportMap) : RawReportMap := { raw with data := raw.data.map .plain }

/-- A device without what belongs to its link, and without the identity of its buffers. -/
def Dev.profile (dev : Dev) : Dev :=
  { dev with
    connId := -1
    connected := false
    status := 0
    callbacks := false
    deviceName := dev.deviceName.map .plain
    manufacturerName := dev.manufacturerName.map .plain
    serialNumber := dev.serialNumber.map .plain
    reportMaps := dev.reportMaps.map (·.map .plain) }

/-- A device that nothing was written to. -/
def Dev.blank (dev : Dev) : Dev := { id := dev.id, bda := dev.bda, addressType := dev.addressType }

def DevField.plain : DevField → DevField
  | .deviceName buf => .deviceName (buf.map .plain)
  | .manufacturerName buf => .manufacturerName (buf.map .plain)
  | .serialNumber buf => .serialNumber (buf.map .plain)
  | .reportMap index data len => .reportMap index (data.map .plain) len
  | field => field

def ReadVar.plain (out : ReadVar) : ReadVar := { out with rdata := out.rdata.map .plain }

@[simp] theorem ReadVar.plain_rlen (out : ReadVar) : out.plain.rlen = out.rlen := rfl

@[simp] theorem ReadVar.plain_byte (out : ReadVar) (i : Nat) : out.plain.byte i = out.byte i := by
  rcases out with ⟨_ | buf, len⟩ <;> rfl

@[simp] theorem ReadVar.plain_half (out : ReadVar) (i : Nat) : out.plain.half i = out.half i := by
  simp [ReadVar.half]

/-- Writing a field and forgetting about the buffers commute. -/
theorem DevField.write_profile (field : DevField) (dev : Dev) :
    field.plain.write dev.profile = (field.write dev).map Dev.profile := by
  cases field with
  | protocolMode index value =>
    cases hmodes : dev.protocolMode with
    | none => simp [DevField.plain, DevField.write, Dev.profile, hmodes, Except.map]
    | some modes =>
      by_cases hlt : index < modes.length <;>
        simp [DevField.plain, DevField.write, Dev.profile, hmodes, hlt, Except.map]
  | reportMap index data len =>
    cases hmaps : dev.reportMaps with
    | none => simp [DevField.plain, DevField.write, Dev.profile, hmaps, Except.map]
    | some maps =>
      by_cases hlt : index < maps.length <;>
        simp [DevField.plain, DevField.write, Dev.profile, hmaps, hlt, Except.map, List.map_set,
          RawReportMap.plain]
  | _ => rfl

/-! ## The table -/

/-- The services, the characteristics and the descriptors in a range of handles, and the values. -/
structure Peer where
  services : List GattSvc
  chrs : UInt16 → UInt16 → List GattChr
  dscs : UInt16 → UInt16 → List GattDsc
  value : UInt16 → List UInt8

/-- What is known of a device while its table is read: the device, the report of the latest report
characteristic, and the index of the HID service. -/
structure Survey where
  dev : Dev
  report : Option DevReport := none
  hidindex : UInt8 := 0

/-- Writes to the device. -/
def Survey.write (x : Survey) (field : DevField) : Survey :=
  { x with dev := (field.write x.dev).toOption.getD x.dev }

namespace Peer

variable (peer : Peer)

/-- The value of an attribute, as it is read. -/
def read (handle : UInt16) : ReadVar :=
  ⟨some ⟨0, peer.value handle⟩, (peer.value handle).length.toUInt16⟩

/-- Stores the value of a characteristic unless it is empty. -/
def store (chr : GattChr) (field : ReadVar → DevField) (x : Survey) : Survey :=
  if (peer.read chr.valHandle).rlen ≠ 0 then x.write (field (peer.read chr.valHandle)) else x

/-! ### One characteristic: what it says, and whether its descriptors count -/

def gapChr (chr : GattChr) (x : Survey) : Survey × Bool :=
  if !x.dev.deviceName.isSome && chr.uuid16 == Uuid.deviceName && chr.readable then
    (peer.store chr (fun out => .deviceName out.rdata) x, true)
  else (x, false)

def basChr (chr : GattChr) (x : Survey) : Survey × Bool :=
  if chr.uuid16 == Uuid.batteryLevel && chr.readable then
    (x.write (.batteryHandle chr.valHandle), true)
  else (x, false)

def pnpId (chr : GattChr) (x : Survey) : Survey :=
  let out := peer.read chr.valHandle
  if out.rlen = 7 then x.write (.pnpId (out.half 1) (out.half 3) (out.half 5)) else x

def disChr (chr : GattChr) (x : Survey) : Survey :=
  if chr.readable then
    if chr.uuid16 = Uuid.pnpId then peer.pnpId chr x
    else if chr.uuid16 = Uuid.manufacturerName then
      peer.store chr (fun out => .manufacturerName out.rdata) x
    else if chr.uuid16 = Uuid.serialNumber then
      peer.store chr (fun out => .serialNumber out.rdata) x
    else x
  else x

/-- A report characteristic. -/
def isReport (uuid : UInt16) : Prop :=
  uuid = Uuid.bootKbdInp ∨ uuid = Uuid.bootKbdOut ∨ uuid = Uuid.bootMouseInp ∨ uuid = Uuid.rpt

instance : DecidablePred isReport := fun _ => inferInstanceAs (Decidable (_ ∨ _))

def hidChr (chr : GattChr) (x : Survey) : Survey × Bool :=
  if chr.uuid16 = Uuid.protocolMode then
    (if chr.readable then
      peer.store chr (fun out => .protocolMode x.hidindex.toNat (out.byte 0)) x else x, false)
  else if chr.uuid16 = Uuid.reportMap then
    (if chr.readable then
      peer.store chr (fun out => .reportMap x.hidindex.toNat out.rdata out.rlen) x else x, false)
  else if isReport chr.uuid16 then ({ x with report := some (newReport chr x.hidindex) }, true)
  else (x, false)

def examineChr (suuid : UInt16) (chr : GattChr) (x : Survey) : Survey × Bool :=
  if suuid = Uuid.gap then peer.gapChr chr x
  else if suuid = Uuid.bas then basChr chr x
  else if suuid = Uuid.dis then (peer.disChr chr x, false)
  else peer.hidChr chr x

/-! ### Its descriptors -/

/-- What a descriptor says of a report. -/
def describe (report : DevReport) (dsc : GattDsc) : DevReport :=
  if dsc.uuid16 = Uuid.cltCfg ∧ canNotify report.permissions then
    { report with cccHandle := dsc.handle }
  else if dsc.uuid16 = Uuid.rptRef then
    let out := peer.read dsc.handle
    if out.rlen ≠ 0 then { report with reportId := out.byte 0, reportType := out.byte 1 } else report
  else report

def examineDsc (suuid : UInt16) (chr : GattChr) (x : Survey) (dsc : GattDsc) : Survey :=
  if suuid = Uuid.bas then
    if dsc.uuid16 = Uuid.cltCfg ∧ canNotify chr.properties then
      x.write (.batteryCccHandle dsc.handle) else x
  else
    match x.report with
    | some report =>
      if suuid = Uuid.hid then { x with report := some (peer.describe report dsc) } else x
    | none => x

/-- The report of a HID service counts. -/
def pushReport (suuid : UInt16) (x : Survey) : Survey :=
  match x.report with
  | some report => if suuid = Uuid.hid then x.write (.pushReport report) else x
  | none => x

def chrDescriptors (suuid : UInt16) (chr : GattChr) (endHandle : UInt16) (x : Survey) : Survey :=
  pushReport suuid ((peer.dscs chr.valHandle endHandle).foldl (peer.examineDsc suuid chr) x)

/-! ### All services -/

/-- Where the descriptors of a characteristic end, with the characteristics behind it. -/
def endHandle (svc : GattSvc) : List GattChr → UInt16
  | [] => svc.endHandle
  | chr :: _ => chr.defHandle

def examineChrs (svc : GattSvc) : List GattChr → Survey → Survey
  | [], x => x
  | chr :: chrs, x =>
    let (x, descends) := peer.examineChr svc.uuid16 chr x
    examineChrs svc chrs
      (if descends then peer.chrDescriptors svc.uuid16 chr (endHandle svc chrs) x else x)

def examineSvc (x : Survey) (svc : GattSvc) : Survey :=
  if svc.uuid16 = Uuid.bas ∨ svc.uuid16 = Uuid.dis ∨ svc.uuid16 = Uuid.hid ∨
      svc.uuid16 = Uuid.gap then
    let x := peer.examineChrs svc (peer.chrs svc.startHandle svc.endHandle) x
    if svc.uuid16 = Uuid.hid then { x with hidindex := x.hidindex + 1 } else x
  else x

/-- How many of the services are HID services, as a device counts them. -/
def hidCount (svcs : List GattSvc) : UInt8 := .ofNat (svcs.countP (·.uuid16 == Uuid.hid))

/-- The device with its tables, before the services are examined. -/
def tables (dev : Dev) (memory : List UInt8) : Dev :=
  { dev with
    reportMapsLen := hidCount peer.services
    reportMaps := some (List.replicate (hidCount peer.services).toNat {})
    protocolMode := some memory }

/-- The device, before its reports are looked up in the report maps. -/
def surveyed (dev : Dev) (memory : List UInt8) : Dev :=
  (peer.services.foldl peer.examineSvc { dev := peer.tables dev memory }).dev

/-- The device that a table describes. `memory` is what the fresh memory of the protocol modes
holds. -/
def device (dev : Dev) (memory : List UInt8) : Dev :=
  let dev := peer.surveyed dev memory
  { dev with reports := matchLoop 0 (parsedMaps .init (dev.reportMaps.getD [])) dev.reports }

end Peer

/-- Such a device is the one that the table, whose services a byte can count, describes. -/
def Peer.Describes (peer : Peer) (dev : Dev) : Prop :=
  peer.services.length < 256 ∧ ∃ memory : List UInt8,
    memory.length = (Peer.hidCount peer.services).toNat ∧ dev = peer.device dev.blank memory

/-! ## The devices of a state -/

def Sys.profiles (s : Sys) : List Dev := s.hidh.devices.map Dev.profile

/-- The device is listed once, as `dev`, and `R` holds of the others. -/
structure Listed (R : Dev → Prop) (dev : Dev) (devs : List Dev) : Prop where
  mem : dev ∈ devs
  same : ∀ p ∈ devs, p.id = dev.id → p = dev
  rest : ∀ p ∈ devs, p.id ≠ dev.id → R p

/-- A write to the device of this identity. -/
def writeTo (d : DevId) (f : Dev → Dev) (devs : List Dev) : List Dev :=
  devs.map fun p => if p.id = d then f p else p

theorem Listed.write {R : Dev → Prop} {dev : Dev} {devs : List Dev} (h : Listed R dev devs)
    {f : Dev → Dev} (hid : (f dev).id = dev.id) : Listed R (f dev) (writeTo dev.id f devs) := by
  have hcases : ∀ p ∈ writeTo dev.id f devs, p = f dev ∨ p ∈ devs ∧ p.id ≠ dev.id := by
    intro p hp
    obtain ⟨q, hq, rfl⟩ := List.mem_map.mp hp
    by_cases hqid : q.id = dev.id
    · rw [if_pos hqid, h.same q hq hqid]
      exact .inl rfl
    · rw [if_neg hqid]
      exact .inr ⟨hq, hqid⟩
  refine ⟨List.mem_map.mpr ⟨dev, h.mem, if_pos rfl⟩, fun p hp hpid => ?_, fun p hp hpid => ?_⟩
  · exact (hcases p hp).resolve_right fun hother => hother.2 (hpid.trans hid)
  · rcases hcases p hp with rfl | ⟨hold, hother⟩
    · exact absurd rfl hpid
    · exact h.rest p hold hother

theorem profiles_setDev {s s' : Sys} {d : DevId} {f g : Dev → Dev}
    (hf : ∀ dev, (f dev).profile = g dev.profile)
    (h : s'.hidh.devices = (s.setDev d f).hidh.devices) : s'.profiles = writeTo d g s.profiles := by
  rw [Sys.profiles, h]
  simp only [Sys.setDev, Sys.profiles, writeTo, List.map_map]
  refine List.map_congr_left fun dev _ => ?_
  simp only [Function.comp]
  rw [apply_ite Dev.profile, hf]
  rfl

theorem profiles_setDev_same {s s' : Sys} {d : DevId} {f : Dev → Dev}
    (hf : ∀ dev, (f dev).profile = dev.profile)
    (h : s'.hidh.devices = (s.setDev d f).hidh.devices) : s'.profiles = s.profiles := by
  rw [Sys.profiles, h]
  exact map_setDev hf

/-- The operations that change the devices, up to their connections. -/
def Op.writesDev : Op → Bool
  | .devMalloc _ _ | .devFree _ | .setField _ _ | .mallocReportMaps _ | .mallocProtocolMode _ => true
  | _ => false

theorem absorb_profiles {α : Type} {s : Sys} {r : Except Fault α} {f : α → Sys}
    (h : ∀ a, (f a).profiles = s.profiles) : (s.absorb r f).profiles = s.profiles := by
  cases r with
  | ok a => exact h a
  | error _ => rfl

theorem exec_profiles {o : Op} (c : Choice) (s : Sys) (ho : o.writesDev = false) :
    (o.exec c s).profiles = s.profiles := by
  cases o with
  | devMalloc _ _ | devFree _ | setField _ _ | mallocReportMaps _ | mallocProtocolMode _ => cases ho
  | installCallbacks d => exact map_setDev fun _ => rfl
  | setConnected kind d => exact map_setDev (d := d) fun _ => rfl
  | readSvc _ | readChr _ | readDefHandle _ | readDsc _ | readReportMap _ _ =>
    exact absorb_profiles fun _ => rfl
  | freeBuf buf => cases buf <;> rfl
  | parseReportMap buf =>
    cases buf with
    | none => rfl
    | some buf =>
      simp only [Op.exec]
      split
      · rfl
      · exact absorb_profiles fun _ => rfl
  | awaitDisconnect _ _ | peekCmd _ | emitKey _ | gapDisc | reconnectReturns _ | assertStatus
  | readConnId _ _ =>
    simp only [Op.exec]
    split <;> rfl
  | gapConnect kind d =>
    simp only [Op.exec]
    split
    · rfl
    · split <;> rfl
  | _ => rfl

/-- A field that is written. -/
theorem profiles_setField {s : Sys} {d : DevId} {field : DevField} {c : Choice}
    (hlive : ((Op.setField d field).exec c s).fault = none) :
    ((Op.setField d field).exec c s).profiles =
      writeTo d (fun p => (field.plain.write p).toOption.getD p) s.profiles := by
  rcases exec_setField_cases s d field c with ⟨fault, hexec⟩ | ⟨_, _, -, -, hexec⟩
  · rw [hexec] at hlive
    cases hlive
  · rw [hexec]
    refine profiles_setDev (fun dev => ?_) rfl
    rw [field.write_profile dev]
    cases field.write dev <;> rfl

/-- A table that is allocated. -/
theorem profiles_mallocReportMaps {s : Sys} {d : DevId} {c : Choice} (hrc : c.rc = 0) :
    ((Op.mallocReportMaps d).exec c s).profiles = writeTo d (fun p =>
      { p with reportMaps := some (List.replicate p.reportMapsLen.toNat {}) }) s.profiles := by
  rw [Op.exec, if_pos hrc]
  refine profiles_setDev (fun dev => ?_) rfl
  simp [Dev.profile, RawReportMap.plain]

theorem profiles_mallocProtocolMode {s : Sys} {d : DevId} {c : Choice} (hrc : c.rc = 0) :
    ((Op.mallocProtocolMode d).exec c s).profiles = writeTo d (fun p =>
      { p with protocolMode := some (freshBytes c p.reportMapsLen.toNat) }) s.profiles := by
  rw [Op.exec, if_pos hrc]
  exact profiles_setDev (fun _ => rfl) rfl

/-- **Only the report of a HID service changes them.** -/
theorem eventStep_profiles {e : Event} {s s' : Sys} (h : eventStep e s = some s')
    (hkeep : e = .dispatch → ∀ d, s.releasing d = false) (he : ∀ i svc, e ≠ .gattCb i (.svc svc)) :
    s'.profiles = s.profiles := by
  obtain ⟨-, hsame | ⟨d, f, hwrite, hdevices⟩⟩ := eventStep_devices h hkeep
  · rw [Sys.profiles, hsame, Sys.profiles]
  · refine profiles_setDev_same (fun dev => ?_) hdevices
    cases hwrite with
    | found _ _ _ _ => exact absurd rfl (he _ _)
    | linked _ _ | closed _ | lost _ => rfl

end BleKbdHost.Host
