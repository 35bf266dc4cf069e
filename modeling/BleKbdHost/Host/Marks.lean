import BleKbdHost.Host.Search

/-!
# What discovery leaves in a device

The status of a device and the number of its HID services, which callbacks write, and whether its
tables for the report maps and the protocol modes are allocated, which is up to the main task. With
them goes what a service discovery reported, as far as the log of discovery tells.
-/

namespace BleKbdHost.Host

open Hid Keys Conc

/-! ## Marks -/

/-- What tells whether a device can be used. -/
structure Marks where
  id : DevId
  status : Int
  len : UInt8
  maps : Bool
  modes : Bool
  deriving DecidableEq

def Dev.marks (dev : Dev) : Marks :=
  ⟨dev.id, dev.status, dev.reportMapsLen, dev.reportMaps.isSome, dev.protocolMode.isSome⟩

def Sys.marks (s : Sys) : List Marks := s.hidh.devices.map Dev.marks

def Sys.mark? (s : Sys) (d : DevId) : Option Marks := (s.dev? d).map Dev.marks

theorem Sys.mark?_eq (s : Sys) (d : DevId) : s.mark? d = s.marks.find? (·.id == d) := by
  rw [Sys.marks, List.find?_map]
  rfl

theorem Sys.mark?_congr {s s' : Sys} (h : s'.marks = s.marks) (d : DevId) :
    s'.mark? d = s.mark? d := by
  rw [Sys.mark?_eq, Sys.mark?_eq, h]

/-- A write to a device, on its marks. -/
theorem mark?_setDev {s s' : Sys} {d d' : DevId} {f : Dev → Dev} (hid : ∀ dev, (f dev).id = dev.id)
    (h : s'.hidh.devices = (s.setDev d' f).hidh.devices) :
    s'.mark? d = (s.dev? d).map fun dev => (if dev.id = d' then f dev else dev).marks := by
  rw [Sys.mark?, dev?_of_devices h, dev?_setDev hid, Option.map_map]
  rfl

/-- The operations that add or remove a device, or allocate a table of one. -/
def Op.marks : Op → Bool
  | .devMalloc _ _ | .devFree _ | .mallocReportMaps _ | .mallocProtocolMode _ => true
  | _ => false

theorem DevField.written_marks (field : DevField) (dev : Dev) :
    ((field.write dev).toOption.getD dev).marks = dev.marks := by
  cases field with
  | protocolMode index value =>
    simp only [DevField.write]
    split
    · rfl
    · rename_i modes hmodes
      split
      · simp [Dev.marks, Except.toOption, hmodes]
      · rfl
  | reportMap index data len =>
    simp only [DevField.write]
    split
    · rfl
    · rename_i maps hmaps
      split
      · simp [Dev.marks, Except.toOption, hmaps]
      · rfl
  | _ => rfl

theorem absorb_marks {α : Type} {s : Sys} {r : Except Fault α} {f : α → Sys}
    (h : ∀ a, (f a).marks = s.marks) : (s.absorb r f).marks = s.marks := by
  cases r with
  | ok a => exact h a
  | error _ => rfl

theorem exec_marks {o : Op} (c : Choice) (s : Sys) (ho : o.marks = false) :
    (o.exec c s).marks = s.marks := by
  cases o with
  | setField d field =>
    rcases exec_setField_cases s d field c with ⟨fault, hexec⟩ | ⟨_, _, -, -, hexec⟩ <;> rw [hexec]
    · rfl
    · exact map_setDev field.written_marks
  | installCallbacks d => exact map_setDev fun _ => rfl
  | setConnected kind d => exact map_setDev (d := d) fun _ => rfl
  | readSvc _ | readChr _ | readDefHandle _ | readDsc _ | readReportMap _ _ =>
    exact absorb_marks fun _ => rfl
  | freeBuf buf => cases buf <;> rfl
  | parseReportMap buf =>
    cases buf with
    | none => rfl
    | some buf =>
      simp only [Op.exec]
      split
      · rfl
      · exact absorb_marks fun _ => rfl
  | awaitDisconnect _ _ | peekCmd _ | emitKey _ | gapDisc | reconnectReturns _ | assertStatus
  | readConnId _ _ =>
    simp only [Op.exec]
    split <;> rfl
  | gapConnect kind d =>
    simp only [Op.exec]
    split
    · rfl
    · split <;> rfl
  | devMalloc _ _ | devFree _ | mallocReportMaps _ | mallocProtocolMode _ => cases ho
  | _ => rfl

/-- A HID service was found, and the tables are allocated as far as they are asked for. -/
structure Marks.Shows (maps modes : Bool) (m : Marks) : Prop where
  status : m.status ≠ -1
  len : m.len ≠ 0
  maps : maps = true → m.maps = true
  modes : modes = true → m.modes = true

def Sys.Shows (maps modes : Bool) (d : DevId) (s : Sys) : Prop :=
  ∃ m, s.mark? d = some m ∧ m.Shows maps modes

namespace Sys.Shows

variable {s s' : Sys} {maps modes : Bool} {d : DevId}

theorem congr (h : s.Shows maps modes d) (hmarks : s'.marks = s.marks) : s'.Shows maps modes d := by
  obtain ⟨m, hm, hshows⟩ := h
  exact ⟨m, (Sys.mark?_congr hmarks d).trans hm, hshows⟩

theorem mallocReportMaps (h : s.Shows maps modes d) {c : Choice} (hrc : c.rc = 0) :
    ((Op.mallocReportMaps d).exec c s).Shows true modes d := by
  obtain ⟨m, hm, hshows⟩ := h
  obtain ⟨dev, hdev, rfl⟩ := Option.map_eq_some_iff.mp hm
  refine ⟨{ dev.marks with maps := true }, ?_, ⟨hshows.status, hshows.len, fun _ => rfl, hshows.modes⟩⟩
  rw [Op.exec, if_pos hrc, mark?_setDev (by exact fun _ => rfl) rfl, hdev, Option.map_some,
    if_pos (dev?_id hdev)]
  rfl

theorem mallocProtocolMode (h : s.Shows maps modes d) {c : Choice} (hrc : c.rc = 0) :
    ((Op.mallocProtocolMode d).exec c s).Shows maps true d := by
  obtain ⟨m, hm, hshows⟩ := h
  obtain ⟨dev, hdev, rfl⟩ := Option.map_eq_some_iff.mp hm
  refine ⟨{ dev.marks with modes := true }, ?_, ⟨hshows.status, hshows.len, hshows.maps, fun _ => rfl⟩⟩
  rw [Op.exec, if_pos hrc, mark?_setDev (by exact fun _ => rfl) rfl, hdev, Option.map_some,
    if_pos (dev?_id hdev)]
  rfl

end Sys.Shows

/-! ## The services that were reported -/

/-- The result array of the service discovery, and how many were stored in it since boot. -/
def Sys.services (s : Sys) : List (Option GattSvc) × Nat :=
  (s.nimble.serviceResult, s.nimble.servicesDiscovered)

theorem absorb_services {α : Type} {s : Sys} {r : Except Fault α} {f : α → Sys}
    (h : ∀ a, (f a).services = s.services) : (s.absorb r f).services = s.services := by
  cases r with
  | ok a => exact h a
  | error _ => rfl

theorem exec_services {o : Op} (c : Choice) (s : Sys) (ho : ∀ d, o ≠ .discAllSvcs d) :
    (o.exec c s).services = s.services := by
  have hframe : ∀ o : Op, o.collects = false → (o.exec c s).services = s.services := fun o ho =>
    congrArg (fun r => (r.serviceResult, r.servicesDiscovered)) (exec_search c s ho)
  cases o with
  | discAllSvcs d => exact absurd rfl (ho d)
  | readSvc _ | readChr _ | readDefHandle _ | readDsc _ => exact absorb_services fun _ => rfl
  | discAllChrs _ _ _ | discAllDscs _ _ _ | svcsDone | resetChrs | resetDscs => rfl
  | _ => exact hframe _ rfl

/-- **Only a reported service changes them.** -/
theorem eventStep_services {e : Event} {s s' : Sys} (h : eventStep e s = some s') :
    s'.services = s.services ∨ ∃ i conn svc, e = .gattCb i (.svc svc) ∧
      s.radio.gatt[i]? = some (.services conn) ∧ s' = svcDisced s conn svc := by
  by_cases he : ∃ i rsp, e = .gattCb i rsp
  · obtain ⟨i, rsp, rfl⟩ := he
    cases gattCb_cases h with
    | svc svc hreq => exact .inr ⟨i, _, svc, rfl, hreq, rfl⟩
    | chr _ _ | dsc _ _ =>
      exact .inl (Sys.store_of (P := fun s' => s'.services = s.services) rfl fun _ => rfl)
    | found _ _ | lost _ _ _ | unread _ _ => exact .inl rfl
    | data bytes _ =>
      simp only [onReadData]
      split <;> exact .inl rfl
    | read _ =>
      unfold onReadDone
      split <;> exact .inl rfl
    | written _ _ =>
      unfold onWrite
      split <;> exact .inl rfl
  · have hcore := (eventStep_core h fun i rsp heq => he ⟨i, rsp, heq⟩).1
    refine .inl (Prod.ext ?_ ?_)
    · change s'.nimble.core.serviceResult = s.nimble.core.serviceResult
      rw [hcore]
    · change s'.nimble.core.servicesDiscovered = s.nimble.core.servicesDiscovered
      rw [hcore]

/-- The array has room for ten services, and no device counts more than were stored. -/
structure Capacity (s : Sys) : Prop where
  array : s.nimble.serviceResult.length ≤ 10
  lens : ∀ m ∈ s.marks, m.len.toNat ≤ s.nimble.servicesDiscovered

namespace Capacity

variable {s s' : Sys}

/-- A step that stores no service. -/
theorem of_frame (h : Capacity s) (hlength : s'.nimble.serviceResult.length ≤ 10)
    (hstored : s'.nimble.servicesDiscovered = s.nimble.servicesDiscovered)
    (hmarks : ∀ m' ∈ s'.marks, (∃ m ∈ s.marks, m'.len = m.len) ∨ m'.len = 0) : Capacity s' where
  array := hlength
  lens m' hm' := by
    rw [hstored]
    rcases hmarks m' hm' with ⟨m, hm, hlen⟩ | hzero
    · rw [hlen]
      exact h.lens m hm
    · rw [hzero]
      exact Nat.zero_le _

theorem boot (cfg : KbdConfig) (bonds : List (Bda × UInt8)) : Capacity (boot cfg bonds).state where
  array := Nat.zero_le _
  lens _ h := by cases h

theorem setDev {d : DevId} {f : Dev → Dev} {m' : Marks} (hm' : m' ∈ (s.setDev d f).marks)
    (hlen : ∀ dev, (f dev).reportMapsLen = dev.reportMapsLen) : ∃ m ∈ s.marks, m'.len = m.len := by
  obtain ⟨dev', hdev', rfl⟩ := List.mem_map.mp hm'
  obtain ⟨dev, hdev, rfl⟩ := List.mem_map.mp hdev'
  refine ⟨dev.marks, List.mem_map.mpr ⟨dev, hdev, rfl⟩, ?_⟩
  split
  · exact hlen dev
  · rfl

theorem exec (h : Capacity s) (o : Op) (c : Choice) : Capacity (o.exec c s) := by
  have hold : ∀ o : Op, (∀ d, o ≠ .discAllSvcs d) →
      (∀ m' ∈ (o.exec c s).marks, (∃ m ∈ s.marks, m'.len = m.len) ∨ m'.len = 0) →
      Capacity (o.exec c s) := by
    intro o ho hmarks
    have hservices := exec_services c s ho
    refine h.of_frame ?_ (congrArg Prod.snd hservices) hmarks
    rw [show (o.exec c s).nimble.serviceResult = s.nimble.serviceResult from
      congrArg Prod.fst hservices]
    exact h.array
  cases o with
  | discAllSvcs d =>
    exact h.of_frame (by simp [Op.exec]) rfl fun m hm => .inl ⟨m, hm, rfl⟩
  | devMalloc bda addrType =>
    refine hold _ (by simp) fun m' hm' => ?_
    simp only [Op.exec] at hm'
    split at hm'
    · simp only [Sys.marks, List.map_append, List.mem_append, Sys.note, Sys.setStage] at hm'
      rcases hm' with hm' | hm'
      · exact .inl ⟨m', hm', rfl⟩
      · rw [List.mem_singleton.mp hm']
        exact .inr rfl
    · exact .inl ⟨m', hm', rfl⟩
  | devFree d =>
    refine hold _ (by simp) fun m' hm' => .inl ⟨m', ?_, rfl⟩
    obtain ⟨dev, hdev, rfl⟩ := List.mem_map.mp hm'
    exact List.mem_map.mpr ⟨dev, (List.mem_filter.mp hdev).1, rfl⟩
  | mallocReportMaps d | mallocProtocolMode d =>
    refine hold _ (by simp) fun m' hm' => .inl ?_
    simp only [Op.exec] at hm'
    split at hm'
    · exact setDev hm' fun _ => rfl
    · exact ⟨m', hm', rfl⟩
  | _ =>
    refine hold _ (by simp) fun m' hm' => .inl ⟨m', ?_, rfl⟩
    rwa [exec_marks c s rfl] at hm'

theorem event (h : Capacity s) {e : Event} (hkeep : ∀ d, s.releasing d = false)
    (hstep : eventStep e s = some s') : Capacity s' := by
  obtain ⟨-, hdevices⟩ := eventStep_devices hstep fun _ => hkeep
  rcases eventStep_services hstep with hservices | ⟨i, conn, svc, rfl, hreq, rfl⟩
  · have hstored : s'.nimble.servicesDiscovered = s.nimble.servicesDiscovered :=
      congrArg Prod.snd hservices
    refine h.of_frame ?_ hstored fun m' hm' => ?_
    · rw [show s'.nimble.serviceResult = s.nimble.serviceResult from congrArg Prod.fst hservices]
      exact h.array
    rcases hdevices with hsame | ⟨d, f, hwrite, hdevices⟩
    · rw [Sys.marks, hsame] at hm'
      exact .inl ⟨m', hm', rfl⟩
    · rw [Sys.marks, hdevices] at hm'
      cases hwrite with
      | linked _ _ | closed _ | lost _ => exact .inl (setDev hm' fun _ => rfl)
      | @found i conn svc dev hreq hdev huuid hroom =>
        -- a service that fits is counted
        have hsvc := gattCb_cases (show gattCb s i (.svc svc) = some s' from hstep)
        cases hsvc with
        | @svc conn' _ _ =>
          rcases svcDisced_cases s conn' svc with ⟨hfull, -⟩ | ⟨-, hnimble, -⟩
          · exact absurd hroom (Nat.not_lt_of_le hfull)
          · rw [hnimble] at hstored
            exact absurd hstored (Nat.succ_ne_self _)
        | written _ hterminal => cases hterminal
  · rcases svcDisced_cases s conn svc with ⟨-, hfail⟩ | ⟨hroom, hnimble, -, -, hwrite⟩
    · rw [hfail]
      exact h.of_frame h.array rfl fun m' hm' => .inl ⟨m', hm', rfl⟩
    · refine ⟨?_, fun m' hm' => ?_⟩
      · rw [hnimble]
        simpa using h.array
      · rw [hnimble]
        rcases hwrite with ⟨-, hsame⟩ | ⟨dev, -, -, hdevices⟩
        · rw [Sys.marks, hsame] at hm'
          exact Nat.le_succ_of_le (h.lens m' hm')
        · rw [Sys.marks, hdevices] at hm'
          obtain ⟨dev₁, hdev₁, rfl⟩ := List.mem_map.mp hm'
          obtain ⟨dev₀, hdev₀, rfl⟩ := List.mem_map.mp hdev₁
          have hle := h.lens dev₀.marks (List.mem_map.mpr ⟨dev₀, hdev₀, rfl⟩)
          simp only [Dev.marks] at hle ⊢
          split
          · simp only [UInt8.toNat_add, UInt8.reduceToNat]
            omega
          · omega

/-- One more service is not the 256th. -/
theorem counted (h : Capacity s) {dev : Dev} (hdev : dev ∈ s.hidh.devices)
    (hroom : s.nimble.servicesDiscovered < s.nimble.serviceResult.length) :
    dev.reportMapsLen + 1 ≠ 0 := by
  have hlens := h.lens dev.marks (List.mem_map.mpr ⟨dev, hdev, rfl⟩)
  have harray := h.array
  intro hzero
  have hwrap := congrArg UInt8.toNat hzero
  simp only [Dev.marks, UInt8.toNat_add, UInt8.reduceToNat] at hwrap hlens
  omega

end Capacity

/-- A HID service that is counted. -/
theorem Sys.Shows.found {s s' : Sys} {d : DevId} {dev : Dev} (hcapacity : Capacity s)
    (hdev : dev ∈ s.hidh.devices) (hid : dev.id = d)
    (hroom : s.nimble.servicesDiscovered < s.nimble.serviceResult.length)
    (hdevices : s'.hidh.devices = (s.setDev d fun dev =>
      { dev with status := 0, reportMapsLen := dev.reportMapsLen + 1 }).hidh.devices) :
    s'.Shows false false d := by
  have hlisted : (s.dev? d).isSome = true :=
    List.find?_isSome.mpr ⟨dev, hdev, beq_iff_eq.mpr hid⟩
  obtain ⟨dev₀, hdev₀⟩ := Option.isSome_iff_exists.mp hlisted
  refine ⟨{ dev₀.marks with status := 0, len := dev₀.reportMapsLen + 1 }, ?_, ?_⟩
  · rw [mark?_setDev (by exact fun _ => rfl) hdevices, hdev₀, Option.map_some,
      if_pos (dev?_id hdev₀)]
    rfl
  · exact ⟨by simp, hcapacity.counted (List.mem_of_find?_eq_some hdev₀) hroom,
      (fun h => by cases h), (fun h => by cases h)⟩

/-- **Once found, a HID service stays so** while no connection is under way. -/
theorem Sys.Shows.event {s s' : Sys} {e : Event} {maps modes : Bool} {d : DevId}
    (h : s.Shows maps modes d) (hcapacity : Capacity s) (hkeep : ∀ d, s.releasing d = false)
    (hconnecting : s.radio.connecting = none)
    (hreason : ∀ handle reason, e = .disconnected handle reason → reason ≠ -1)
    (hstep : eventStep e s = some s') : s'.Shows maps modes d := by
  rcases (eventStep_devices hstep fun _ => hkeep).2 with hsame | ⟨d', f, hwrite, hdevices⟩
  · exact h.congr (by rw [Sys.marks, Sys.marks, hsame])
  obtain ⟨m, hm, hshows⟩ := h
  obtain ⟨dev, hdev, rfl⟩ := Option.map_eq_some_iff.mp hm
  refine ⟨(if dev.id = d' then f dev else dev).marks, ?_, ?_⟩
  · rw [mark?_setDev hwrite.id hdevices, hdev]
    rfl
  by_cases hid : dev.id = d'
  · rw [if_pos hid]
    cases hwrite with
    | linked _ hsome =>
      rw [hconnecting] at hsome
      cases hsome
    | closed _ | lost _ =>
      exact ⟨hreason _ _ rfl, hshows.len, hshows.maps, hshows.modes⟩
    | found hreq hdev' huuid hroom =>
      exact ⟨by simp [Dev.marks], hcapacity.counted (List.mem_of_find?_eq_some hdev) hroom,
        hshows.maps, hshows.modes⟩
  · rw [if_neg hid]
    exact hshows

end BleKbdHost.Host
