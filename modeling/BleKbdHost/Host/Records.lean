import BleKbdHost.Host.Control

/-!
# What the callbacks leave alone

Callbacks write the connection, the status and the number of report maps of a device, and what a
discovery request reports. The rest of a device, and of the variables of `nimble_hidh.c`, is written
by the main task only.
-/

namespace BleKbdHost.Host

open Hid Keys Conc

/-! ## Devices -/

/-- A device without what callbacks write. -/
def Dev.found (dev : Dev) : Dev :=
  { dev with connId := -1, connected := false, status := 0, reportMapsLen := 0 }

theorem dev?_setDev {s : Sys} {d d' : DevId} {f : Dev → Dev} (hid : ∀ dev, (f dev).id = dev.id) :
    (s.setDev d' f).dev? d = (s.dev? d).map fun dev => if dev.id = d' then f dev else dev := by
  unfold Sys.dev? Sys.setDev
  rw [List.find?_map]
  congr 2
  funext dev
  simp only [Function.comp]
  split
  · rw [hid]
  · rfl

theorem dev?_id {s : Sys} {d : DevId} {dev : Dev} (h : s.dev? d = some dev) : dev.id = d := by
  have hid := List.find?_some h
  exact beq_iff_eq.mp hid

/-- The release of another device. -/
theorem dev?_filter {s s' : Sys} {d d' : DevId} (hne : d' ≠ d)
    (h : s'.hidh.devices = s.hidh.devices.filter (·.id != d')) : s'.dev? d = s.dev? d := by
  unfold Sys.dev?
  rw [h, List.find?_filter]
  congr 1
  funext dev
  by_cases hid : dev.id = d
  · simp [hid, Ne.symm hne]
  · simp [hid]

theorem dev?_of_devices {s s' : Sys} (h : s'.hidh.devices = s.hidh.devices) (d : DevId) :
    s'.dev? d = s.dev? d := by
  rw [Sys.dev?, h]
  rfl

/-- A write that a projection of the device does not see. -/
theorem map_setDev {α : Type} {p : Dev → α} {s : Sys} {d : DevId} {f : Dev → Dev}
    (hp : ∀ dev, p (f dev) = p dev) :
    (s.setDev d f).hidh.devices.map p = s.hidh.devices.map p := by
  simp only [Sys.setDev, List.map_map]
  refine List.map_congr_left fun dev _ => ?_
  simp only [Function.comp]
  split
  · exact hp dev
  · rfl

/-- The devices without what callbacks write, and the buffers freed so far. -/
def Sys.foundDevs (s : Sys) : List Dev × List Nat := (s.hidh.devices.map Dev.found, s.freed)

theorem dev?_foundDevs (s : Sys) (d : DevId) :
    (s.dev? d).map Dev.found = s.foundDevs.1.find? (·.id == d) := by
  rw [Sys.foundDevs, List.find?_map]
  rfl

theorem foundDevs_setDev {s : Sys} {d : DevId} {f : Dev → Dev}
    (hf : ∀ dev, (f dev).found = dev.found) : (s.setDev d f).foundDevs = s.foundDevs :=
  Prod.ext (map_setDev hf) rfl

/-! ### What callbacks write -/

/-- A write of a callback: a connection came about or went down, or a HID service was found. -/
inductive EventWrite (s : Sys) : Event → DevId → (Dev → Dev) → Prop
  | linked {handle : UInt16} {ota identity : Bda} (d : DevId)
      (h : s.radio.connecting.isSome = true) :
      EventWrite s (.connected handle ota identity) d fun dev =>
        { dev with status := -1, connId := (handle.toNat : Int) }
  | closed {handle : UInt16} {reason : Int} (d : DevId) :
      EventWrite s (.disconnected handle reason) d fun dev =>
        { dev with connected := false, status := reason, connId := -1 }
  | lost {handle : UInt16} {reason : Int} (d : DevId) :
      EventWrite s (.disconnected handle reason) d fun dev =>
        { dev with status := reason, connId := -1 }
  | found {i : Nat} {conn : UInt16} {svc : GattSvc} {dev : Dev}
      (hreq : s.radio.gatt[i]? = some (.services conn)) (hdev : s.getByConnId conn = some dev)
      (huuid : svc.uuid16 = bleSvcHidUuid16)
      (hroom : s.nimble.servicesDiscovered < s.nimble.serviceResult.length) :
      EventWrite s (.gattCb i (.svc svc)) dev.id fun dev =>
        { dev with status := 0, reportMapsLen := dev.reportMapsLen + 1 }

/-- No such write touches what only the main task writes. -/
theorem EventWrite.found_eq {s : Sys} {e : Event} {d : DevId} {f : Dev → Dev}
    (h : EventWrite s e d f) (dev : Dev) : (f dev).found = dev.found := by
  cases h <;> rfl

theorem EventWrite.id {s : Sys} {e : Event} {d : DevId} {f : Dev → Dev} (h : EventWrite s e d f)
    (dev : Dev) : (f dev).id = dev.id := by
  cases h <;> rfl

/-- The devices are as before, or a callback wrote to one of them; nothing was freed. -/
def Written (s : Sys) (e : Event) (s' : Sys) : Prop :=
  s'.freed = s.freed ∧ (s'.hidh.devices = s.hidh.devices ∨
    ∃ d f, EventWrite s e d f ∧ s'.hidh.devices = (s.setDev d f).hidh.devices)

theorem Written.same {s s' : Sys} {e : Event} (hfreed : s'.freed = s.freed)
    (hdevices : s'.hidh.devices = s.hidh.devices) : Written s e s' := ⟨hfreed, .inl hdevices⟩

theorem Written.write {s s' : Sys} {e : Event} {d : DevId} {f : Dev → Dev} (h : EventWrite s e d f)
    (hfreed : s'.freed = s.freed) (hdevices : s'.hidh.devices = (s.setDev d f).hidh.devices) :
    Written s e s' := ⟨hfreed, .inr ⟨d, f, h, hdevices⟩⟩

/-- A service that is reported: it does not fit, or it is stored, and counted if it is a HID service
of a device with the connection. -/
theorem svcDisced_cases (s : Sys) (conn : UInt16) (svc : GattSvc) :
    (s.nimble.serviceResult.length ≤ s.nimble.servicesDiscovered ∧
      svcDisced s conn svc = (s.log (.svcReported svc)).failWith .outOfBounds) ∨
    s.nimble.servicesDiscovered < s.nimble.serviceResult.length ∧
      (svcDisced s conn svc).nimble = { s.nimble with
        status := 0
        serviceResult := s.nimble.serviceResult.set s.nimble.servicesDiscovered (some svc)
        servicesDiscovered := s.nimble.servicesDiscovered + 1 } ∧
      (svcDisced s conn svc).discLog = .svcReported svc :: s.discLog ∧
      (svcDisced s conn svc).freed = s.freed ∧
      (((s.getByConnId conn).isNone = true ∨ svc.uuid16 ≠ bleSvcHidUuid16) ∧
          (svcDisced s conn svc).hidh.devices = s.hidh.devices ∨
        ∃ dev, s.getByConnId conn = some dev ∧ svc.uuid16 = bleSvcHidUuid16 ∧
          (svcDisced s conn svc).hidh.devices = (s.setDev dev.id fun dev =>
            { dev with status := 0, reportMapsLen := dev.reportMapsLen + 1 }).hidh.devices) := by
  have hget : ∀ (n : Nimble) (l : List DiscObs),
      ({ s with nimble := n, discLog := l } : Sys).getByConnId conn = s.getByConnId conn :=
    fun _ _ => rfl
  by_cases hroom : s.nimble.servicesDiscovered < s.nimble.serviceResult.length
  · refine .inr ⟨hroom, ?_⟩
    simp only [svcDisced, Sys.store, Sys.log, hroom, ↓reduceIte, hget]
    cases hdev : s.getByConnId conn with
    | none => exact ⟨rfl, rfl, rfl, .inl ⟨.inl rfl, rfl⟩⟩
    | some dev =>
      simp only
      split
      · rename_i huuid
        exact ⟨rfl, rfl, rfl, .inr ⟨dev, rfl, huuid, rfl⟩⟩
      · rename_i huuid
        exact ⟨rfl, rfl, rfl, .inl ⟨.inr huuid, rfl⟩⟩
  · refine .inl ⟨Nat.le_of_not_lt hroom, ?_⟩
    simp only [svcDisced, Sys.store, hroom, ↓reduceIte]

theorem store_devices {α : Type} {s s₀ : Sys} {arr : List (Option α)} {i : Nat} {a : α}
    {f : List (Option α) → Sys} {e : Event}
    (hs : s.freed = s₀.freed ∧ s.hidh.devices = s₀.hidh.devices)
    (h : ∀ arr, (f arr).freed = s₀.freed ∧ (f arr).hidh.devices = s₀.hidh.devices) :
    Written s₀ e (s.store arr i a f) := by
  unfold Sys.store
  split
  · exact .same (h _).1 (h _).2
  · exact .same hs.1 hs.2

theorem gattCb_devices {s s' : Sys} {i : Nat} {rsp : GattRsp} (h : gattCb s i rsp = some s') :
    Written s (.gattCb i rsp) s' := by
  cases gattCb_cases h with
  | @svc conn svc hreq =>
    rcases svcDisced_cases s conn svc with ⟨-, hfail⟩ | ⟨hroom, -, -, hfreed, hsame | hfound⟩
    · rw [hfail]
      exact .same rfl rfl
    · exact .same hfreed hsame.2
    · obtain ⟨dev, hdev, huuid, hdevices⟩ := hfound
      exact .write (.found hreq hdev huuid hroom) hfreed hdevices
  | chr _ _ | dsc _ _ => exact store_devices ⟨rfl, rfl⟩ fun _ => ⟨rfl, rfl⟩
  | found _ _ | lost _ _ _ | unread _ _ => exact .same rfl rfl
  | data bytes _ =>
    simp only [onReadData]
    split <;> exact .same rfl rfl
  | read _ =>
    unfold onReadDone
    split <;> exact .same rfl rfl
  | written _ _ =>
    unfold onWrite
    split <;> exact .same rfl rfl

theorem handling_devices (s : Sys) (p : Posted) (steps : List HidhStep) :
    (s.handling p steps).hidh.devices = s.hidh.devices := by
  cases steps <;> rfl

theorem handling_fault (s : Sys) (p : Posted) (steps : List HidhStep) :
    (s.handling p steps).fault = s.fault := by
  cases steps <;> rfl

/-- The event task is about to release the device. -/
def Sys.releasing (s : Sys) (d : DevId) : Bool :=
  match s.hidh.handling with
  | some (_, .free d' :: _) => d' == d
  | _ => false

theorem dispatch_dev? {s s' : Sys} (h : dispatch s = some s') {d : DevId}
    (hkeep : s.releasing d = false) : s'.dev? d = s.dev? d := by
  unfold dispatch at h
  split at h
  · rename_i p step steps hhandling
    cases h
    rw [dev?_of_devices (handling_devices ..)]
    cases step with
    | free d' =>
      refine dev?_filter ?_ rfl
      simpa [Sys.releasing, hhandling] using hkeep
    | _ => rfl
  · cases h
    rw [dev?_of_devices (handling_devices ..)]
  · split at h
    · cases h
    · cases h
      rw [dev?_of_devices (handling_devices ..)]
      rfl

theorem handling_freed (s : Sys) (p : Posted) (steps : List HidhStep) :
    (s.handling p steps).freed = s.freed := by
  cases steps <;> rfl

theorem dispatch_devices {s s' : Sys} (h : dispatch s = some s')
    (hkeep : ∀ d, s.releasing d = false) : Written s .dispatch s' := by
  have hhandling : ∀ (s₁ : Sys) (p : Posted) (steps : List HidhStep), s₁.freed = s.freed →
      s₁.hidh.devices = s.hidh.devices → Written s .dispatch (s₁.handling p steps) := by
    intro s₁ p steps hfreed hdevices
    exact .same ((handling_freed ..).trans hfreed) ((handling_devices ..).trans hdevices)
  unfold dispatch at h
  split at h
  · rename_i p step steps hsome
    cases h
    cases step with
    | free d =>
      have hrel : s.releasing d = true := by simp [Sys.releasing, hsome]
      rw [hkeep d] at hrel
      cases hrel
    | _ => exact hhandling _ _ _ rfl rfl
  · cases h
    exact hhandling _ _ _ rfl rfl
  · split at h <;> cases h
    exact hhandling _ _ _ rfl rfl

/-- **Without a release, an event writes at most to one device, and frees nothing.** -/
theorem eventStep_devices {e : Event} {s s' : Sys} (h : eventStep e s = some s')
    (hkeep : e = .dispatch → ∀ d, s.releasing d = false) : Written s e s' := by
  cases e with
  | gattCb i rsp => exact gattCb_devices h
  | connected handle ota identity =>
    simp only [eventStep, gapConnected] at h
    split at h
    · cases h
    · rename_i peer hpeer
      split at h
      · cases h
      · cases h
        simp only [connectEvent]
        split
        · exact .same rfl rfl
        · exact .write (.linked _ (by rw [hpeer]; rfl)) rfl rfl
  | connectFailed status =>
    simp only [eventStep, gapConnectFailed, Option.ite_none_right_eq_some, Option.some.injEq] at h
    obtain ⟨-, rfl⟩ := h
    exact .same rfl rfl
  | disconnected handle reason =>
    simp only [eventStep, gapDisconnected] at h
    split at h
    · cases h
    · split at h
      · cases h
      · cases h
        simp only [disconnectEvent]
        split
        · exact .same rfl rfl
        · split
          · exact .write (.closed _) rfl rfl
          · exact .write (.lost _) rfl rfl
  | advertised report =>
    simp only [eventStep, Option.ite_none_right_eq_some, Option.some.injEq] at h
    obtain ⟨-, rfl⟩ := h
    exact .same rfl rfl
  | encChange handle status =>
    simp only [eventStep, gapEncChange, Option.ite_none_right_eq_some, Option.some.injEq] at h
    obtain ⟨-, rfl⟩ := h
    exact .same rfl rfl
  | repeatPairing handle =>
    simp only [eventStep, gapRepeatPairing] at h
    split at h <;> cases h
    exact .same rfl rfl
  | notifyRx handle attr data mem =>
    obtain rfl | ⟨fault, _, -, rfl⟩ | ⟨dev, event, -, -, -, -, rfl⟩ := gapNotifyRx_cases h <;>
      exact .same rfl rfl
  | mtuExchanged handle =>
    simp only [eventStep, gapMtuExchanged, Option.ite_none_right_eq_some, Option.some.injEq] at h
    obtain ⟨-, rfl⟩ := h
    exact .same rfl rfl
  | dispatch => exact dispatch_devices h (hkeep rfl)
  | tick _ | startPairing | selectDevice _ | bonded _ _ =>
    cases h
    exact .same rfl rfl

/-- **Without a release, events leave the rest of the devices alone and free nothing.** -/
theorem eventStep_foundDevs {e : Event} {s s' : Sys} (h : eventStep e s = some s')
    (hkeep : e = .dispatch → ∀ d, s.releasing d = false) : s'.foundDevs = s.foundDevs := by
  obtain ⟨hfreed, hsame | ⟨d, f, hwrite, hdevices⟩⟩ := eventStep_devices h hkeep
  · rw [Sys.foundDevs, Sys.foundDevs, hsame, hfreed]
  · rw [Sys.foundDevs, hdevices, hfreed]
    exact foundDevs_setDev hwrite.found_eq

/-- **Only the release of a device changes the rest of it.** -/
theorem eventStep_found {e : Event} {s s' : Sys} (h : eventStep e s = some s') {d : DevId}
    (hkeep : e = .dispatch → s.releasing d = false) :
    (s'.dev? d).map Dev.found = (s.dev? d).map Dev.found := by
  by_cases he : e = .dispatch
  · subst he
    rw [dispatch_dev? h (hkeep rfl)]
  · rw [dev?_foundDevs, dev?_foundDevs, eventStep_foundDevs h fun he' => absurd he' he]

/-! ## Variables of the transport -/

/-- The parser's variables are not for callbacks. -/
theorem gattCb_parserStatics {s s' : Sys} {i : Nat} {rsp : GattRsp} (h : gattCb s i rsp = some s') :
    s'.nimble.parser = s.nimble.parser := by
  cases gattCb_cases h with
  | svc svc _ =>
    refine Sys.store_of (P := fun s' => s'.nimble.parser = s.nimble.parser) rfl fun arr => ?_
    simp only
    split
    · rfl
    · split <;> rfl
  | chr _ _ | dsc _ _ =>
    exact Sys.store_of (P := fun s' => s'.nimble.parser = s.nimble.parser) rfl fun _ => rfl
  | found _ _ | lost _ _ _ | unread _ _ => rfl
  | data bytes _ =>
    simp only [onReadData]
    split <;> rfl
  | read _ =>
    unfold onReadDone
    split <;> rfl
  | written _ _ =>
    unfold onWrite
    split <;> rfl

/-- The variables without the semaphores. -/
def Nimble.core (n : Nimble) : Nimble := { n with cbSemaphore := false, secSemaphore := false }

theorem dispatch_nimble {s s' : Sys} (h : dispatch s = some s') :
    s'.nimble = s.nimble ∧ s'.discLog = s.discLog ∧ s'.nextBuf = s.nextBuf ∧
      s'.reads = s.reads := by
  have hhandling : ∀ (s : Sys) (p : Posted) (steps : List HidhStep),
      (s.handling p steps).nimble = s.nimble ∧ (s.handling p steps).discLog = s.discLog ∧
        (s.handling p steps).nextBuf = s.nextBuf ∧ (s.handling p steps).reads = s.reads := by
    intro s p steps
    cases steps <;> exact ⟨rfl, rfl, rfl, rfl⟩
  unfold dispatch at h
  split at h
  · rename_i p step steps hsome
    cases h
    obtain ⟨hnimble, hlog, hnext, hreads⟩ := hhandling (step.exec s) p steps
    rw [hnimble, hlog, hnext, hreads]
    cases step <;> exact ⟨rfl, rfl, rfl, rfl⟩
  · cases h
    exact hhandling ..
  · split at h
    · cases h
    · cases h
      exact hhandling ..

/-- **Beside the semaphores, only GATT callbacks write them.** -/
theorem eventStep_core {e : Event} {s s' : Sys} (h : eventStep e s = some s')
    (he : ∀ i rsp, e ≠ .gattCb i rsp) :
    s'.nimble.core = s.nimble.core ∧ s'.discLog = s.discLog ∧ s'.nextBuf = s.nextBuf ∧
      s'.reads = s.reads := by
  cases e with
  | gattCb i rsp => exact absurd rfl (he i rsp)
  | connected handle ota identity =>
    simp only [eventStep, gapConnected] at h
    split at h
    · cases h
    · split at h
      · cases h
      · cases h
        simp only [connectEvent]
        split <;> exact ⟨rfl, rfl, rfl, rfl⟩
  | connectFailed status =>
    simp only [eventStep, gapConnectFailed, Option.ite_none_right_eq_some, Option.some.injEq] at h
    obtain ⟨-, rfl⟩ := h
    exact ⟨rfl, rfl, rfl, rfl⟩
  | disconnected handle reason =>
    simp only [eventStep, gapDisconnected] at h
    split at h
    · cases h
    · split at h
      · cases h
      · cases h
        simp only [disconnectEvent]
        split
        · exact ⟨rfl, rfl, rfl, rfl⟩
        · split <;> exact ⟨rfl, rfl, rfl, rfl⟩
  | advertised report =>
    simp only [eventStep, Option.ite_none_right_eq_some, Option.some.injEq] at h
    obtain ⟨-, rfl⟩ := h
    exact ⟨rfl, rfl, rfl, rfl⟩
  | encChange handle status =>
    simp only [eventStep, gapEncChange, Option.ite_none_right_eq_some, Option.some.injEq] at h
    obtain ⟨-, rfl⟩ := h
    exact ⟨rfl, rfl, rfl, rfl⟩
  | repeatPairing handle =>
    simp only [eventStep, gapRepeatPairing] at h
    split at h <;> cases h
    exact ⟨rfl, rfl, rfl, rfl⟩
  | notifyRx handle attr data mem =>
    obtain rfl | ⟨fault, _, -, rfl⟩ | ⟨dev, event, -, -, -, -, rfl⟩ := gapNotifyRx_cases h <;>
      exact ⟨rfl, rfl, rfl, rfl⟩
  | mtuExchanged handle =>
    simp only [eventStep, gapMtuExchanged, Option.ite_none_right_eq_some, Option.some.injEq] at h
    obtain ⟨-, rfl⟩ := h
    exact ⟨rfl, rfl, rfl, rfl⟩
  | dispatch =>
    obtain ⟨hnimble, hrest⟩ := dispatch_nimble h
    exact ⟨congrArg Nimble.core hnimble, hrest⟩
  | tick _ | startPairing | selectDevice _ | bonded _ _ =>
    cases h
    exact ⟨rfl, rfl, rfl, rfl⟩

theorem gattCb_reads {s s' : Sys} {i : Nat} {rsp : GattRsp} (h : gattCb s i rsp = some s') :
    s'.reads = s.reads := by
  cases gattCb_cases h with
  | svc svc _ =>
    refine Sys.store_of (P := fun s' => s'.reads = s.reads) rfl fun arr => ?_
    simp only
    split
    · rfl
    · split <;> rfl
  | chr _ _ | dsc _ _ => exact Sys.store_of (P := fun s' => s'.reads = s.reads) rfl fun _ => rfl
  | found _ _ | lost _ _ _ | unread _ _ => rfl
  | data bytes _ =>
    simp only [onReadData]
    split <;> rfl
  | read _ =>
    unfold onReadDone
    split <;> rfl
  | written _ _ =>
    unfold onWrite
    split <;> rfl

/-- Reads end in the main task. -/
theorem eventStep_reads {e : Event} {s s' : Sys} (h : eventStep e s = some s') :
    s'.reads = s.reads := by
  cases e with
  | gattCb i rsp => exact gattCb_reads h
  | _ => exact (eventStep_core h nofun).2.2.2

theorem eventStep_parserStatics {e : Event} {s s' : Sys} (h : eventStep e s = some s') :
    s'.nimble.parser = s.nimble.parser := by
  cases e with
  | gattCb i rsp => exact gattCb_parserStatics h
  | _ =>
    change s'.nimble.core.parser = s.nimble.core.parser
    rw [(eventStep_core h nofun).1]

/-! ## What discovery writes -/

theorem DevField.written_id (field : DevField) (dev : Dev) :
    ((field.write dev).toOption.getD dev).id = dev.id := by
  cases hwrite : field.write dev with
  | error _ => rfl
  | ok dev' => exact congrArg DevKey.id (DevField.write_key hwrite)

/-- A write to a field fails or is made. -/
theorem exec_setField_cases (s : Sys) (d : DevId) (field : DevField) (c : Choice) :
    (∃ fault, (Op.setField d field).exec c s = s.failWith fault) ∨
    ∃ dev dev', s.dev? d = some dev ∧ field.write dev = .ok dev' ∧
      (Op.setField d field).exec c s =
        s.setDev d fun dev => (field.write dev).toOption.getD dev := by
  cases hdev : s.dev? d with
  | none => exact .inl ⟨.useAfterFree, by simp only [Op.exec, hdev]⟩
  | some dev =>
    cases hwrite : field.write dev with
    | error fault => exact .inl ⟨fault, by simp only [Op.exec, hdev, hwrite, Sys.absorb]⟩
    | ok dev' =>
      exact .inr ⟨dev, dev', rfl, hwrite, by simp only [Op.exec, hdev, hwrite, Sys.absorb]⟩

/-- A field that is written. -/
theorem exec_setField {s : Sys} {d : DevId} {field : DevField} {dev dev' : Dev} (c : Choice)
    (hdev : s.dev? d = some dev) (hwrite : field.write dev = .ok dev') :
    ((Op.setField d field).exec c s).dev? d = some dev' ∧
      ((Op.setField d field).exec c s).nimble = s.nimble := by
  simp only [Op.exec, hdev, hwrite, Sys.absorb]
  constructor
  · rw [dev?_setDev field.written_id, hdev,
      Option.map_some, if_pos (dev?_id hdev), hwrite]
    rfl
  · rfl

end BleKbdHost.Host
