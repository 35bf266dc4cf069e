import BleKbdHost.Host.Handles
import BleKbdHost.Mem.Ledger
import Mathlib.Algebra.Order.Group.Multiset
import Mathlib.Tactic.Abel

/-!
# The life of the HID host

`esp_hidh_init`, `esp_hidh_deinit` and the allocation and release of device records, with what they
create and delete, called in any order. Any request may be refused. The record of a device is as
`esp_hidh_dev_malloc` leaves it: what discovery puts into it is not part of it here.

Two things are lost on the way. The security semaphore is created by every initialisation and deleted
by none, and an initialisation empties the device list without a look at it.
-/

namespace BleKbdHost.Lifecycle

open Hid Mem
open Handles (espOk espFail)

/-- What the HID host creates. -/
inductive Rtos where
  /-- `s_esp_hidh_devices_semaphore`. -/
  | devicesMutex
  /-- `s_esp_hidh_event_loop_h`. -/
  | eventLoop
  /-- `s_ble_hidh_cb_semaphore`. -/
  | cbSemaphore
  /-- `s_ble_hidh_sec_semaphore`. -/
  | secSemaphore
  /-- `esp_hidh_dev_t`. -/
  | dev
  /-- Its semaphore. -/
  | devSemaphore
  /-- Its mutex. -/
  | devMutex
  deriving DecidableEq, Repr

abbrev RtosHandle := Handle Rtos

abbrev RtosM (α : Type) := Script Rtos Fault α

/-- A device record: its block and what it points to. -/
structure DevRecord where
  block : RtosHandle
  semaphore : Option RtosHandle := none
  mutex : Option RtosHandle := none

/-- The statics. Before the first `TAILQ_INIT` there is no list to insert into. -/
structure HidhStatics where
  devices : Option (List DevRecord) := none
  devicesSemaphore : Option RtosHandle := none
  eventLoopH : Option RtosHandle := none
  cbSemaphore : Option RtosHandle := none
  secSemaphore : Option RtosHandle := none
  /-- `event_loop_handle` of `nimble_hidh.c`. -/
  eventLoopHandle : Option RtosHandle := none

def espErrNoMem : Int := 0x101
def espErrInvalidArg : Int := 0x102
def espErrInvalidState : Int := 0x103

/-- Deletes what must be there. -/
def delete : Option RtosHandle → RtosM Unit
  | none => Script.fault .nullDeref
  | some r => Script.drop (some r)

/-- Takes or gives a mutex, if there is one. -/
def useIfAny : Option RtosHandle → RtosM Unit
  | none => pure ()
  | some r => Script.use r

/-- `lock_devices`, `unlock_devices`. -/
def lockDevices (st : HidhStatics) : RtosM Unit := useIfAny st.devicesSemaphore

/-! ### Initialisation -/

/-- `esp_ble_hidh_init`; `config` says whether there is a configuration. -/
def espBleHidhInit (config : Bool) (st : HidhStatics) : RtosM (Int × HidhStatics) :=
  if config = false then pure (espErrInvalidArg, st)
  else if st.cbSemaphore.isSome then pure (espErrInvalidState, st)
  else do
    let cb ← Script.take .cbSemaphore
    let st := { st with eventLoopHandle := st.eventLoopH, cbSemaphore := cb }
    if cb.isNone then pure (espErrNoMem, st)
    else
      let sec ← Script.take .secSemaphore
      pure (espOk, { st with secSemaphore := sec })

/-- The label `alloc_fail`. -/
def allocFail (ret : Int) (st : HidhStatics) : RtosM (Int × HidhStatics) := do
  Script.drop st.devicesSemaphore
  Script.drop st.eventLoopH
  pure (ret, { st with devicesSemaphore := none, eventLoopH := none })

/-- `esp_hidh_init`. A loop that is not created leaves `s_esp_hidh_event_loop_h` as it was. -/
def espHidhInit (config : Bool) (st : HidhStatics) : RtosM (Int × HidhStatics) :=
  if config = false then pure (espErrInvalidArg, st)
  else if st.devicesSemaphore.isSome then pure (espErrInvalidState, st)
  else do
    let loop ← Script.take .eventLoop
    let mutex ← Script.take .devicesMutex
    let st := { st with
      devices := some [], eventLoopH := loop.or st.eventLoopH, devicesSemaphore := mutex }
    if st.devicesSemaphore.isNone || st.eventLoopH.isNone then allocFail espErrNoMem st
    else
      let registered ← Script.ask
      if registered = false then allocFail espErrNoMem st
      else
        let (ret, st) ← espBleHidhInit config st
        if ret ≠ espOk then allocFail ret st else pure (espOk, st)

/-- `esp_ble_hidh_deinit`. -/
def espBleHidhDeinit (st : HidhStatics) : RtosM (Int × HidhStatics) :=
  if st.cbSemaphore.isNone then pure (espErrInvalidState, st)
  else do
    Script.drop st.cbSemaphore
    pure (espOk, { st with cbSemaphore := none })

/-- `esp_hidh_deinit`. -/
def espHidhDeinit (st : HidhStatics) : RtosM (Int × HidhStatics) :=
  if st.devicesSemaphore.isNone then pure (espErrInvalidState, st)
  else if (st.devices.getD []).isEmpty = false then pure (espErrInvalidState, st)
  else do
    let (ret, st) ← espBleHidhDeinit st
    if ret ≠ espOk then pure (ret, st)
    else
      delete st.devicesSemaphore
      delete st.eventLoopH
      pure (espOk, { st with devices := some [], devicesSemaphore := none, eventLoopH := none })

/-! ### Device records -/

/-- `esp_hidh_dev_resources_free`, as far as `esp_hidh_dev_malloc` allocates. -/
def espHidhDevResourcesFree (dev : DevRecord) : RtosM Unit := do
  useIfAny dev.mutex
  Script.drop dev.semaphore
  useIfAny dev.mutex
  Script.drop dev.mutex
  Script.drop (some dev.block)

/-- `TAILQ_INSERT_TAIL`. -/
def insertTail (st : HidhStatics) (dev : DevRecord) : RtosM HidhStatics :=
  match st.devices with
  | none => Script.fault .nullDeref
  | some devs => pure { st with devices := some (devs ++ [dev]) }

/-- `esp_hidh_dev_malloc`. -/
def espHidhDevMalloc (st : HidhStatics) : RtosM (Option DevRecord × HidhStatics) := do
  match ← Script.take .dev with
  | none => pure (none, st)
  | some block =>
    let semaphore ← Script.take .devSemaphore
    if semaphore.isNone then
      espHidhDevResourcesFree { block }
      pure (none, st)
    else
      let mutex ← Script.take .devMutex
      if mutex.isNone then
        espHidhDevResourcesFree { block, semaphore }
        pure (none, st)
      else
        lockDevices st
        let st ← insertTail st { block, semaphore, mutex }
        lockDevices st
        pure (some { block, semaphore, mutex }, st)

/-- `esp_hidh_dev_free_inner` of the record at this address. -/
def espHidhDevFreeInner (dev : Option RtosHandle) (st : HidhStatics) : RtosM (Int × HidhStatics) :=
  match dev with
  | none => pure (espFail, st)
  | some block => do
    lockDevices st
    match (st.devices.getD []).find? (·.block == block) with
    | none =>
      lockDevices st
      pure (espFail, st)
    | some d =>
      espHidhDevResourcesFree d
      lockDevices st
      pure (espOk, { st with devices := st.devices.map (·.eraseP (·.block == block)) })

/-! ### Calls in any order -/

/-- A call. -/
inductive Call where
  | init (config : Bool)
  | deinit
  | devMalloc
  | devFree (dev : Option RtosHandle)

/-- What the calls have come to: how many initialisations succeeded, and how many records were allocated
while the HID host was not initialised. -/
structure Tally where
  inits : ℕ := 0
  early : ℕ := 0

/-- A call, and what it comes to. -/
def Call.run (n : Tally) (st : HidhStatics) : Call → RtosM (Tally × HidhStatics)
  | .init config => do
    let (ret, st) ← espHidhInit config st
    pure (if ret = espOk then { n with inits := n.inits + 1 } else n, st)
  | .deinit => do
    let (_, st) ← espHidhDeinit st
    pure (n, st)
  | .devMalloc => do
    let (dev, st') ← espHidhDevMalloc st
    pure (if dev.isSome && st.devicesSemaphore.isNone then { n with early := n.early + 1 } else n, st')
  | .devFree dev => do
    let (_, st) ← espHidhDevFreeInner dev st
    pure (n, st)

def runCalls : List Call → Tally → HidhStatics → RtosM (Tally × HidhStatics)
  | [], n, st => pure (n, st)
  | call :: calls, n, st => do
    let (n, st) ← call.run n st
    runCalls calls n st

/-- A record is allocated before the first initialisation with a configuration. -/
def Premature (calls : List Call) : Prop :=
  ∃ before after, calls = before ++ .devMalloc :: after ∧ .init true ∉ before

/-! ## What the statics hold -/

/-- What belongs to a record. -/
def DevRecord.owned (dev : DevRecord) : Multiset RtosHandle :=
  {dev.block} + held dev.semaphore + held dev.mutex

/-- What belongs to the records on the list. -/
def HidhStatics.records (st : HidhStatics) : Multiset RtosHandle :=
  ((st.devices.getD []).map DevRecord.owned).sum

/-- What the statics hold. The security semaphore is not among it: nothing ever deletes it. -/
def HidhStatics.owned (st : HidhStatics) : Multiset RtosHandle :=
  held st.devicesSemaphore + held st.eventLoopH + held st.cbSemaphore + st.records

/-- What belongs to records that are on the list while the HID host is not initialised. -/
def HidhStatics.strays (st : HidhStatics) : Multiset RtosHandle :=
  if st.devicesSemaphore.isNone then st.records else 0

/-- The HID host is initialised; the transport posts to its event loop. -/
structure Up (st : HidhStatics) : Prop where
  listed : st.devices.isSome = true
  mutex : st.devicesSemaphore.isSome = true
  loop : st.eventLoopH.isSome = true
  cb : st.cbSemaphore.isSome = true
  posts : st.eventLoopHandle = st.eventLoopH

/-- It is not. -/
structure Down (st : HidhStatics) : Prop where
  mutex : st.devicesSemaphore = none
  loop : st.eventLoopH = none
  cb : st.cbSemaphore = none

section Specs

variable {G : (ℕ → Bool) → Prop} {st : HidhStatics} {own lost : Multiset RtosHandle}

/-- No fault, and no misuse. -/
abbrev Never (_ : Fault) : Prop := False

theorem Down.owned_eq (h : Down st) : st.owned = st.strays := by
  simp [HidhStatics.owned, HidhStatics.strays, h.mutex, h.loop, h.cb, held]

theorem Up.strays_eq (h : Up st) : st.strays = 0 := by
  obtain ⟨mutex, hmutex⟩ := Option.isSome_iff_exists.mp h.mutex
  simp [HidhStatics.strays, hmutex]

theorem strays_of_empty (h : st.devices = some []) : st.strays = 0 := by
  simp [HidhStatics.strays, HidhStatics.records, h]

theorem mutex_le_owned (st : HidhStatics) : held st.devicesSemaphore ≤ st.owned := by
  simp only [HidhStatics.owned, Multiset.add_assoc]
  exact Multiset.le_add_right _ _

/-! ### Initialisation -/

theorem espErrNoMem_ne : espErrNoMem ≠ espOk := by decide

/-- A semaphore for security, or none where a request may be refused. -/
def Secures (G : (ℕ → Bool) → Prop) (sec : Option RtosHandle) : Prop :=
  (∀ r ∈ held sec, r.kind = .secSemaphore) ∧ (¬MayRefuse G → (held sec).card = 1)

theorem Secures.some {r : RtosHandle} (h : r.kind = .secSemaphore) : Secures G (.some r) :=
  ⟨fun s hs => by rw [Multiset.mem_singleton.mp hs]; exact h, fun _ => rfl⟩

theorem Secures.none (h : MayRefuse G) : Secures G Option.none :=
  ⟨fun _ hs => absurd hs (Multiset.notMem_zero _), fun hnot => absurd h hnot⟩

/-- The transport: it creates both semaphores, or one, or nothing. -/
theorem spec_espBleHidhInit (hcb : st.cbSemaphore = none) :
    Spec G own (espBleHidhInit true st) (fun r own' =>
      (r.1 ≠ espOk ∧ own' = own ∧
        r.2 = { st with eventLoopHandle := st.eventLoopH, cbSemaphore := none }) ∨
      (r.1 = espOk ∧ ∃ cb sec, Secures G sec ∧ own' = held (some cb) + held sec + own ∧
        r.2 = { st with
          eventLoopHandle := st.eventLoopH, cbSemaphore := some cb, secSemaphore := sec })) Never := by
  unfold espBleHidhInit
  rw [if_neg (by decide), if_neg (by simp [hcb])]
  refine Spec.bind (Q := fun cb own' => (cb = none ∧ own' = own) ∨
    ∃ r, cb = some r ∧ own' = r ::ₘ own) (Spec.take (fun r _ => .inr ⟨r, rfl, rfl⟩)
      fun _ => .inl ⟨rfl, rfl⟩) fun cb own' hcb' => ?_
  rcases hcb' with ⟨rfl, rfl⟩ | ⟨cb, rfl, rfl⟩
  · exact Spec.pure (.inl ⟨espErrNoMem_ne, rfl, rfl⟩)
  · refine Spec.bind (Q := fun sec own' => Secures G sec ∧ own' = held sec + (cb ::ₘ own))
      (Spec.take (fun r hr => ⟨.some hr, by rw [held, Multiset.singleton_add]⟩)
        fun hrefuse => ⟨.none hrefuse, by rw [held, Multiset.zero_add]⟩) fun sec own' hsec => ?_
    obtain ⟨hsec, rfl⟩ := hsec
    refine Spec.pure (.inr ⟨rfl, cb, sec, hsec, ?_, rfl⟩)
    simp only [held, ← Multiset.singleton_add]
    abel

/-- What was created is deleted again. -/
theorem spec_allocFail (ret : Int)
    (hown : own = held st.devicesSemaphore + held st.eventLoopH + lost) :
    Spec G own (allocFail ret st) (fun r own' => own' = lost ∧ r.1 = ret ∧
      r.2 = { st with devicesSemaphore := none, eventLoopH := none }) Never := by
  unfold allocFail
  refine Spec.bind (Q := fun _ own' => own' = held st.eventLoopH + lost)
    (Spec.drop (by rw [hown, Multiset.add_assoc]) rfl) fun _ own' hown' => ?_
  refine Spec.bind (Q := fun _ own' => own' = lost) (Spec.drop hown' rfl) fun _ own' hown' => ?_
  exact Spec.pure ⟨hown', rfl, rfl⟩

/-- **Initialisation is all or nothing,** apart from the security semaphore. The list is emptied in
either case, and what was on it stays out. -/
theorem spec_espHidhInit (h : Down st) : Spec G own (espHidhInit true st) (fun r own' =>
    r.2.devices = some [] ∧ ((r.1 ≠ espOk ∧ own' = own ∧ Down r.2) ∨
    (r.1 = espOk ∧ Up r.2 ∧ ∃ sec, Secures G sec ∧ own' = r.2.owned + (held sec + own)))) Never := by
  unfold espHidhInit
  rw [if_neg (by decide), if_neg (by simp [h.mutex])]
  refine Spec.bind (Q := fun loop own' => own' = held loop + own)
    (Spec.take (fun r _ => by rw [held, Multiset.singleton_add]) fun _ => by
      rw [held, Multiset.zero_add]) fun loop own' hown' => ?_
  refine Spec.bind (Q := fun mutex own' => own' = held mutex + held loop + own)
    (Spec.take (fun r _ => by rw [hown', held, ← Multiset.singleton_add, Multiset.add_assoc])
      fun _ => by rw [hown', held, Multiset.zero_add]) fun mutex own' hown' => ?_
  simp only [h.loop, Option.or_none]
  have hfail : ∀ {ret : Int} {st' : HidhStatics}, ret ≠ espOk → st'.devices = some [] →
      st'.cbSemaphore = none → st'.devicesSemaphore = mutex → st'.eventLoopH = loop →
      Spec G own' (allocFail ret st') (fun r own' =>
        r.2.devices = some [] ∧ ((r.1 ≠ espOk ∧ own' = own ∧ Down r.2) ∨
        (r.1 = espOk ∧ Up r.2 ∧ ∃ sec, Secures G sec ∧ own' = r.2.owned + (held sec + own)))) Never := by
    intro ret st' hret hdevices hcb hmutex hloop
    refine (spec_allocFail ret (by rw [hmutex, hloop, hown'])).mono (fun r own' hr => ?_) fun _ => id
    obtain ⟨hown, hrc, hst⟩ := hr
    refine ⟨by rw [hst]; exact hdevices, .inl ⟨by rw [hrc]; exact hret, hown, ?_⟩⟩
    rw [hst]
    exact ⟨rfl, rfl, hcb⟩
  refine Spec.ite (fun _ => hfail espErrNoMem_ne rfl h.cb rfl rfl) fun hboth => ?_
  refine Spec.bind (Q := fun _ own'' => own'' = own') (Spec.ask rfl fun _ => rfl)
    fun registered own'' hown'' => ?_
  subst hown''
  refine Spec.ite (fun _ => hfail espErrNoMem_ne rfl h.cb rfl rfl) fun _ => ?_
  refine Spec.bind (spec_espBleHidhInit h.cb) fun r own'' hr => ?_
  obtain ⟨ret, st'⟩ := r
  rcases hr with ⟨hret, rfl, hst'⟩ | ⟨hret, cb, sec, hsec, hown'', hst'⟩
  · obtain rfl := hst'
    exact Spec.ite (fun _ => hfail hret rfl rfl rfl rfl) fun hok => absurd hret hok
  · obtain rfl := hst'
    refine Spec.ite (fun hne => absurd hret hne) fun _ =>
      Spec.pure ⟨rfl, .inr ⟨rfl, ?_, sec, hsec, ?_⟩⟩
    · have hboth : mutex.isSome = true ∧ loop.isSome = true := by
        simpa [Option.isSome_iff_ne_none] using hboth
      exact ⟨rfl, hboth.1, hboth.2, rfl, rfl⟩
    · rw [hown'', hown']
      simp only [HidhStatics.owned, HidhStatics.records, Option.getD_some, List.map_nil, List.sum_nil]
      abel

/-! ### Deinitialisation -/

theorem spec_delete {r? : Option RtosHandle} (hsome : r?.isSome = true)
    (hown : own = held r? + lost) : Spec G own (delete r?) (fun _ own' => own' = lost) Never := by
  cases r? with
  | none => cases hsome
  | some r => exact Spec.drop hown rfl

/-- **Deinitialisation** gives back what the statics hold, or does nothing. -/
theorem spec_espHidhDeinit (h : Up st ∨ Down st) (hown : own = st.owned + lost) :
    Spec G own (espHidhDeinit st) (fun r own' => own' = r.2.owned + lost ∧ (Up r.2 ∨ Down r.2) ∧
      (r.2 = st ∨ r.2.devices = some [])) Never := by
  unfold espHidhDeinit
  refine Spec.ite (fun _ => Spec.pure ⟨hown, h, .inl rfl⟩) fun hmutex => ?_
  rcases h with h | h
  swap
  · rw [h.mutex] at hmutex
    exact absurd rfl hmutex
  refine Spec.ite (fun _ => Spec.pure ⟨hown, .inl h, .inl rfl⟩) fun hempty => ?_
  have hnone : st.devices.getD [] = [] := by simpa using hempty
  unfold espBleHidhDeinit
  obtain ⟨cb, hcb⟩ := Option.isSome_iff_exists.mp h.cb
  rw [if_neg (by simp [hcb])]
  have hsplit : own = held st.cbSemaphore +
      (held st.devicesSemaphore + (held st.eventLoopH + lost)) := by
    simp only [hown, HidhStatics.owned, HidhStatics.records, hnone, List.map_nil, List.sum_nil]
    abel
  have hble : Spec G own (do
      Script.drop st.cbSemaphore
      pure (espOk, { st with cbSemaphore := none }) : RtosM (Int × HidhStatics)) (fun r own' =>
        own' = held st.devicesSemaphore + (held st.eventLoopH + lost) ∧
          r = (espOk, { st with cbSemaphore := none })) Never := by
    refine Spec.bind
      (Q := fun _ own' => own' = held st.devicesSemaphore + (held st.eventLoopH + lost))
      (Spec.drop hsplit rfl) fun _ own' hown' => ?_
    exact Spec.pure ⟨hown', rfl⟩
  refine Spec.bind hble fun r own' hr => ?_
  obtain ⟨hown', rfl⟩ := hr
  refine Spec.ite (fun hne => absurd rfl hne) fun _ => ?_
  refine Spec.bind (spec_delete h.mutex hown') fun _ own' hown' => ?_
  refine Spec.bind (spec_delete h.loop hown') fun _ own' hown' => ?_
  have hdown : Down { st with
      devices := some [], cbSemaphore := none, devicesSemaphore := none, eventLoopH := none } :=
    ⟨rfl, rfl, rfl⟩
  refine Spec.pure ⟨?_, .inr hdown, .inr rfl⟩
  rw [hown', hdown.owned_eq, strays_of_empty rfl, Multiset.zero_add]

/-! ### Device records -/

/-- Taking and giving what is owned. -/
theorem spec_useIfAny {r? : Option RtosHandle} (hown : held r? ≤ own) :
    Spec G own (useIfAny r?) (fun _ own' => own' = own) Never := by
  cases r? with
  | none => exact Spec.pure rfl
  | some r => exact Spec.use (Multiset.singleton_le.mp hown) rfl

theorem spec_resourcesFree {dev : DevRecord} (hown : own = dev.owned + lost) :
    Spec G own (espHidhDevResourcesFree dev) (fun _ own' => own' = lost) Never := by
  have hsplit : own = held dev.semaphore + (held dev.mutex + (held (some dev.block) + lost)) := by
    rw [hown, DevRecord.owned, held]
    abel
  unfold espHidhDevResourcesFree
  have hmutex : held dev.mutex ≤ own := by
    rw [hown, DevRecord.owned]
    exact (Multiset.le_add_left _ _).trans (Multiset.le_add_right _ _)
  refine Spec.bind (spec_useIfAny hmutex) fun _ own' hown' => ?_
  subst hown'
  refine Spec.bind (Q := fun _ own' => own' = held dev.mutex + (held (some dev.block) + lost))
    (Spec.drop hsplit rfl) fun _ own' hown' => ?_
  subst hown'
  refine Spec.bind (spec_useIfAny (Multiset.le_add_right _ _)) fun _ own' hown' => ?_
  subst hown'
  refine Spec.bind (Q := fun _ own' => own' = held (some dev.block) + lost) (Spec.drop rfl rfl)
    fun _ own' hown' => ?_
  exact Spec.drop hown' rfl

/-- The list was never initialised. -/
abbrev Unlisted (st : HidhStatics) (fault : Fault) : Prop := fault = .nullDeref ∧ st.devices = none

/-- **The allocation of a record:** it is listed with all that belongs to it, or nothing is kept. -/
theorem spec_espHidhDevMalloc (hmutex : held st.devicesSemaphore ≤ own) :
    Spec G own (espHidhDevMalloc st) (fun r own' => (r.1 = none ∧ r.2 = st ∧ own' = own) ∨
      ∃ dev devs, r.1 = some dev ∧ dev.owned.card = 3 ∧ st.devices = some devs ∧
        r.2 = { st with devices := some (devs ++ [dev]) } ∧ own' = dev.owned + own) (Unlisted st) := by
  unfold espHidhDevMalloc
  refine Spec.bind (Q := fun block own' => (block = none ∧ own' = own) ∨
    ∃ r, block = some r ∧ own' = {r} + own) (Spec.take (fun r _ => .inr ⟨r, rfl, rfl⟩)
      fun _ => .inl ⟨rfl, rfl⟩) fun block own' hblock => ?_
  rcases hblock with ⟨rfl, rfl⟩ | ⟨block, rfl, rfl⟩
  · exact Spec.pure (.inl ⟨rfl, rfl, rfl⟩)
  refine Spec.bind (Q := fun semaphore own' => own' = held semaphore + ({block} + own))
    (Spec.take (fun r _ => rfl) fun _ => (Multiset.zero_add _).symm) fun semaphore own' hown' => ?_
  refine Spec.ite (fun hnone => ?_) fun hsemaphore => ?_
  · obtain rfl := Option.isNone_iff_eq_none.mp hnone
    have hblock : own' = DevRecord.owned { block } + own := by
      rw [hown']
      simp only [DevRecord.owned, held]
      abel
    refine Spec.bind ((spec_resourcesFree hblock).mono (fun _ _ => id) fun _ => False.elim)
      fun _ own'' hown'' => ?_
    exact Spec.pure (.inl ⟨rfl, rfl, hown''⟩)
  refine Spec.bind (Q := fun mutex own'' => own'' = held mutex + own')
    (Spec.take (fun r _ => rfl) fun _ => (Multiset.zero_add _).symm) fun mutex own'' hown'' => ?_
  have hrecord : own'' = DevRecord.owned { block, semaphore, mutex } + own := by
    rw [hown'', hown', DevRecord.owned]
    abel
  refine Spec.ite (fun hnone => ?_) fun hmutex' => ?_
  · obtain rfl := Option.isNone_iff_eq_none.mp hnone
    refine Spec.bind ((spec_resourcesFree hrecord).mono (fun _ _ => id) fun _ => False.elim)
      fun _ own₃ hown₃ => ?_
    exact Spec.pure (.inl ⟨rfl, rfl, hown₃⟩)
  have hlock : held st.devicesSemaphore ≤ own'' := by
    rw [hrecord]
    exact hmutex.trans (Multiset.le_add_left _ _)
  refine Spec.bind ((spec_useIfAny hlock).mono (fun _ _ => id) fun _ => False.elim)
    fun _ own₃ hown₃ => ?_
  subst hown₃
  cases hdevs : st.devices with
  | none =>
    have hinsert : insertTail st { block, semaphore, mutex } = Script.fault .nullDeref := by
      rw [insertTail, hdevs]
    rw [hinsert]
    exact Spec.bind (Q := fun _ _ => False) (Spec.fault ⟨rfl, hdevs⟩) fun _ _ => False.elim
  | some devs =>
    have hinsert : insertTail st { block, semaphore, mutex } =
        pure { st with devices := some (devs ++ [{ block, semaphore, mutex }]) } := by
      rw [insertTail, hdevs]
    rw [hinsert]
    refine Spec.bind (Q := fun st' own' => own' = own₃ ∧
      st' = { st with devices := some (devs ++ [{ block, semaphore, mutex }]) })
      (Spec.pure ⟨rfl, rfl⟩) fun st' own₄ hst' => ?_
    obtain ⟨rfl, rfl⟩ := hst'
    refine Spec.bind ((spec_useIfAny hlock).mono (fun _ _ => id) fun _ => False.elim)
      fun _ own₅ hown₅ => ?_
    subst hown₅
    have hthree : (DevRecord.owned { block, semaphore, mutex }).card = 3 := by
      cases semaphore with
      | none => exact absurd rfl hsemaphore
      | some s =>
        cases mutex with
        | none => exact absurd rfl hmutex'
        | some m => simp [DevRecord.owned, held]
    exact Spec.pure (.inr ⟨_, devs, rfl, hthree, rfl, rfl, hrecord⟩)

/-- A listed record holds its share of what the list holds. -/
theorem owned_of_find? {p : DevRecord → Bool} {devs : List DevRecord} {d : DevRecord}
    (h : devs.find? p = some d) : (devs.map DevRecord.owned).sum =
      d.owned + ((devs.eraseP p).map DevRecord.owned).sum := by
  induction devs with
  | nil => cases h
  | cons dev devs ih =>
    cases hp : p dev with
    | true =>
      rw [List.find?_cons_of_pos hp] at h
      obtain rfl := Option.some.inj h
      rw [List.eraseP_cons_of_pos hp, List.map_cons, List.sum_cons]
    | false =>
      have hneg : ¬p dev = true := by simp [hp]
      rw [List.find?_cons_of_neg hneg] at h
      rw [List.eraseP_cons_of_neg hneg, List.map_cons, List.map_cons, List.sum_cons, List.sum_cons,
        ih h]
      abel

/-- **The release of a record** gives back what belongs to it, if it is listed. -/
theorem spec_espHidhDevFreeInner (hown : own = st.owned + lost) (dev : Option RtosHandle) :
    Spec G own (espHidhDevFreeInner dev st) (fun r own' => own' = r.2.owned + lost ∧ (r.2 = st ∨
      ∃ devs devs', st.devices = some devs ∧ r.2 = { st with devices := some devs' } ∧
        r.2.records ≤ st.records)) Never := by
  cases dev with
  | none => exact Spec.pure ⟨hown, .inl rfl⟩
  | some block =>
    unfold espHidhDevFreeInner
    have hlock : held st.devicesSemaphore ≤ own := by
      rw [hown]
      exact (mutex_le_owned st).trans (Multiset.le_add_right _ _)
    refine Spec.bind (spec_useIfAny hlock) fun _ own' hown' => ?_
    subst hown'
    cases hfind : (st.devices.getD []).find? (·.block == block) with
    | none =>
      simp only
      refine Spec.bind (spec_useIfAny hlock) fun _ own₁ hown₁ => ?_
      subst hown₁
      exact Spec.pure ⟨hown, .inl rfl⟩
    | some d =>
      simp only
      cases hdevs : st.devices with
      | none =>
        rw [hdevs] at hfind
        cases hfind
      | some devs =>
        rw [hdevs, Option.getD_some] at hfind
        let st' : HidhStatics := { st with devices := some (devs.eraseP (·.block == block)) }
        have hrecords : st.records = d.owned + st'.records := by
          simp only [HidhStatics.records, st', hdevs, Option.getD_some, owned_of_find? hfind]
        have hsplit : own' = d.owned + (st'.owned + lost) := by
          simp only [hown, HidhStatics.owned, hrecords, st']
          abel
        refine Spec.bind (spec_resourcesFree hsplit) fun _ own₁ hown₁ => ?_
        have hlock' : held st.devicesSemaphore ≤ own₁ := by
          rw [hown₁]
          exact (mutex_le_owned st').trans (Multiset.le_add_right _ _)
        refine Spec.bind (spec_useIfAny hlock') fun _ own₂ hown₂ => ?_
        subst hown₂
        refine Spec.pure ⟨hown₁, .inr ⟨devs, _, rfl, rfl, ?_⟩⟩
        rw [hrecords]
        exact Multiset.le_add_left _ _

/-! ### A call, and a run of them -/

/-- What is out: what the statics hold, no more security semaphores than initialisations, and what belongs
to records that an initialisation has dropped from the list. -/
structure Kept (G : (ℕ → Bool) → Prop) (n : Tally) (st : HidhStatics)
    (own : Multiset RtosHandle) : Prop where
  steady : Up st ∨ Down st
  owns : ∃ sems dropped, own = st.owned + (sems + dropped) ∧ (∀ r ∈ sems, r.kind = .secSemaphore) ∧
    sems.card ≤ n.inits ∧ (¬MayRefuse G → sems.card = n.inits) ∧
    (dropped + st.strays).card ≤ 3 * n.early

/-- A call keeps the ledger, makes a list only where it initialises, and faults only where it inserts
into a list that is none. -/
abbrev Keeps (G : (ℕ → Bool) → Prop) (n : Tally) (st : HidhStatics) (own : Multiset RtosHandle)
    (call : Call) : Prop :=
  Spec G own (call.run n st) (fun r own' => Kept G r.1 r.2 own' ∧
    (r.2.devices = none → st.devices = none ∧ call ≠ .init true))
    fun fault => Unlisted st fault ∧ call = .devMalloc

namespace Kept

variable {n : Tally}

/-- An initialisation that is refused leaves everything as it is. -/
theorem refused (h : Kept G n st own) {config : Bool} {ret : Int} (hret : ret ≠ espOk)
    (hinit : espHidhInit config st = pure (ret, st)) (hlisted : config = true → st.devices ≠ none) :
    Keeps G n st own (.init config) := by
  unfold Keeps
  rw [Call.run, hinit]
  refine Spec.bind (Q := fun r own' => r = (ret, st) ∧ own' = own) (Spec.pure ⟨rfl, rfl⟩)
    fun r own' hr => ?_
  obtain ⟨rfl, rfl⟩ := hr
  simp only [if_neg hret]
  exact Spec.pure ⟨h, fun hnone => ⟨hnone, fun heq => hlisted (Call.init.inj heq) hnone⟩⟩

theorem init (h : Kept G n st own) (config : Bool) : Keeps G n st own (.init config) := by
  cases config with
  | false => exact h.refused (show espErrInvalidArg ≠ espOk by decide) rfl (fun h => by cases h)
  | true =>
    obtain ⟨hst, sems, dropped, hown, hkind, hcard, hexact, hearly⟩ := id h
    rcases hst with hup | hdown
    · refine h.refused (show espErrInvalidState ≠ espOk by decide) ?_ fun _ hnone => ?_
      · rw [espHidhInit, if_neg (by decide), if_pos hup.mutex]
      · have hlisted := hup.listed
        rw [hnone] at hlisted
        cases hlisted
    · refine Spec.bind ((spec_espHidhInit hdown).mono (fun _ _ => id) fun _ => False.elim)
        fun r own' hr => ?_
      obtain ⟨ret, st'⟩ := r
      obtain ⟨hempty, hr⟩ := hr
      have hlost : own = sems + (dropped + st.strays) := by
        rw [hown, hdown.owned_eq]
        abel
      have hstrays : st'.strays = 0 := strays_of_empty hempty
      have hlisted : st'.devices = none → st.devices = none ∧ Call.init true ≠ .init true :=
        fun hnone => absurd (hempty.symm.trans hnone) (by simp)
      rcases hr with ⟨hret, rfl, hdown'⟩ | ⟨hret, hup', sec, hsec, hown'⟩
      · simp only [if_neg hret]
        refine Spec.pure ⟨⟨.inr hdown', sems, dropped + st.strays, ?_, hkind, hcard, hexact, ?_⟩,
          hlisted⟩
        · rw [hlost, hdown'.owned_eq, hstrays, Multiset.zero_add]
        · rw [hstrays, Multiset.add_zero]
          exact hearly
      · simp only [if_pos hret]
        refine Spec.pure ⟨⟨.inl hup', held sec + sems, dropped + st.strays, ?_, ?_, ?_, ?_, ?_⟩,
          hlisted⟩
        · rw [hown', hlost, Multiset.add_assoc]
        · intro r hr
          rcases Multiset.mem_add.mp hr with hr | hr
          · exact hsec.1 r hr
          · exact hkind r hr
        · have hone : (held sec).card ≤ 1 := by
            cases sec with
            | none => exact Nat.zero_le 1
            | some r => exact Nat.le_refl 1
          rw [Multiset.card_add]
          change _ ≤ n.inits + 1
          omega
        · intro hall
          rw [Multiset.card_add, hsec.2 hall, hexact hall]
          exact Nat.add_comm _ _
        · rw [hstrays, Multiset.add_zero]
          exact hearly

theorem deinit (h : Kept G n st own) : Keeps G n st own .deinit := by
  obtain ⟨hst, sems, dropped, hown, hkind, hcard, hexact, hearly⟩ := h
  refine Spec.bind ((spec_espHidhDeinit hst hown).mono (fun _ _ => id) fun _ => False.elim)
    fun r own' hr => ?_
  obtain ⟨hown', hst', hsame | hempty⟩ := hr
  · refine Spec.pure ⟨⟨hst', sems, dropped, hown', hkind, hcard, hexact, hsame ▸ hearly⟩, ?_⟩
    exact fun hnone => ⟨hsame ▸ hnone, by simp⟩
  · refine Spec.pure ⟨⟨hst', sems, dropped, hown', hkind, hcard, hexact, ?_⟩, ?_⟩
    · rw [strays_of_empty hempty, Multiset.add_zero]
      exact (Multiset.card_le_card (Multiset.le_add_right _ _)).trans hearly
    · exact fun hnone => absurd (hempty.symm.trans hnone) (by simp)

theorem devMalloc (h : Kept G n st own) : Keeps G n st own .devMalloc := by
  obtain ⟨hst, sems, dropped, hown, hkind, hcard, hexact, hearly⟩ := id h
  have hmutex : held st.devicesSemaphore ≤ own := by
    rw [hown]
    exact (mutex_le_owned st).trans (Multiset.le_add_right _ _)
  refine Spec.bind ((spec_espHidhDevMalloc hmutex).mono (fun _ _ => id) fun _ hfault =>
    ⟨hfault, rfl⟩) fun r own' hr => ?_
  obtain ⟨dev?, st'⟩ := r
  rcases hr with ⟨rfl, rfl, rfl⟩ | ⟨dev, devs, rfl, hthree, hdevs, rfl, hown'⟩
  · exact Spec.pure ⟨h, fun hnone => ⟨hnone, by simp⟩⟩
  have hrecords : HidhStatics.records { st with devices := some (devs ++ [dev]) } =
      st.records + dev.owned := by
    simp [HidhStatics.records, hdevs]
  have hgrown : own' = HidhStatics.owned { st with devices := some (devs ++ [dev]) } +
      (sems + dropped) := by
    simp only [hown', hown, HidhStatics.owned, hrecords]
    abel
  refine Spec.pure ⟨?_, fun hnone => by cases hnone⟩
  rcases hst with hup | hdown
  · obtain ⟨mutex, hsome⟩ := Option.isSome_iff_exists.mp hup.mutex
    have hup' : Up { st with devices := some (devs ++ [dev]) } :=
      ⟨rfl, hup.mutex, hup.loop, hup.cb, hup.posts⟩
    have hlate : ((some dev).isSome && st.devicesSemaphore.isNone) = false := by rw [hsome]; rfl
    simp only [hlate, Bool.false_eq_true, if_false]
    refine ⟨.inl hup', sems, dropped, hgrown, hkind, hcard, hexact, ?_⟩
    rw [hup'.strays_eq, Multiset.add_zero]
    exact (Multiset.card_le_card (Multiset.le_add_right _ _)).trans hearly
  · have hsoon : ((some dev).isSome && st.devicesSemaphore.isNone) = true := by rw [hdown.mutex]; rfl
    simp only [hsoon, if_true]
    refine ⟨.inr ⟨hdown.mutex, hdown.loop, hdown.cb⟩, sems, dropped, hgrown, hkind, hcard, hexact, ?_⟩
    have hnone : st.devicesSemaphore.isNone = true := by rw [hdown.mutex]; rfl
    simp only [HidhStatics.strays, hnone, if_true, hrecords] at hearly ⊢
    rw [← Multiset.add_assoc, Multiset.card_add, hthree]
    change _ ≤ 3 * (n.early + 1)
    omega

theorem devFree (h : Kept G n st own) (dev : Option RtosHandle) :
    Keeps G n st own (.devFree dev) := by
  obtain ⟨hst, sems, dropped, hown, hkind, hcard, hexact, hearly⟩ := h
  refine Spec.bind ((spec_espHidhDevFreeInner hown dev).mono (fun _ _ => id) fun _ => False.elim)
    fun r own' hr => ?_
  obtain ⟨ret, st'⟩ := r
  obtain ⟨hown', hsame | ⟨devs, devs', hdevs, rfl, hle⟩⟩ := hr
  · obtain rfl := hsame
    exact Spec.pure ⟨⟨hst, sems, dropped, hown', hkind, hcard, hexact, hearly⟩,
      fun hnone => ⟨hnone, by simp⟩⟩
  · refine Spec.pure ⟨⟨?_, sems, dropped, hown', hkind, hcard, hexact, ?_⟩, fun hnone => by cases hnone⟩
    · exact hst.imp (fun hup => ⟨rfl, hup.mutex, hup.loop, hup.cb, hup.posts⟩)
        fun hdown => ⟨hdown.mutex, hdown.loop, hdown.cb⟩
    · refine (Multiset.card_le_card (Multiset.add_le_add_left ?_)).trans hearly
      unfold HidhStatics.strays
      split
      · exact hle
      · exact le_rfl

/-- **A call keeps the ledger.** -/
theorem call (h : Kept G n st own) (call : Call) : Keeps G n st own call := by
  cases call with
  | init config => exact h.init config
  | deinit => exact h.deinit
  | devMalloc => exact h.devMalloc
  | devFree dev => exact h.devFree dev

end Kept

/-- **A run of calls keeps the ledger.** -/
theorem spec_runCalls (calls : List Call) : ∀ {n : Tally} {st : HidhStatics}
    {own : Multiset RtosHandle}, Kept G n st own →
      Spec G own (runCalls calls n st) (fun r own' => Kept G r.1 r.2 own')
        fun fault => Unlisted st fault ∧ Premature calls := by
  induction calls with
  | nil => exact fun h => Spec.pure h
  | cons call calls ih =>
    intro n st own h
    refine Spec.bind ((h.call call).mono (fun _ _ => id) fun fault hfault => ?_) fun r own' h' => ?_
    · obtain ⟨hunlisted, rfl⟩ := hfault
      exact ⟨hunlisted, [], calls, rfl, List.not_mem_nil⟩
    · refine (ih h'.1).mono (fun _ _ => id) fun fault hfault => ?_
      obtain ⟨⟨hnull, hnone⟩, before, after, rfl, hbefore⟩ := hfault
      obtain ⟨hnone', hinit⟩ := h'.2 hnone
      refine ⟨⟨hnull, hnone'⟩, call :: before, after, rfl, fun hmem => ?_⟩
      rcases List.mem_cons.mp hmem with heq | hmem
      · exact hinit heq.symm
      · exact hbefore hmem

end Specs

/-- **The life of the HID host.** In whatever order it is initialised, deinitialised and used, and
whatever is refused, nothing is misused, and the only fault is a record that is allocated before the first
initialisation. What is out in the end is what the statics hold; the security semaphores that the
initialisations have created, one for each, if none was refused; and at most what belongs to the records
that were allocated while the HID host was not initialised. Without those, nothing is left with the
statics of a host that is deinitialised. -/
theorem hostLedger (grants : ℕ → Bool) (calls : List Call) :
    (runCalls calls {} {} grants .empty = .error (.fault .nullDeref) ∧ Premature calls) ∨
    ∃ n st l, runCalls calls {} {} grants .empty = .ok ((n, st), l) ∧ (Up st ∨ Down st) ∧
      ∃ sems dropped, l.out = st.owned + (sems + dropped) ∧
        (∀ r ∈ sems, r.kind = .secSemaphore) ∧ sems.card ≤ n.inits ∧
        ((∀ k, grants k = true) → sems.card = n.inits) ∧
        dropped.card ≤ 3 * n.early ∧ (Down st → st.owned.card ≤ 3 * n.early) := by
  have hdown : Down {} := ⟨rfl, rfl, rfl⟩
  have hkept : Kept (· = grants) {} {} 0 :=
    ⟨.inr hdown, 0, 0, rfl, fun _ hr => absurd hr (Multiset.notMem_zero _), Nat.le_refl 0,
      fun _ => rfl, Nat.le_refl 0⟩
  have hspec := spec_runCalls calls hkept grants rfl .empty 0 rfl
  split at hspec
  · rename_i r l heq
    obtain ⟨n, st⟩ := r
    obtain ⟨own, hl, hsteady, sems, dropped, hown, hkind, hcard, hexact, hearly⟩ := hspec
    rw [Multiset.card_add] at hearly
    change dropped.card + st.strays.card ≤ 3 * n.early at hearly
    refine .inr ⟨n, st, l, heq, hsteady, sems, dropped, ?_, hkind, hcard, fun hall => hexact ?_,
      by omega, fun hdown' => ?_⟩
    · rw [hl, Multiset.add_zero, hown]
    · rintro ⟨grants', k, rfl, hk⟩
      rw [hall k] at hk
      cases hk
    · rw [hdown'.owned_eq]
      omega
  · exact hspec.elim
  · rename_i fault heq
    obtain ⟨⟨rfl, -⟩, hpremature⟩ := hspec
    exact .inl ⟨heq, hpremature⟩

end BleKbdHost.Lifecycle
