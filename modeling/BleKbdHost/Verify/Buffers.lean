import BleKbdHost.Host.Devices

/-!
# Who owns a read buffer

A buffer that a read brings is kept by one field of a device, freed once, or forgotten. One
`free(rdata)` follows a read of the PnP id whether that read succeeded or not; where it failed, `rdata`
is still at the buffer of an earlier read, which a device may keep or which was freed already. The
reads of the discovery so far say which. In runs where no read of a PnP id fails while `rdata` is at
such a buffer, every buffer has at most one owner.
-/

namespace BleKbdHost.Host

open Hid Keys Conc

/-! ## The property -/

def Dev.tokens (dev : Dev) : List Nat := dev.bufs.map (·.token)

/-- How many fields of devices keep the buffer, and how often it was freed. -/
def Sys.owners (s : Sys) (token : Nat) : Nat :=
  (s.hidh.devices.flatMap Dev.tokens).count token + s.freed.count token

/-- No buffer is kept twice, freed twice, or kept and freed; and a report map that is parsed was not
freed. -/
structure BuffersOwned (c : HostConfig) : Prop where
  once : ∀ token, c.state.owners token ≤ 1
  parsed : ∀ buf k, c.task = .op (.parseReportMap (some buf)) k → c.state.fault = none →
    buf.token ∉ c.state.freed

/-! ## The condition -/

/-- Where `rdata` is: at no buffer, at one that a device keeps, at one that was freed, or at one that
was forgotten. -/
inductive Rdata where
  | null
  | kept
  | freed
  | loose
  deriving DecidableEq, Repr

/-- Where a read leaves `rdata`. The buffer of a PnP id or of a report reference is freed, that of a
protocol mode or without bytes is forgotten, any other is kept. A read that fails leaves `rdata`
alone, but it is freed behind that of a PnP id. -/
def ReadObs.settle (obs : ReadObs) (before : Rdata) : Rdata :=
  match obs.value with
  | none => if obs.uuid = Uuid.pnpId ∧ before ≠ .null then .freed else before
  | some (none, _) => .null
  | some (some _, len) =>
    if obs.uuid = Uuid.pnpId then .freed
    else if obs.uuid = Uuid.protocolMode ∨ len = 0 then .loose
    else if obs.uuid = Uuid.rptRef then .freed
    else .kept

/-- Where the reads of a discovery have left `rdata`. -/
def rdataFate (reads : List ReadObs) : Rdata := reads.foldr ReadObs.settle .null

/-- A read that may fail: it is not that of a PnP id, or `rdata` is at no buffer or at one that was
forgotten. -/
def mayFail (uuid : UInt16) (reads : List ReadObs) : Bool :=
  uuid != Uuid.pnpId || rdataFate reads == .null || rdataFate reads == .loose

/-- The read of a PnP id is refused or ends with an error only where it may fail. -/
def pnpIdMayFail : Guard Op Choice Sys Event where
  main o c s :=
    match o with
    | .readLong _ _ uuid => c.rc == 0 || mayFail uuid s.reads
    | .endRead uuid => s.nimble.readStatus == 0 || mayFail uuid s.reads
    | _ => true
  env _ _ := true

/-! ## Counting owners -/

section Counting

variable {devices : List Dev} {d : DevId} {dev : Dev} {f : Dev → Dev} (token : Nat)

/-- Behind the device no other has its identity. -/
theorem ids_ne_of_nodup {dev₀ : Dev} (hnodup : ((dev₀ :: devices).map (·.id)).Nodup) :
    ∀ dev ∈ devices, dev.id ≠ dev₀.id := by
  intro dev hmem heq
  exact (List.nodup_cons.mp hnodup).1 (List.mem_map.mpr ⟨dev, hmem, heq⟩)

/-- The device's share of the buffers kept. -/
theorem count_tokens_filter (hnodup : (devices.map (·.id)).Nodup)
    (hdev : devices.find? (·.id == d) = some dev) :
    (devices.flatMap Dev.tokens).count token = dev.tokens.count token +
      ((devices.filter (·.id != d)).flatMap Dev.tokens).count token := by
  induction devices with
  | nil => cases hdev
  | cons dev₀ devices ih =>
    by_cases hid : dev₀.id = d
    · subst hid
      simp only [List.find?_cons, beq_self_eq_true, Option.some.injEq] at hdev
      subst hdev
      have hothers : devices.filter (·.id != dev₀.id) = devices :=
        List.filter_eq_self.mpr fun dev' hmem =>
          bne_iff_ne.mpr (ids_ne_of_nodup hnodup dev' hmem)
      simp [hothers]
    · simp only [List.find?_cons, beq_eq_false_iff_ne.mpr hid] at hdev
      have hih := ih (List.nodup_cons.mp hnodup).2 hdev
      simp only [List.flatMap_cons, List.count_append, List.filter_cons, bne_iff_ne.mpr hid,
        ↓reduceIte]
      omega

/-- What a write to one device adds. -/
theorem count_tokens_write (added : Nat) (hnodup : (devices.map (·.id)).Nodup)
    (hdev : devices.find? (·.id == d) = some dev)
    (hf : (f dev).tokens.count token ≤ dev.tokens.count token + added) :
    ((devices.map fun dev => if dev.id = d then f dev else dev).flatMap Dev.tokens).count token ≤
      (devices.flatMap Dev.tokens).count token + added := by
  induction devices with
  | nil => cases hdev
  | cons dev₀ devices ih =>
    simp only [List.map_cons, List.flatMap_cons, List.count_append]
    by_cases hid : dev₀.id = d
    · subst hid
      simp only [List.find?_cons, beq_self_eq_true, Option.some.injEq] at hdev
      subst hdev
      have hothers : (devices.map fun dev => if dev.id = dev₀.id then f dev else dev) =
          devices.map id :=
        List.map_congr_left fun dev' hmem => if_neg (ids_ne_of_nodup hnodup dev' hmem)
      rw [if_pos rfl, hothers, List.map_id]
      omega
    · simp only [List.find?_cons, beq_eq_false_iff_ne.mpr hid] at hdev
      have hih := ih (List.nodup_cons.mp hnodup).2 hdev
      rw [if_neg hid]
      omega

end Counting

/-! ## What a field keeps -/

/-- What a field with the buffer, or with none, counts for. -/
def held? (buf? : Option Buf) (token : Nat) : Nat := (buf?.toList.map (·.token)).count token

/-- The buffers of the report maps. -/
def mapTokens (maps : List RawReportMap) : List Nat := (maps.filterMap (·.data)).map (·.token)

theorem count_mapTokens_cons (map : RawReportMap) (maps : List RawReportMap) (token : Nat) :
    (mapTokens (map :: maps)).count token = held? map.data token + (mapTokens maps).count token := by
  rcases map with ⟨_ | buf, len⟩
  · simp [mapTokens, held?]
  · simp [mapTokens, held?, List.count_cons, Nat.add_comm]

theorem count_mapTokens_set (maps : List RawReportMap) (i : Nat) (map : RawReportMap) (token : Nat) :
    (mapTokens (maps.set i map)).count token ≤ (mapTokens maps).count token + held? map.data token := by
  induction maps generalizing i with
  | nil => exact Nat.zero_le _
  | cons map₀ maps ih =>
    cases i with
    | zero =>
      rw [List.set_cons_zero, count_mapTokens_cons, count_mapTokens_cons]
      omega
    | succ i =>
      rw [List.set_cons_succ, count_mapTokens_cons, count_mapTokens_cons]
      have hih := ih i
      omega

/-- What a device keeps, field by field. -/
theorem count_tokens (dev : Dev) (token : Nat) :
    dev.tokens.count token = held? dev.deviceName token + held? dev.manufacturerName token +
      held? dev.serialNumber token + (mapTokens (dev.reportMaps.getD [])).count token := by
  have hcons : ∀ (buf? : Option Buf) (bufs : List (Option Buf)),
      (((buf? :: bufs).filterMap fun buf => buf).map (·.token)).count token =
        held? buf? token + ((bufs.filterMap fun buf => buf).map (·.token)).count token := by
    intro buf? bufs
    cases buf? with
    | none => simp [held?]
    | some buf => simp [held?, List.count_cons, Nat.add_comm]
  simp only [Dev.tokens, Dev.bufs, List.map_append, List.count_append, hcons, mapTokens,
    List.filterMap_nil, List.map_nil, List.count_nil]
  omega

/-- A field that is written keeps at most its own buffer beside what the device kept. -/
theorem count_write {dev dev' : Dev} {field : DevField} (h : field.write dev = .ok dev')
    (token : Nat) : dev'.tokens.count token ≤ dev.tokens.count token + held? field.buf? token := by
  rw [count_tokens, count_tokens]
  cases field with
  | reportMap index data len =>
    simp only [DevField.write] at h
    split at h
    · cases h
    · rename_i maps hmaps
      split at h <;> cases h
      have hset := count_mapTokens_set maps index ⟨data, len⟩ token
      simp only [DevField.buf?, hmaps, Option.getD_some]
      simp only at hset
      omega
  | protocolMode index value =>
    simp only [DevField.write] at h
    split at h
    · cases h
    · split at h <;> cases h
      exact Nat.le_add_right _ _
  | deviceName _ | manufacturerName _ | serialNumber _ =>
    cases h
    simp only [DevField.buf?]
    omega
  | _ =>
    cases h
    exact Nat.le_add_right _ _

/-! ## Steps that give no buffer an owner -/

/-- No buffer is allocated, or gets an owner; the one that was read stays, or is forgotten. -/
structure BuffersKept (s s' : Sys) : Prop where
  owners : ∀ token, s'.owners token ≤ s.owners token
  next : s'.nextBuf = s.nextBuf
  reading : s'.nimble.readDataVal = s.nimble.readDataVal ∨ s'.nimble.readDataVal = none

theorem BuffersKept.refl (s : Sys) : BuffersKept s s := ⟨fun _ => Nat.le_refl _, rfl, .inl rfl⟩

/-- A step that leaves the devices and what was freed alone. -/
theorem BuffersKept.of_eq {s s' : Sys} (hdevices : s'.hidh.devices = s.hidh.devices)
    (hfreed : s'.freed = s.freed) (hnext : s'.nextBuf = s.nextBuf)
    (hreading : s'.nimble.readDataVal = s.nimble.readDataVal ∨ s'.nimble.readDataVal = none) :
    BuffersKept s s' where
  owners token := by
    unfold Sys.owners
    exact Nat.le_of_eq (by rw [hdevices, hfreed])
  next := hnext
  reading := hreading

/-- A write that gives the device no buffer. -/
theorem BuffersKept.setDev {s : Sys} {d : DevId} {f : Dev → Dev}
    (hf : ∀ dev token, (f dev).tokens.count token ≤ dev.tokens.count token) :
    BuffersKept s (s.setDev d f) where
  owners token := by
    have hcount : ∀ devices : List Dev,
        ((devices.map fun dev => if dev.id = d then f dev else dev).flatMap Dev.tokens).count token ≤
          (devices.flatMap Dev.tokens).count token := by
      intro devices
      induction devices with
      | nil => exact Nat.le_refl _
      | cons dev devices ih =>
        have hdev := hf dev token
        simp only [List.map_cons, List.flatMap_cons, List.count_append]
        split <;> omega
    exact Nat.add_le_add_right (hcount s.hidh.devices) _
  next := rfl
  reading := .inl rfl

theorem BuffersKept.absorb {α : Type} {s : Sys} {r : Except Fault α} {f : α → Sys}
    (h : ∀ a, r = .ok a → BuffersKept s (f a)) : BuffersKept s (s.absorb r f) := by
  cases r with
  | ok a => exact h a rfl
  | error _ => exact .of_eq rfl rfl rfl (.inl rfl)

/-- What a device keeps goes with it. -/
theorem BuffersKept.freeDev {s : Sys} (d : DevId) (hnodup : (s.hidh.devices.map (·.id)).Nodup) :
    BuffersKept s (s.freeDev d) where
  owners token := by
    unfold Sys.owners
    cases hdev : s.dev? d with
    | none =>
      have hothers : s.hidh.devices.filter (·.id != d) = s.hidh.devices := by
        refine List.filter_eq_self.mpr fun dev hmem => ?_
        have hne := List.find?_eq_none.mp hdev dev hmem
        simpa using hne
      simp [Sys.freeDev, hdev, hothers]
    | some dev =>
      have hcount := count_tokens_filter token hnodup hdev
      simp only [Sys.freeDev, Sys.freeBufs, hdev, Option.map_some, Option.getD_some,
        List.count_append]
      change _ + (dev.tokens.count token + _) ≤ _
      omega
  next := rfl
  reading := .inl rfl

/-- A field that keeps no buffer. -/
theorem BuffersKept.setField {s : Sys} (d : DevId) {field : DevField} (hfield : field.buf? = none)
    (c : Choice) : BuffersKept s ((Op.setField d field).exec c s) := by
  rcases exec_setField_cases s d field c with ⟨fault, hexec⟩ | ⟨_, _, -, -, hexec⟩
  · rw [hexec]
    exact .of_eq rfl rfl rfl (.inl rfl)
  · rw [hexec]
    refine .setDev fun dev token => ?_
    cases hwrite : field.write dev with
    | error _ => exact Nat.le_refl _
    | ok dev' =>
      have hcount := count_write hwrite token
      rw [hfield] at hcount
      exact hcount

/-- **Only storing and freeing give a buffer an owner.** -/
theorem buffersKept_exec {s : Sys} {o : Op} (c : Choice) (hlist : DeviceList s.view)
    (ho : o.onBuf = false) : BuffersKept s (o.exec c s) := by
  cases o with
  | devFree d =>
    have hfree := BuffersKept.freeDev d hlist.ids_nodup
    exact ⟨hfree.owners, hfree.next, hfree.reading⟩
  | setField d field => exact .setField d (Option.isNone_iff_eq_none.mp (by simpa [Op.onBuf] using ho)) c
  | freeBuf buf =>
    cases buf with
    | none => exact .refl s
    | some buf => cases ho
  | parseReportMap buf =>
    cases buf with
    | none => exact .of_eq rfl rfl rfl (.inl rfl)
    | some buf => cases ho
  | installCallbacks d => exact .setDev fun _ _ => Nat.le_refl _
  | setConnected kind d =>
    have hset : BuffersKept s (s.setDev d fun dev => { dev with connected := true }) :=
      .setDev fun _ _ => Nat.le_refl _
    exact ⟨hset.owners, hset.next, hset.reading⟩
  | mallocReportMaps d =>
    simp only [Op.exec]
    split
    · refine .setDev fun dev token => ?_
      have hempty : mapTokens (List.replicate dev.reportMapsLen.toNat {}) = [] := by
        simp [mapTokens]
      rw [count_tokens, count_tokens, Option.getD_some, hempty]
      exact Nat.le_add_right _ _
    · exact .of_eq rfl rfl rfl (.inl rfl)
  | mallocProtocolMode d =>
    simp only [Op.exec]
    split
    · exact .setDev fun _ _ => Nat.le_refl _
    · exact .of_eq rfl rfl rfl (.inl rfl)
  | devMalloc bda addrType =>
    simp only [Op.exec]
    split
    · refine ⟨fun token => ?_, rfl, .inl rfl⟩
      simp [Sys.owners, Dev.tokens, Dev.bufs]
    · exact .of_eq rfl rfl rfl (.inl rfl)
  | readSvc _ | readChr _ | readDefHandle _ | readDsc _ | readReportMap _ _ =>
    exact .absorb fun _ _ => .of_eq rfl rfl rfl (.inl rfl)
  | readLong _ _ _ => exact .of_eq rfl rfl rfl (.inr rfl)
  | awaitDisconnect _ _ | peekCmd _ | emitKey _ | gapDisc | reconnectReturns _ | assertStatus
  | readDev _ | readConnId _ _ =>
    simp only [Op.exec]
    split <;> exact .of_eq rfl rfl rfl (.inl rfl)
  | gapConnect kind d =>
    simp only [Op.exec]
    split
    · exact .of_eq rfl rfl rfl (.inl rfl)
    · split <;> exact .of_eq rfl rfl rfl (.inl rfl)
  | _ => exact .of_eq rfl rfl rfl (.inl rfl)

/-! ## Events -/

theorem count_found (devices : List Dev) (token : Nat) :
    ((devices.map Dev.found).flatMap Dev.tokens).count token =
      (devices.flatMap Dev.tokens).count token := by
  rw [List.flatMap_map]
  rfl

theorem owners_of_foundDevs {s s' : Sys} (h : s'.foundDevs = s.foundDevs) (token : Nat) :
    s'.owners token = s.owners token := by
  unfold Sys.owners
  rw [← count_found s'.hidh.devices, ← count_found s.hidh.devices]
  rw [show s'.hidh.devices.map Dev.found = s.hidh.devices.map Dev.found from congrArg Prod.fst h,
    show s'.freed = s.freed from congrArg Prod.snd h]

/-- **No event gives a buffer an owner, or frees one.** -/
theorem eventStep_owners {e : Event} {s s' : Sys} (h : eventStep e s = some s')
    (hbasics : Basics s) (token : Nat) : s'.owners token = s.owners token :=
  owners_of_foundDevs (eventStep_foundDevs h fun _ => hbasics.not_releasing) token

/-- What an event does to the buffer that is being read: nothing, or data that comes for it; the
first data allocates it. -/
inductive ReadStep (s s' : Sys) : Prop
  | same (hreading : s'.nimble.readDataVal = s.nimble.readDataVal) (hnext : s'.nextBuf = s.nextBuf)
  | more (old buf : Buf) (hold : s.nimble.readDataVal = some old)
      (hbuf : s'.nimble.readDataVal = some buf) (htoken : buf.token = old.token)
      (hnext : s'.nextBuf = s.nextBuf)
  | first (buf : Buf) (hnone : s.nimble.readDataVal = none)
      (hbuf : s'.nimble.readDataVal = some buf) (htoken : buf.token = s.nextBuf)
      (hnext : s'.nextBuf = s.nextBuf + 1)

theorem onReadData_readStep (s : Sys) (bytes : List UInt8) : ReadStep s (onReadData s bytes) := by
  unfold onReadData
  simp only
  split
  · exact .same rfl rfl
  · cases hold : s.nimble.readDataVal with
    | none => exact .first _ hold rfl rfl rfl
    | some old => exact .more old _ hold rfl rfl rfl

theorem gattCb_readStep {s s' : Sys} {i : Nat} {rsp : GattRsp} (h : gattCb s i rsp = some s') :
    ReadStep s s' := by
  cases gattCb_cases h with
  | svc svc _ =>
    refine Sys.store_of (.same rfl rfl) fun arr => ?_
    simp only
    split
    · exact .same rfl rfl
    · split <;> exact .same rfl rfl
  | chr _ _ | dsc _ _ => exact Sys.store_of (.same rfl rfl) fun _ => .same rfl rfl
  | found _ _ | lost _ _ _ | unread _ _ => exact .same rfl rfl
  | data bytes _ => exact onReadData_readStep s bytes
  | read _ =>
    unfold onReadDone
    split <;> exact .same rfl rfl
  | written _ _ =>
    unfold onWrite
    split <;> exact .same rfl rfl

theorem eventStep_readStep {e : Event} {s s' : Sys} (h : eventStep e s = some s') :
    ReadStep s s' := by
  cases e with
  | gattCb i rsp => exact gattCb_readStep h
  | _ =>
    obtain ⟨hcore, -, hnext, -⟩ := eventStep_core h nofun
    have hreading : s'.nimble.core.readDataVal = s.nimble.core.readDataVal := by rw [hcore]
    exact .same hreading hnext

/-! ## The invariant -/

/-- Every buffer has at most one owner, those still to be allocated have none, and the one that is
being read is allocated. -/
structure OneOwner (s : Sys) : Prop where
  basics : Basics s
  once : ∀ token, s.owners token ≤ 1
  fresh : ∀ token, s.nextBuf ≤ token → s.owners token = 0
  reading : ∀ buf, s.nimble.readDataVal = some buf → buf.token < s.nextBuf

/-- The buffer that was read has no owner. -/
def Unowned (s : Sys) : Prop := ∀ buf, s.nimble.readDataVal = some buf → s.owners buf.token = 0

/-- What the operations on buffers need: a buffer that is stored or freed has no owner, and one that
is parsed was not freed. -/
def BufferReady : Op → Sys → Prop
  | .setField _ field, s =>
    ∀ buf, field.buf? = some buf → s.owners buf.token = 0 ∧ buf.token < s.nextBuf
  | .freeBuf (some buf), s => s.owners buf.token = 0 ∧ buf.token < s.nextBuf
  | .parseReportMap (some buf), s => buf.token ∉ s.freed
  | _, _ => True

section

variable {s s' : Sys}

theorem OneOwner.kept (h : OneOwner s) (hkept : BuffersKept s s') (hbasics : Basics s') :
    OneOwner s' where
  basics := hbasics
  once token := Nat.le_trans (hkept.owners token) (h.once token)
  fresh token htoken := by
    have hzero := h.fresh token (hkept.next ▸ htoken)
    have hle := hkept.owners token
    omega
  reading buf hbuf := by
    rw [hkept.next]
    rcases hkept.reading with hsame | hnone
    · exact h.reading buf (hsame ▸ hbuf)
    · rw [hnone] at hbuf
      cases hbuf

theorem Unowned.kept (h : Unowned s) (hkept : BuffersKept s s') : Unowned s' := by
  intro buf hbuf
  rcases hkept.reading with hsame | hnone
  · have hzero := h buf (hsame ▸ hbuf)
    have hle := hkept.owners buf.token
    omega
  · rw [hnone] at hbuf
    cases hbuf

/-- One buffer without an owner gets one. -/
theorem OneOwner.give {token : Nat} (h : OneOwner s) (hbasics : Basics s')
    (hzero : s.owners token = 0) (hlt : token < s.nextBuf)
    (howners : ∀ t, s'.owners t ≤ s.owners t + if token = t then 1 else 0)
    (hnext : s'.nextBuf = s.nextBuf) (hreading : s'.nimble.readDataVal = s.nimble.readDataVal) :
    OneOwner s' where
  basics := hbasics
  once t := by
    have hle := howners t
    have honce := h.once t
    split at hle
    · rename_i heq
      subst heq
      omega
    · omega
  fresh t ht := by
    have hle := howners t
    have hfresh := h.fresh t (hnext ▸ ht)
    split at hle
    · omega
    · omega
  reading buf hbuf := hnext ▸ h.reading buf (hreading ▸ hbuf)

theorem held?_some (buf : Buf) (token : Nat) :
    held? (some buf) token = if buf.token = token then 1 else 0 := by
  simp [held?, List.count_cons]

/-- A buffer is stored. -/
theorem OneOwner.setField {d : DevId} {field : DevField} {buf : Buf} (h : OneOwner s) (c : Choice)
    (hbasics : Basics ((Op.setField d field).exec c s)) (hbuf : field.buf? = some buf)
    (hzero : s.owners buf.token = 0) (hlt : buf.token < s.nextBuf) :
    OneOwner ((Op.setField d field).exec c s) := by
  rcases exec_setField_cases s d field c with
    ⟨fault, hexec⟩ | ⟨dev, dev', hdev, hwrite, hexec⟩
  · rw [hexec] at hbasics ⊢
    exact h.kept (.of_eq rfl rfl rfl (.inl rfl)) hbasics
  · rw [hexec] at hbasics ⊢
    refine h.give hbasics hzero hlt (fun t => ?_) rfl rfl
    have hcount := count_tokens_write t (held? (some buf) t)
      (f := fun dev => (field.write dev).toOption.getD dev) h.basics.list.ids_nodup hdev ?_
    · rw [← held?_some buf t]
      exact Nat.add_right_comm _ _ _ ▸ Nat.add_le_add_right hcount _
    · simp only [hwrite]
      exact hbuf ▸ count_write hwrite t

/-- A buffer is freed. -/
theorem OneOwner.freeBuf {buf : Buf} (h : OneOwner s) (c : Choice)
    (hbasics : Basics ((Op.freeBuf (some buf)).exec c s)) (hzero : s.owners buf.token = 0)
    (hlt : buf.token < s.nextBuf) : OneOwner ((Op.freeBuf (some buf)).exec c s) := by
  refine h.give hbasics hzero hlt (fun t => ?_) rfl rfl
  simp only [Sys.owners, Op.exec, Sys.freeBufs, List.map_cons, List.map_nil, List.cons_append,
    List.nil_append, List.count_cons, beq_iff_eq]
  omega

/-- **An operation keeps every buffer with one owner.** -/
theorem OneOwner.exec {o : Op} {c : Choice} (h : OneOwner s) (hready : o.ready s = true)
    (hat : o.At s.ctl) (hpre : BufferReady o s) :
    OneOwner (o.exec c s) := by
  have hbasics := h.basics.exec (c := c) hready hat
  cases hbuf : o.onBuf with
  | false => exact h.kept (buffersKept_exec c h.basics.list hbuf) hbasics
  | true =>
    cases o with
    | setField d field =>
      obtain ⟨buf, hfield⟩ := Option.isSome_iff_exists.mp hbuf
      obtain ⟨hzero, hlt⟩ := hpre buf hfield
      exact h.setField c hbasics hfield hzero hlt
    | freeBuf buf? =>
      obtain ⟨buf, rfl⟩ := Option.isSome_iff_exists.mp hbuf
      exact h.freeBuf c hbasics hpre.1 hpre.2
    | parseReportMap buf? =>
      refine h.kept ?_ hbasics
      obtain ⟨buf, rfl⟩ := Option.isSome_iff_exists.mp hbuf
      simp only [Op.exec]
      split
      · exact .of_eq rfl rfl rfl (.inl rfl)
      · exact .absorb fun _ _ => .of_eq rfl rfl rfl (.inl rfl)
    | _ => cases hbuf

/-- **An event keeps every buffer with one owner.** -/
theorem OneOwner.event {e : Event} (h : OneOwner s) (hstep : eventStep e s = some s') :
    OneOwner s' := by
  have howners := eventStep_owners hstep h.basics
  refine ⟨h.basics.event hstep, fun token => howners token ▸ h.once token, fun token htoken => ?_,
    fun buf hbuf => ?_⟩
  · rw [howners]
    apply h.fresh
    cases eventStep_readStep hstep <;> omega
  · cases eventStep_readStep hstep with
    | same hreading hnext => exact hnext ▸ h.reading buf (hreading ▸ hbuf)
    | more old buf' hold hbuf' htoken hnext =>
      have hlt := h.reading old hold
      cases hbuf.symm.trans hbuf'
      omega
    | first buf' hnone hbuf' htoken hnext =>
      cases hbuf.symm.trans hbuf'
      omega

theorem Unowned.event {e : Event} (h : Unowned s) (howner : OneOwner s)
    (hstep : eventStep e s = some s') : Unowned s' := by
  have howners := eventStep_owners hstep howner.basics
  intro buf hbuf
  rw [howners]
  cases eventStep_readStep hstep with
  | same hreading hnext => exact h buf (hreading ▸ hbuf)
  | more old buf' hold hbuf' htoken hnext =>
    cases hbuf.symm.trans hbuf'
    rw [htoken]
    exact h old hold
  | first buf' hnone hbuf' htoken hnext =>
    cases hbuf.symm.trans hbuf'
    exact howner.fresh _ (Nat.le_of_eq htoken.symm)

end

/-! ## Discovery -/

/-- What the fate of `rdata` says of the buffer it is at. -/
structure Fated (fate : Rdata) (rdata : Option Buf) (s : Sys) : Prop where
  null : fate = .null → rdata = none
  loose : fate = .loose → ∀ buf, rdata = some buf → s.owners buf.token = 0

/-- The invariant with a read variable whose buffer, if any, is allocated. -/
structure ReadOwned (out : ReadVar) (s : Sys) : Prop where
  owners : OneOwner s
  below : ∀ buf, out.rdata = some buf → buf.token < s.nextBuf

/-- Between two reads: `rdata` is where the reads so far have left it. -/
structure RdataSettled (out : ReadVar) (s : Sys) : Prop where
  read : ReadOwned out s
  fated : Fated (rdataFate s.reads) out.rdata s

/-- During a read: the buffer that it brings has no owner yet. -/
structure Brought (out : ReadVar) (s : Sys) : Prop where
  settled : RdataSettled out s
  unowned : Unowned s

/-- Behind a read, whose value is still to be used: where it succeeded, the variable is at the buffer
that was read; where it failed, at the one it was at, and a read of the PnP id could fail. -/
structure AfterRead (uuid : UInt16) (r : Int × ReadVar) (s : Sys) : Prop where
  read : ReadOwned r.2 s
  brought : r.1 = 0 → (∀ buf, r.2.rdata = some buf → s.owners buf.token = 0) ∧
    ∃ before, s.reads = ⟨uuid, some (r.2.rdata, r.2.rlen)⟩ :: before
  failed : r.1 ≠ 0 → ∃ before, s.reads = ⟨uuid, none⟩ :: before ∧
    Fated (rdataFate before) r.2.rdata s ∧ mayFail uuid before = true

theorem bufferReady_of_not_onBuf {o : Op} {s : Sys} (ho : o.onBuf = false) : BufferReady o s := by
  cases o with
  | setField d field =>
    intro buf hbuf
    simp [Op.onBuf, hbuf] at ho
  | freeBuf buf | parseReportMap buf =>
    cases buf with
    | none => trivial
    | some buf => cases ho
  | _ => trivial

theorem Fated.kept {fate : Rdata} {rdata : Option Buf} {s s' : Sys} (h : Fated fate rdata s)
    (howners : ∀ token, s'.owners token ≤ s.owners token) : Fated fate rdata s' where
  null := h.null
  loose hloose buf hbuf := Nat.le_zero.mp (h.loose hloose buf hbuf ▸ howners buf.token)

/-- A buffer without an owner that is freed, or none. -/
theorem mayFail_unowned {before : List ReadObs} {rdata : Option Buf} {s : Sys}
    (h : Fated (rdataFate before) rdata s) (hmay : mayFail Uuid.pnpId before = true) {buf : Buf}
    (hbuf : rdata = some buf) : s.owners buf.token = 0 := by
  simp only [mayFail, bne_self_eq_false, Bool.false_or, Bool.or_eq_true, beq_iff_eq] at hmay
  rcases hmay with hnull | hloose
  · rw [h.null hnull] at hbuf
    cases hbuf
  · exact h.loose hloose buf hbuf

/-- Behind a read that succeeded, a buffer that was forgotten has no owner. -/
theorem fated_read {uuid : UInt16} {rdata : Option Buf} {len : UInt16} {before : List ReadObs}
    {s : Sys} (h : uuid ≠ Uuid.pnpId → uuid = Uuid.protocolMode ∨ len = 0 →
      ∀ buf, rdata = some buf → s.owners buf.token = 0) :
    Fated (rdataFate (⟨uuid, some (rdata, len)⟩ :: before)) rdata s := by
  cases rdata with
  | none => exact ⟨fun _ => rfl, fun _ _ hbuf => nomatch hbuf⟩
  | some buf =>
    have hsettle : rdataFate (⟨uuid, some (some buf, len)⟩ :: before) =
        if uuid = Uuid.pnpId then .freed
        else if uuid = Uuid.protocolMode ∨ len = 0 then .loose
        else if uuid = Uuid.rptRef then .freed else .kept := rfl
    rw [hsettle]
    by_cases hpnp : uuid = Uuid.pnpId
    · rw [if_pos hpnp]
      exact ⟨nofun, nofun⟩
    rw [if_neg hpnp]
    by_cases hloose : uuid = Uuid.protocolMode ∨ len = 0
    · rw [if_pos hloose]
      exact ⟨nofun, fun _ => h hpnp hloose⟩
    rw [if_neg hloose]
    split <;> exact ⟨nofun, nofun⟩

/-- Behind a read that failed, `rdata` is where it was. -/
theorem fated_failed {uuid : UInt16} {rdata : Option Buf} {before : List ReadObs} {s : Sys}
    (h : Fated (rdataFate before) rdata s) (hne : uuid ≠ Uuid.pnpId) :
    Fated (rdataFate (⟨uuid, none⟩ :: before)) rdata s := by
  have hsettle : rdataFate (⟨uuid, none⟩ :: before) = rdataFate before :=
    if_neg fun hcond => hne hcond.1
  rwa [hsettle]

/-- Behind one of a PnP id, its buffer was freed. -/
theorem fated_freed {rdata : Option Buf} {before : List ReadObs} {s s' : Sys}
    (h : Fated (rdataFate before) rdata s) :
    Fated (rdataFate (⟨Uuid.pnpId, none⟩ :: before)) rdata s' := by
  by_cases hnull : rdataFate before = .null
  · have hsettle : rdataFate (⟨Uuid.pnpId, none⟩ :: before) = rdataFate before :=
      if_neg fun hcond => hcond.2 hnull
    rw [hsettle, hnull]
    exact ⟨fun _ => h.null hnull, nofun⟩
  · have hsettle : rdataFate (⟨Uuid.pnpId, none⟩ :: before) = .freed := if_pos ⟨rfl, hnull⟩
    rw [hsettle]
    exact ⟨nofun, nofun⟩

/-- What is read stays, and no buffer gets an owner. -/
theorem AfterRead.kept {uuid : UInt16} {r : Int × ReadVar} {s s' : Sys} (h : AfterRead uuid r s)
    (hread : ReadOwned r.2 s') (howners : ∀ token, s'.owners token ≤ s.owners token)
    (hreads : s'.reads = s.reads) : AfterRead uuid r s' := by
  refine ⟨hread, fun hzero => ?_, fun hne => ?_⟩
  · obtain ⟨hunowned, before, hlog⟩ := h.brought hzero
    exact ⟨fun buf hbuf => Nat.le_zero.mp (hunowned buf hbuf ▸ howners buf.token), before,
      hreads.trans hlog⟩
  · obtain ⟨before, hlog, hfated, hmay⟩ := h.failed hne
    exact ⟨before, hreads.trans hlog, hfated.kept howners, hmay⟩

/-- The value that was read is not used. -/
theorem AfterRead.settled {uuid : UInt16} {rc : Int} {out : ReadVar} {s : Sys}
    (h : AfterRead uuid (rc, out) s) (huuid : uuid ≠ Uuid.pnpId) : RdataSettled out s := by
  refine ⟨h.read, ?_⟩
  by_cases hzero : rc = 0
  · obtain ⟨hunowned, before, hreads⟩ := h.brought hzero
    rw [hreads]
    exact fated_read fun _ _ => hunowned
  · obtain ⟨before, hreads, hfated, -⟩ := h.failed hzero
    rw [hreads]
    exact fated_failed hfated huuid

theorem exec_setField_reads (d : DevId) (field : DevField) (c : Choice) (s : Sys) :
    ((Op.setField d field).exec c s).reads = s.reads := by
  rcases exec_setField_cases s d field c with ⟨_, hexec⟩ | ⟨_, _, -, -, hexec⟩ <;> rw [hexec]
  · rfl
  · rfl

/-- Beside reads, discovery reads nothing. -/
theorem exec_reads {o : Op} (c : Choice) (s : Sys) (ho : Op.bufless Op.searches o = true) :
    (o.exec c s).reads = s.reads := by
  cases o with
  | readLong _ _ _ | endRead _ => cases ho
  | readSvc _ | readChr _ | readDefHandle _ | readDsc _ =>
    simp only [Op.exec, Sys.absorb]
    split <;> rfl
  | assertStatus =>
    simp only [Op.exec]
    split <;> rfl
  | setField d field => exact exec_setField_reads d field c s
  | freeBuf buf => cases buf <;> rfl
  | look | readDev _ | waitCb | discAllChrs _ _ _ | discAllDscs _ _ _ | mallocReport | resetChrs
  | resetDscs => rfl
  | _ => cases ho

section Walk

variable {ph : Phase} {d : DevId}

theorem onBuf_of_bufless {P : Op → Bool} {o : Op} (ho : Op.bufless P o = true) :
    o.onBuf = false := by
  have hnot := (Bool.and_eq_true_iff.mp ho).2
  simp only [Bool.not_eq_true', Bool.or_eq_false_iff] at hnot
  exact hnot.1

theorem carried_oneOwner :
    Carried (fun o => !o.onBuf) pnpIdMayFail BufferReady OneOwner where
  exec o c s ho h _ hready _ hat := h.exec hready hat (bufferReady_of_not_onBuf (by simpa using ho))
  env s s' hstep h := by
    obtain ⟨e, -, -, hstep⟩ := hstep
    exact h.event hstep
  pre o s ho _ _ _ := bufferReady_of_not_onBuf (by simpa using ho)

theorem carried_readOwned (out : ReadVar) :
    Carried (fun o => !o.onBuf) pnpIdMayFail BufferReady (ReadOwned out) where
  exec o c s ho h hlive hready hg hat :=
    ⟨carried_oneOwner.exec o c s ho h.owners hlive hready hg hat, fun buf hbuf => by
      rw [(buffersKept_exec c h.owners.basics.list (by simpa using ho)).next]
      exact h.below buf hbuf⟩
  env s s' hstep h := by
    obtain ⟨e, -, -, hstep⟩ := hstep
    refine ⟨h.owners.event hstep, fun buf hbuf => ?_⟩
    have hlt := h.below buf hbuf
    cases eventStep_readStep hstep <;> omega
  pre o s ho _ _ _ := bufferReady_of_not_onBuf (by simpa using ho)

theorem stable_settled (out : ReadVar) : Stable host pnpIdMayFail (RdataSettled out) := by
  intro s s' hstep h
  refine ⟨(carried_readOwned out).env s s' hstep h.read, ?_⟩
  obtain ⟨e, -, -, hstep⟩ := hstep
  rw [eventStep_reads hstep]
  exact h.fated.kept fun token => Nat.le_of_eq (eventStep_owners hstep h.read.owners.basics token)

theorem carried_settled (out : ReadVar) :
    Carried (Op.bufless Op.searches) pnpIdMayFail BufferReady (RdataSettled out) where
  exec o c s ho h hlive hready hg hat := by
    have hbuf := onBuf_of_bufless ho
    refine ⟨(carried_readOwned out).exec o c s (by simpa using hbuf) h.read hlive hready hg hat, ?_⟩
    rw [exec_reads c s ho]
    exact h.fated.kept (buffersKept_exec c h.read.owners.basics.list hbuf).owners
  env := stable_settled out
  pre o s ho _ _ _ := bufferReady_of_not_onBuf (onBuf_of_bufless ho)

theorem carried_brought (out : ReadVar) :
    Carried (Op.bufless Op.searches) pnpIdMayFail BufferReady (Brought out) where
  exec o c s ho h hlive hready hg hat :=
    ⟨(carried_settled out).exec o c s ho h.settled hlive hready hg hat,
      h.unowned.kept (buffersKept_exec c h.settled.read.owners.basics.list (onBuf_of_bufless ho))⟩
  env s s' hstep h := by
    refine ⟨stable_settled out s s' hstep h.settled, ?_⟩
    obtain ⟨e, -, -, hstep⟩ := hstep
    exact h.unowned.event h.settled.read.owners hstep
  pre o s ho _ _ _ := bufferReady_of_not_onBuf (onBuf_of_bufless ho)

theorem carried_afterRead (uuid : UInt16) (r : Int × ReadVar) :
    Carried (Op.bufless Op.searches) pnpIdMayFail BufferReady (AfterRead uuid r) where
  exec o c s ho h hlive hready hg hat := by
    have hbuf := onBuf_of_bufless ho
    exact h.kept ((carried_readOwned r.2).exec o c s (by simpa using hbuf) h.read hlive hready hg hat)
      (buffersKept_exec c h.read.owners.basics.list hbuf).owners (exec_reads c s ho)
  env s s' hstep h := by
    have hread := (carried_readOwned r.2).env s s' hstep h.read
    obtain ⟨e, -, -, hstep⟩ := hstep
    exact h.kept hread
      (fun token => Nat.le_of_eq (eventStep_owners hstep h.read.owners.basics token))
      (eventStep_reads hstep)
  pre o s ho _ _ _ := bufferReady_of_not_onBuf (onBuf_of_bufless ho)

/-- `read_char` and `read_descr`. -/
theorem triple_readLongValue (handle uuid : UInt16) (out : ReadVar) :
    Triple host pnpIdMayFail BufferReady (Standing (RdataSettled out) (discovering ph d))
      (readLongValue d handle uuid out) fun r => Standing (AfterRead uuid r) (discovering ph d) := by
  have hsettled := carried_settled out
  have hbrought := carried_brought out
  have hafter := fun r => (carried_afterRead uuid r).standing (discovering ph d)
  refine Triple.bind
    (B := fun rc : Int => fun s => if rc = 0
      then Standing (Brought out) { discovering ph d with awaiting := true } s
      else Standing (AfterRead uuid (rc, out)) (discovering ph d) s)
    (triple_ask (hsettled.standing _) (fun rc => ?_) (fun _ _ _ => trivial) ?_)
    fun rc => .ite (fun hne => ?_) fun hzero => ?_
  · by_cases hzero : rc = 0
    · simpa only [hzero, ↓reduceIte] using hbrought.standing _
    · simpa only [hzero, ↓reduceIte] using hafter (rc, out)
  · intro ch s hs hlive hready hg _
    have hat : (Op.readLong d handle uuid).At s.ctl := by
      rw [hs.1]
      exact ⟨rfl, rfl⟩
    have hread := (carried_readOwned out).exec _ ch s rfl hs.2.read hlive hready hg hat
    have hctl : ((Op.readLong d handle uuid).exec ch s).ctl =
        { discovering ph d with awaiting := ch.rc == 0 } := by
      rw [exec_ctl, View.exec, ← hs.1]
      rfl
    by_cases hrc : ch.rc = 0
    · have hreads : ((Op.readLong d handle uuid).exec ch s).reads = s.reads := if_pos hrc
      rw [if_pos hrc]
      refine ⟨by rw [hctl, hrc]; rfl, ⟨hread, hreads ▸ hs.2.fated.kept fun _ => Nat.le_refl _⟩,
        fun buf hbuf => ?_⟩
      cases hbuf
    · have hreads : ((Op.readLong d handle uuid).exec ch s).reads = ⟨uuid, none⟩ :: s.reads :=
        if_neg hrc
      rw [if_neg hrc]
      refine ⟨by rw [hctl, beq_eq_false_iff_ne.mpr hrc], hread, fun hzero => absurd hzero hrc,
        fun _ => ⟨s.reads, hreads, hs.2.fated.kept fun _ => Nat.le_refl _, ?_⟩⟩
      simpa [pnpIdMayFail, hrc] using hg
  · simp only [hne, ↓reduceIte]
    exact .ret (hafter _) fun _ => id
  · obtain rfl := Decidable.not_not.mp hzero
    simp only [↓reduceIte]
    refine Triple.bind (triple_waitCb hbrought rfl) fun _ =>
      triple_ask (hbrought.standing _) hafter (fun _ _ _ => trivial) ?_
    intro ch s hs hlive hready hg _
    have hat : (Op.endRead uuid).At s.ctl := by
      rw [hs.1]
      exact ⟨⟨d, rfl⟩, rfl⟩
    have hread := fun out' => (carried_readOwned out').exec (.endRead uuid) ch s rfl
    by_cases hstatus : s.nimble.readStatus = 0
    · simp only [hstatus, ↓reduceIte]
      refine ⟨hs.1, hread _ ⟨hs.2.settled.read.owners, hs.2.settled.read.owners.reading⟩ hlive
        hready hg hat, fun _ => ⟨hs.2.unowned, s.reads, ?_⟩, fun hne => absurd rfl hne⟩
      simp [Op.exec, hstatus]
    · simp only [hstatus, ↓reduceIte]
      refine ⟨hs.1, hread _ hs.2.settled.read hlive hready hg hat,
        fun hzero => absurd hzero hstatus, fun _ => ⟨s.reads, ?_,
          hs.2.settled.fated.kept fun _ => Nat.le_refl _, ?_⟩⟩
      · simp [Op.exec, hstatus]
      · simpa [pnpIdMayFail, hstatus] using hg

/-- An operation on a buffer. -/
theorem triple_onBuf {out : ReadVar} {o : Op} {A : Sys → Prop} (hA : Stable host pnpIdMayFail A)
    (hstanding : ∀ s, A s → Standing (ReadOwned out) (discovering ph d) s)
    (hat : o.At (discovering ph d)) (hpre : ∀ s, A s → BufferReady o s)
    (hctl : ∀ (ch : Choice) (v : View), (v.exec o ch).ctl = v.ctl)
    (hnext : ∀ ch s, (o.exec ch s).nextBuf = s.nextBuf)
    (hfated : ∀ ch s, A s → Fated (rdataFate (o.exec ch s).reads) out.rdata (o.exec ch s)) :
    Triple host pnpIdMayFail BufferReady A (.perform o) fun _ =>
      Standing (RdataSettled out) (discovering ph d) := by
  refine triple_ask hA (fun _ => (carried_settled out).standing _) (fun s hs _ => hpre s hs) ?_
  intro ch s hs _ hready _ _
  obtain ⟨hc, howned⟩ := hstanding s hs
  refine ⟨(exec_ctl o ch s).trans ((hctl ch s.view).trans hc),
    ⟨howned.owners.exec hready (hc ▸ hat) (hpre s hs), fun buf hbuf => ?_⟩, hfated ch s hs⟩
  rw [hnext]
  exact howned.below buf hbuf

theorem exec_setField_nextBuf (d : DevId) (field : DevField) (c : Choice) (s : Sys) :
    ((Op.setField d field).exec c s).nextBuf = s.nextBuf := by
  rcases exec_setField_cases s d field c with ⟨_, hexec⟩ | ⟨_, _, -, -, hexec⟩ <;> rw [hexec]
  · rfl
  · rfl

/-- The buffer that was read is stored, or nothing is. -/
theorem triple_store {uuid : UInt16} {rc : Int} {out : ReadVar} {field : ReadVar → DevField}
    (hfield : KeepsRead uuid field) :
    Triple host pnpIdMayFail BufferReady (Standing (AfterRead uuid (rc, out)) (discovering ph d))
      (.when (rc = 0 ∧ out.rlen ≠ 0) (.perform (.setField d (field out)))) fun _ =>
      Standing (RdataSettled out) (discovering ph d) := by
  have hstable := (carried_afterRead uuid (rc, out)).standing (discovering ph d)
  refine .ite (fun hcond => ?_) fun _ =>
    .ret hstable fun s hs => ⟨hs.1, hs.2.settled hfield.other.1⟩
  refine triple_onBuf hstable (fun s hs => ⟨hs.1, hs.2.read⟩) ⟨.inl rfl, rfl⟩ (fun s hs => ?_)
    (fun _ _ => rfl) (exec_setField_nextBuf _ _) fun ch s hs => ?_
  · intro buf hbuf
    rcases hfield.buf? out with hnone | hsame
    · rw [hnone] at hbuf
      cases hbuf
    · have hrdata : out.rdata = some buf := hsame ▸ hbuf
      exact ⟨(hs.2.brought hcond.1).1 buf hrdata, hs.2.read.below buf hrdata⟩
  · obtain ⟨hunowned, before, hreads⟩ := hs.2.brought hcond.1
    rw [exec_setField_reads, hreads]
    -- the value of a protocol mode is stored, and its buffer forgotten
    refine fated_read fun _ hloose buf hbuf => ?_
    have hnone := hfield.unkept (hloose.resolve_right hcond.2) out
    exact Nat.le_zero.mp (hunowned buf hbuf ▸ (BuffersKept.setField d hnone ch).owners buf.token)

/-- The buffer that a read variable is at, if any, is freed. -/
theorem triple_free {uuid : UInt16} {rc : Int} {out : ReadVar}
    (huuid : uuid = Uuid.pnpId ∨ rc = 0 ∧ uuid = Uuid.rptRef ∧ out.rlen ≠ 0) :
    Triple host pnpIdMayFail BufferReady (Standing (AfterRead uuid (rc, out)) (discovering ph d))
      (.perform (.freeBuf out.rdata)) fun _ => Standing (RdataSettled out) (discovering ph d) := by
  refine triple_onBuf ((carried_afterRead uuid (rc, out)).standing _) (fun s hs => ⟨hs.1, hs.2.read⟩)
    ⟨⟨d, rfl⟩, rfl⟩ (fun s hs => ?_) (fun _ _ => rfl) (fun ch s => ?_) fun ch s hs => ?_
  · cases hbuf : out.rdata with
    | none => trivial
    | some buf =>
      refine ⟨?_, hs.2.read.below buf hbuf⟩
      by_cases hzero : rc = 0
      · exact (hs.2.brought hzero).1 buf hbuf
      · obtain ⟨before, -, hfated, hmay⟩ := hs.2.failed hzero
        obtain rfl := huuid.resolve_right fun h => hzero h.1
        exact mayFail_unowned hfated hmay hbuf
  · cases out.rdata <;> rfl
  · have hsame : ((Op.freeBuf out.rdata).exec ch s).reads = s.reads := by cases out.rdata <;> rfl
    rw [hsame]
    by_cases hzero : rc = 0
    · obtain ⟨-, before, hreads⟩ := hs.2.brought hzero
      rw [hreads]
      refine fated_read fun hpnp hloose => ?_
      obtain ⟨-, rfl, hlen⟩ := huuid.resolve_left hpnp
      exact absurd hloose (by simp [hlen, Uuid.rptRef, Uuid.protocolMode])
    · obtain ⟨before, hreads, hfated, -⟩ := hs.2.failed hzero
      obtain rfl := huuid.resolve_right fun h => hzero h.1
      rw [hreads]
      exact fated_freed hfated

theorem reading_owned :
    Reading pnpIdMayFail BufferReady OneOwner (fun v => RdataSettled v.out) ph d where
  into chr v field hfield := by
    refine Triple.bind (triple_readLongValue chr.valHandle chr.uuid16 v.out) fun r => ?_
    obtain ⟨rc, out⟩ := r
    exact Triple.bind (triple_store hfield) fun _ => .ret ((carried_settled out).standing _)
      fun _ => id
  pnpId chr v huuid := by
    refine Triple.bind (triple_readLongValue chr.valHandle chr.uuid16 v.out) fun r => ?_
    obtain ⟨rc, out⟩ := r
    have hafter := carried_afterRead chr.uuid16 (rc, out)
    refine Triple.bind (Keeps.when hafter (Keeps.plain hafter (.setField d (.pnpId _ _ _)) rfl
      ⟨.inl rfl, rfl⟩ fun _ _ => rfl)) fun _ => ?_
    exact Triple.bind (triple_free (.inl huuid)) fun _ =>
      .ret ((carried_settled out).standing _) fun _ => id
  malloc v := by
    refine (triple_mallocReport (carried_settled v.out) rfl).weaken fun rc s hs => ?_
    split at hs
    · rwa [if_pos ‹_›]
    · rw [if_neg ‹_›]
      exact ⟨hs.1, hs.2.read.owners⟩
  reportRef dsc report v huuid _ := by
    refine Triple.bind (triple_readLongValue dsc.handle dsc.uuid16 v.out) fun r => ?_
    obtain ⟨rc, out⟩ := r
    refine .ite (fun hcond => ?_) fun _ => ?_
    · exact Triple.bind (triple_free (.inr ⟨hcond.1, huuid, hcond.2⟩)) fun _ =>
        .ret ((carried_settled out).standing _) fun _ => id
    · exact .ret ((carried_afterRead _ _).standing _) fun s hs =>
        ⟨hs.1, hs.2.settled (huuid ▸ by decide)⟩
  push suuid v := by
    unfold pushReport
    split
    · exact Keeps.when (carried_settled _) (Keeps.plain (carried_settled _) _ rfl
        ⟨.inl rfl, rfl⟩ fun _ _ => rfl)
    · exact Keeps.ret (carried_settled _) _
  created _ _ _ := id
  configured _ _ _ _ _ := id

/-! ### The report maps -/

/-- A kept buffer was not freed. -/
theorem OneOwner.not_freed {s : Sys} (h : OneOwner s) {dev : Dev} (hdev : dev ∈ s.hidh.devices)
    {buf : Buf} (hbuf : buf ∈ dev.bufs) : buf.token ∉ s.freed := by
  have htoken : buf.token ∈ s.hidh.devices.flatMap Dev.tokens :=
    List.mem_flatMap.mpr ⟨dev, hdev, List.mem_map.mpr ⟨buf, hbuf, rfl⟩⟩
  have hkept := List.count_pos_iff.mpr htoken
  have honce := h.once buf.token
  unfold Sys.owners at honce
  exact List.count_eq_zero.mp (by omega)

theorem mem_of_slot {α : Type} {l : List α} {i : Nat} {a : α} (h : slot (l.map some) i = .ok a) :
    a ∈ l := by
  unfold slot at h
  rw [List.getElem?_map] at h
  cases hget : l[i]? with
  | none =>
    rw [hget] at h
    cases h
  | some b =>
    rw [hget] at h
    cases h
    exact List.mem_of_getElem? hget

/-- The data of a device's report map was not freed. -/
theorem OneOwner.reportMap {s : Sys} (h : OneOwner s) {d : DevId} {i : Nat} {raw : RawReportMap}
    (hraw : s.reportMap d i = .ok raw) {buf : Buf} (hbuf : raw.data = some buf) :
    buf.token ∉ s.freed := by
  unfold Sys.reportMap at hraw
  split at hraw
  · cases hraw
  · rename_i dev hdev
    split at hraw
    · cases hraw
    · rename_i maps hmaps
      refine h.not_freed (List.mem_of_find?_eq_some hdev) (List.mem_append_right _ ?_)
      refine List.mem_filterMap.mpr ⟨raw, ?_, hbuf⟩
      rw [hmaps, Option.getD_some]
      exact mem_of_slot hraw

theorem bufferReady_parse {s : Sys} {data : Option Buf}
    (h : ∀ buf, data = some buf → buf.token ∉ s.freed) : BufferReady (.parseReportMap data) s := by
  cases data with
  | none => trivial
  | some buf => exact h buf rfl

theorem parsing_owned : Parsing pnpIdMayFail BufferReady OneOwner ph d := by
  intro i skip use hskip huse
  have hstable : ∀ raw : RawReportMap, Stable host pnpIdMayFail fun s =>
      Standing OneOwner (discovered ph d) s ∧ ∀ buf, raw.data = some buf → buf.token ∉ s.freed := by
    rintro raw s s' hstep ⟨hs, hraw⟩
    refine ⟨carried_oneOwner.standing _ s s' hstep hs, ?_⟩
    obtain ⟨e, -, -, hstep⟩ := hstep
    have hfound := eventStep_foundDevs hstep fun _ => hs.2.basics.not_releasing
    rwa [show s'.freed = s.freed from congrArg Prod.snd hfound]
  refine Triple.bind (triple_ask (carried_oneOwner.standing _) hstable (fun _ _ _ => trivial) ?_)
    fun raw => .ite (fun _ => hskip.strengthen fun _ hs => hs.1) fun _ =>
      Triple.bind (triple_ask (hstable raw) (fun _ => carried_oneOwner.standing _) ?_ ?_) huse
  · intro ch s hs hlive hready hg _
    have hat : (Op.readReportMap d i).At s.ctl := hs.1 ▸ ⟨⟨_, rfl⟩, rfl⟩
    refine ⟨⟨(exec_ctl _ ch s).trans hs.1,
      carried_oneOwner.exec _ ch s rfl hs.2 hlive hready hg hat⟩, fun buf hbuf => ?_⟩
    cases hraw : s.reportMap d i with
    | error _ =>
      rw [hraw] at hbuf
      cases hbuf
    | ok raw =>
      rw [hraw] at hbuf
      have hkept := hs.2.reportMap hraw hbuf
      simpa [Op.exec, hraw, Sys.absorb] using hkept
  · exact fun s hs _ => bufferReady_parse hs.2
  · rintro ch s ⟨hs, hraw⟩ _ hready _ _
    have hat : (Op.parseReportMap raw.data).At s.ctl := hs.1 ▸ ⟨⟨d, _, rfl⟩, rfl⟩
    exact ⟨(exec_ctl _ ch s).trans hs.1, hs.2.exec hready hat (bufferReady_parse hraw)⟩

theorem discovery_owned :
    Triple host pnpIdMayFail BufferReady (Standing OneOwner (discovering ph d))
      (readDeviceServices d) fun _ => Discovered OneOwner ph d := by
  have hstart : ∀ s, OneOwner s → RdataSettled (DiscVars.out {}) s := fun s hs =>
    ⟨⟨hs, fun _ hbuf => nomatch hbuf⟩, ⟨fun _ => rfl, fun _ _ hbuf => nomatch hbuf⟩⟩
  exact triple_discovery (carried_oneOwner.mono fun o ho => by simp [onBuf_of_bufless ho])
    (fun v => carried_settled v.out) reading_owned (fun _ _ hs => hs.read.owners) hstart
    (fun _ _ => id) parsing_owned

end Walk

/-! ## Runs -/

section Runs

variable {cfg : KbdConfig} {bonds : List (Bda × UInt8)} {c : HostConfig}

theorem oneOwner_boot (cfg : KbdConfig) (bonds : List (Bda × UInt8)) :
    OneOwner (boot cfg bonds).state where
  basics := .boot cfg bonds
  once _ := Nat.zero_le _
  fresh _ _ := rfl
  reading _ h := by cases h

/-- In every admitted run, an operation on a buffer finds what it needs. -/
theorem reach_bufferReady (h : Reach host pnpIdMayFail (boot cfg bonds) c)
    (hlive : c.state.fault = none) {o : Op} {k : Choice → Sys → Prog Label}
    (htask : c.task = .op o k) : BufferReady o c.state := by
  have houtside : Carried Op.outside pnpIdMayFail BufferReady OneOwner :=
    carried_oneOwner.mono fun o ho => by
      cases o with
      | setField _ _ | freeBuf _ | parseReportMap _ => cases ho
      | _ => rfl
  have hwp := houtside.reach (triple_espHidhDevOpen houtside fun _ _ => discovery_owned)
    (oneOwner_boot cfg bonds) h
  rw [htask] at hwp
  exact (hwp _ .refl (live_iff.mpr hlive)).1

/-- **Read buffers have one owner** in every run in which the read of a PnP id fails only while
`rdata` is, by the reads before, at no buffer or at one that was forgotten. -/
theorem buffersOwned_of_mayFail (cfg : KbdConfig) (bonds : List (Bda × UInt8))
    (c : HostConfig) (h : Reach host pnpIdMayFail (boot cfg bonds) c) : BuffersOwned c where
  once := by
    refine (Reach.invariant (fun o s => o.At s.ctl ∧ BufferReady o s) (fun _ => True) OneOwner
      (fun c o k hreach hlive htask => ?_) (fun _ _ => trivial) (oneOwner_boot cfg bonds) ?_ ?_
      h).once
    · exact ⟨reach_op_at hreach (live_iff.mp hlive) htask,
        reach_bufferReady hreach (live_iff.mp hlive) htask⟩
    · exact fun o ch s _ hs _ hready _ hpre => hs.exec hready hpre.1 hpre.2
    · exact fun e s s' _ hs _ _ hstep => hs.event hstep
  parsed buf k htask hlive := reach_bufferReady h hlive htask

end Runs

/-- From boot into the discovery of a keyboard with a device information service, whose manufacturer
name was read and stored, up to the request to read its PnP id. -/
def informationRun : List (Move Choice Event) :=
  scanRun 7 ++ selectRun ++ linkRun 7 ++ mains 1 ++
  answers [.svc ⟨Uuid.dis, 1, 9⟩, .svc ⟨Uuid.hid, 10, 19⟩, .done] ++ mains 4 ++
  [.main { bytes := [1] }] ++ mains 2 ++
  answers [.chr ⟨Uuid.manufacturerName, 2, 3, 2⟩, .chr ⟨Uuid.pnpId, 4, 5, 2⟩, .done] ++
  mains 5 ++ answers [.data [65], .done] ++ mains 4

/-- Both values are read: one buffer is kept, the other freed. -/
theorem buffersOwned_information : ∃ c, host.run pnpIdMayFail
    (informationRun ++ mains 1 ++ answers [.data [2, 0, 0, 0, 0, 0, 0], .done] ++ mains 4)
    (boot {} []) = some c ∧ (c.state.owners 0, c.state.freed) = (1, [1]) ∧ BuffersOwned c := by
  obtain ⟨c, hrun, hfreed⟩ := exists_run pnpIdMayFail
    (informationRun ++ mains 1 ++ answers [.data [2, 0, 0, 0, 0, 0, 0], .done] ++ mains 4)
    (boot {} []) (fun c => (c.state.owners 0, c.state.freed) == (1, [1])) (by decide +kernel)
  exact ⟨c, hrun, beq_iff_eq.mp hfreed, buffersOwned_of_mayFail {} [] c (Reach.of_run hrun)⟩

/-- The read of the PnP id is refused: the manufacturer name, which the device keeps, is freed. -/
theorem not_buffersOwned_refused : ∃ c, Reach host .free (boot {} []) c ∧ ¬BuffersOwned c := by
  obtain ⟨c, hrun, howners⟩ := exists_run .free (informationRun ++ [.main { rc := 1 }] ++ mains 1)
    (boot {} []) (fun c => c.state.owners 0 == 2) (by decide +kernel)
  refine ⟨c, .of_run hrun, fun howned => ?_⟩
  have honce := howned.once 0
  rw [beq_iff_eq.mp howners] at honce
  omega

end BleKbdHost.Host
