import BleKbdHost.Host.EventLog
import BleKbdHost.Host.Places

/-!
# Device pointers

A device is freed only by the open that allocated it, and then nothing points to it: `s_hidh_dev`,
the transport call in progress and the events that are queued all point to listed devices, in every
run. Notifications never carry attribute handle 0, which ATT reserves; the battery handle of a new
device is 0.
-/

namespace BleKbdHost.Host

open Hid Keys Conc

/-- The device of a transport call in progress. -/
def Stage.dev? : Stage → Option DevId
  | .begun _ d | .failed _ d | .connecting _ d | .linked _ d _ | .marked _ d | .opened _ d => some d
  | .none | .called _ => Option.none

/-- The device that an operation reads, writes, passes on or frees. -/
def Op.dev? : Op → Option DevId
  | .readDev d | .reconnectCall d | .closeCall d | .gapTerminate d | .devFree d | .gapConnect _ d
  | .readConnId _ d | .installCallbacks d | .securityInitiate d | .takeSec d _ _ | .setConnected _ d
  | .postOpen _ d | .discAllSvcs d | .discAllChrs d _ _ | .discAllDscs d _ _ | .readLong d _ _
  | .mallocReportMaps d | .mallocProtocolMode d | .setField d _ | .readReportMap d _ => some d
  | .openReturns d? | .reconnectReturns d? => d?
  | _ => none

/-- The NimBLE host drops notifications of the reserved handle. -/
def unreserved : Guard Op Choice Sys Event where
  main _ _ _ := true
  env e _ :=
    match e with
    | .notifyRx _ attr _ _ => attr != 0
    | _ => true

/-! ## What the operations write to devices -/

/-- A write of the main task to a device. -/
inductive Op.Writes : Op → DevId → (Dev → Dev) → Prop
  | callbacks (d : DevId) : Writes (.installCallbacks d) d fun dev => { dev with callbacks := true }
  | maps (d : DevId) : Writes (.mallocReportMaps d) d fun dev =>
      { dev with reportMaps := some (List.replicate dev.reportMapsLen.toNat {}) }
  | modes (d : DevId) (c : Choice) : Writes (.mallocProtocolMode d) d fun dev =>
      { dev with protocolMode := some (freshBytes c dev.reportMapsLen.toNat) }
  | connected (kind : CallKind) (d : DevId) : Writes (.setConnected kind d) d fun dev =>
      { dev with connected := true }
  | field (d : DevId) (field : DevField) : Writes (.setField d field) d fun dev =>
      (field.write dev).toOption.getD dev

/-- The devices after an operation. -/
inductive DevicesAfter (s : Sys) (c : Choice) : Op → List Dev → Prop
  | same (o : Op) : DevicesAfter s c o s.hidh.devices
  | added (bda : Bda) (addrType : UInt8) (hrc : c.rc = 0) : DevicesAfter s c (.devMalloc bda addrType)
      (s.hidh.devices ++ [{ id := s.hidh.nextDev, bda := bda, addressType := addrType : Dev }])
  | freed (d : DevId) : DevicesAfter s c (.devFree d) (s.hidh.devices.filter (·.id != d))
  | written {o : Op} {d : DevId} {f : Dev → Dev} (h : o.Writes d f) :
      DevicesAfter s c o (s.setDev d f).hidh.devices

theorem absorb_devices {α : Type} {s : Sys} {r : Except Fault α} {f : α → Sys}
    (h : ∀ a, (f a).hidh.devices = s.hidh.devices) :
    (s.absorb r f).hidh.devices = s.hidh.devices := by
  cases r with
  | ok a => exact h a
  | error _ => rfl

theorem exec_devices (o : Op) (c : Choice) (s : Sys) :
    DevicesAfter s c o (o.exec c s).hidh.devices := by
  have hsame : ∀ (o : Op) (s' : Sys), s'.hidh.devices = s.hidh.devices →
      DevicesAfter s c o s'.hidh.devices := fun o s' h => h.symm ▸ .same o
  cases o with
  | peekCmd _ | awaitDisconnect _ _ | emitKey _ | reconnectReturns _ | gapDisc | assertStatus =>
    refine hsame _ _ ?_
    simp only [Op.exec]
    split <;> rfl
  | devMalloc bda addrType =>
    simp only [Op.exec]
    split
    · rename_i hrc
      exact .added bda addrType hrc
    · exact .same _
  | devFree d => exact .freed d
  | gapConnect kind d =>
    refine hsame _ _ ?_
    simp only [Op.exec]
    split
    · rfl
    · split <;> rfl
  | readConnId kind d =>
    refine hsame _ _ ?_
    simp only [Op.exec]
    split <;> rfl
  | installCallbacks d => exact .written (.callbacks d)
  | setConnected kind d => exact .written (.connected kind d)
  | mallocReportMaps d =>
    simp only [Op.exec]
    split
    · exact .written (.maps d)
    · exact .same _
  | mallocProtocolMode d =>
    simp only [Op.exec]
    split
    · exact .written (.modes d c)
    · exact .same _
  | setField d field =>
    rcases exec_setField_cases s d field c with ⟨fault, hfail⟩ | ⟨dev, dev', -, -, hwrite⟩
    · rw [hfail]
      exact .same _
    · rw [hwrite]
      exact .written (.field d field)
  | readSvc _ | readChr _ | readDefHandle _ | readDsc _ | readReportMap _ _ =>
    exact hsame _ _ (absorb_devices fun _ => rfl)
  | freeBuf buf => cases buf <;> exact .same _
  | parseReportMap data =>
    refine hsame _ _ ?_
    cases data with
    | none => rfl
    | some buf =>
      simp only [Op.exec]
      split
      · rfl
      · exact absorb_devices fun _ => rfl
  | _ => exact .same _

/-! ## A device that may be freed -/

/-- The device has not been connected, and no notification of it becomes an event. -/
structure Dev.Blank (dev : Dev) : Prop where
  connected : dev.connected = false
  battery : dev.batteryHandle = 0
  reports : dev.reports = []

/-- The device that the open in progress may free is as it was allocated. -/
def Unopened (s : Sys) : Prop :=
  ∀ dev ∈ s.hidh.devices, s.ctl.stage.releasable? = some dev.id → dev.Blank

namespace Unopened

variable {s s' : Sys} {o : Op} {e : Event} {d : DevId} {f : Dev → Dev} {dev : Dev}

theorem setDev (h : Unopened s) (hid : ∀ dev, (f dev).id = dev.id)
    (hf : s.ctl.stage.releasable? = some d → ∀ dev, dev.Blank → (f dev).Blank)
    (hdev : dev ∈ (s.setDev d f).hidh.devices) (hst : s.ctl.stage.releasable? = some dev.id) :
    dev.Blank := by
  obtain ⟨old, hold, rfl⟩ := List.mem_map.mp hdev
  split at hst <;> rename_i hd
  · rw [if_pos hd]
    rw [hid] at hst
    exact hf (hd ▸ hst) old (h old hold hst)
  · rw [if_neg hd]
    exact h old hold hst

/-- Where the main task writes to a device, the open in progress does not free it any more. -/
theorem not_releasable (hwrite : o.Writes d f) (hat : o.At s.ctl) :
    s.view.ctl.stage.releasable? = none := by
  change s.ctl.stage.releasable? = none
  cases hwrite with
  | callbacks | maps | modes => rw [hat.1]; rfl
  | connected kind =>
    obtain ⟨⟨step, hlinked, -⟩, -⟩ := hat
    rw [hlinked]
    rfl
  | field _ field => rcases hat.1 with hlinked | hlinked <;> rw [hlinked] <;> rfl

theorem exec (h : Unopened s) (hlist : DeviceList s.view) (c : Choice) (hat : o.At s.ctl) :
    Unopened (o.exec c s) := by
  intro dev hdev hst
  rw [exec_ctl] at hst
  have hold := View.exec_releasable (v := s.view) hat hst
  have hafter := exec_devices o c s
  generalize (o.exec c s).hidh.devices = devices at hafter hdev
  cases hafter with
  | same =>
    rcases hold with hold | ⟨-, -, hnew⟩
    · exact h dev hdev hold
    · have hlt := hlist.fresh dev.id (List.mem_map.mpr ⟨dev.key, List.mem_map.mpr ⟨dev, hdev, rfl⟩, rfl⟩)
      exact absurd hnew (Nat.ne_of_lt hlt)
  | added bda addrType hrc =>
    rcases List.mem_append.mp hdev with hdev | hdev
    · rcases hold with hold | ⟨-, -, hnew⟩
      · exact h dev hdev hold
      · have hlt := hlist.fresh dev.id
          (List.mem_map.mpr ⟨dev.key, List.mem_map.mpr ⟨dev, hdev, rfl⟩, rfl⟩)
        exact absurd hnew (Nat.ne_of_lt hlt)
    · rw [List.mem_singleton.mp hdev]
      exact ⟨rfl, rfl, rfl⟩
  | freed d =>
    rcases hold with hold | ⟨-, ⟨bda, addrType, ho, -⟩, -⟩
    · exact h dev (List.mem_filter.mp hdev).1 hold
    · cases ho
  | written hwrite =>
    have hnone := not_releasable hwrite hat
    rcases hold with hold | ⟨-, ⟨bda, addrType, rfl, -⟩, -⟩
    · rw [hnone] at hold
      cases hold
    · cases hwrite

theorem event (h : Unopened s) (hkeep : ∀ d, s.releasing d = false) (hstep : eventStep e s = some s') :
    Unopened s' := by
  intro dev hdev hst
  rw [eventStep_ctl hstep] at hst
  obtain ⟨-, hsame | ⟨d, f, hwrite, hdevices⟩⟩ := eventStep_devices hstep fun _ => hkeep
  · exact h dev (hsame ▸ hdev) hst
  · rw [hdevices] at hdev
    refine h.setDev hwrite.id (fun _ old hold => ?_) hdev hst
    cases hwrite with
    | closed => exact ⟨rfl, hold.battery, hold.reports⟩
    | _ => exact ⟨hold.connected, hold.battery, hold.reports⟩

end Unopened

/-! ## Events -/

/-- The events that are not handled yet are about devices that stay. -/
def EventsSettled (v : View) : Prop := ∀ p ∈ v.pending, Settled p.event.dev v

namespace EventsSettled

variable {s s' : Sys} {o : Op} {e : Event}

theorem exec (h : EventsSettled s.view) (hlist : DeviceList s.view) (c : Choice)
    (hready : o.ready s = true) (hat : o.At s.ctl) : EventsSettled (s.view.exec o c) := by
  intro p hp
  have hlogs := View.exec_logs o c s.view fun kind d ho => by
    subst ho
    exact hready
  rw [hlogs.pending] at hp
  rcases List.mem_append.mp hp with hp | hp
  · exact (h p hp).exec hlist c hat
  · cases o with
    | postOpen kind d =>
      rw [List.mem_singleton.mp hp]
      have hmarked : s.view.ctl.stage = .marked kind d := hat.1
      have hsettled : Settled d s.view :=
        .of_attempted hlist (by rw [hmarked]; rfl) (by rw [hmarked]; rfl)
      exact hsettled.exec hlist c hat
    | _ => cases hp

/-- No notification of a device that may be freed becomes an event. -/
theorem notified {handle attr : UInt16} {data : List UInt8} {mem : Bool} (hblank : Unopened s)
    (hattr : attr ≠ 0) (hstep : gapNotifyRx s handle attr data mem = some s') {dev : Dev}
    (hdev : s.getByConnId handle = some dev) (hrel : s.ctl.stage.releasable? = some dev.id) :
    s' = s := by
  have hdevBlank := hblank dev (List.mem_of_find?_eq_some hdev) hrel
  have hnone : notifyEvent dev attr data = .ok none := by
    unfold notifyEvent
    rw [if_neg (by rw [hdevBlank.battery]; exact hattr), hdevBlank.reports]
    rfl
  unfold gapNotifyRx at hstep
  split at hstep
  · rw [hdev] at hstep
    simp only [hnone, Option.some.injEq] at hstep
    exact hstep.symm
  · cases hstep

theorem event (h : EventsSettled s.view) (hknown : Known s) (hblank : Unopened s)
    (hg : unreserved.env e s = true) (hstep : eventStep e s = some s') : EventsSettled s'.view := by
  have heff := eventStep_view hstep
  intro p hp
  have hold : p ∈ s.view.pending → Settled p.event.dev s'.view := fun hmem =>
    (h p hmem).effect hknown.work heff
  by_cases he : e = .dispatch
  · subst he
    obtain ⟨-, l, -, -, -, ⟨hsame, -⟩ | ⟨q, hhead, -⟩⟩ := heff.handles
    · exact hold (hsame ▸ hp)
    · exact hold (hhead ▸ List.mem_cons_of_mem q hp)
  · obtain ⟨l, event?, hlogs, -, -⟩ := heff.logs he
    rw [hlogs.pending] at hp
    rcases List.mem_append.mp hp with hp | hp
    · exact hold hp
    -- the event was posted by this step
    obtain ⟨l', htrace, hby⟩ := heff.records
    have hl : l = l' := List.append_cancel_right (hlogs.trace.symm.trans htrace)
    have hnew : .posted p ∈ l := (hlogs.posted p).mpr (Option.mem_toList.mp hp)
    have hlisted : ∀ (handle : UInt16) {key : DevKey}, s.view.byConnId handle = some key →
        key.id ∈ s.view.ids := fun _ _ hkey =>
      List.mem_map.mpr ⟨_, List.mem_of_find?_eq_some hkey, rfl⟩
    have hrec : (Obs.posted p).RecordedBy e s.view := hby _ (hl ▸ hnew)
    rcases hrec.2 with ⟨handle, attr, data, key, rfl, hkey, hdev⟩ |
      ⟨handle, reason, key, rfl, hkey, hconn, hclose⟩
    · rw [byConnId_view] at hkey
      obtain ⟨dev, hfound, rfl⟩ := Option.map_eq_some_iff.mp hkey
      by_cases hrel : s.ctl.stage.releasable? = some dev.id
      · obtain rfl := notified hblank (bne_iff_ne.mp hg) hstep hfound hrel
        exact h p (hlogs.pending ▸ List.mem_append_right _ hp)
      · rw [hdev]
        refine Settled.effect ⟨hlisted handle ?_, hrel⟩ hknown.work heff
        rw [byConnId_view, hfound]
        rfl
    · have hkey' := hkey
      rw [byConnId_view] at hkey'
      obtain ⟨dev, hfound, rfl⟩ := Option.map_eq_some_iff.mp hkey'
      rw [hclose]
      refine Settled.effect ⟨hlisted handle hkey, fun hrel => ?_⟩ hknown.work heff
      have hdevBlank := hblank dev (List.mem_of_find?_eq_some hfound) hrel
      have hfalse : dev.key.connected = false := hdevBlank.connected
      rw [hconn] at hfalse
      cases hfalse

end EventsSettled

/-! ## Every run -/

variable {g : Guard Op Choice Sys Event}

/-- The call in progress has a listed device. -/
def CallListed (v : View) : Prop := ∀ d, v.ctl.stage.dev? = some d → d ∈ v.ids

theorem Stage.Within.dev? {st st' : Stage} (h : st'.Within st) : st'.dev? = st.dev? := by
  rcases h with rfl | ⟨step, rfl⟩
  · rfl
  · cases st <;> rfl

theorem CallListed.exec {s : Sys} {o : Op} (h : CallListed s.view) (c : Choice) (hat : PlacedAt g o s) :
    CallListed (s.view.exec o c) := by
  -- the device of the stage before is listed, and so it is if the stage changes
  have hmove : ∀ {st : Stage}, (∀ d, st.dev? = some d → d ∈ s.view.ids) →
      s.view.nextStage o c = st → s.view.nextIds o c = s.view.ids → CallListed (s.view.exec o c) := by
    intro st hst hstage hids d hd
    rw [View.exec_stage, hstage] at hd
    rw [View.exec_ids, hids]
    exact hst d hd
  have hat' := hat.1
  have hsame : ∀ {d' : DevId} {st : Stage}, s.view.ctl.stage.dev? = some d' →
      st.dev? = some d' → ∀ d, st.dev? = some d → d ∈ s.view.ids := by
    intro d' st hold hnew d hd
    rw [hnew] at hd
    exact Option.some.inj hd ▸ h d' hold
  cases o with
  | openCall site bda =>
    refine hmove (fun d hd => ?_) rfl rfl
    simp only [View.nextStage] at hd
    split at hd <;> cases hd
  | reconnectCall d =>
    refine hmove (fun d' hd => ?_) rfl rfl
    cases hd
    exact hat.2.listed
  | devMalloc bda addrType =>
    intro d hd
    rw [View.exec_stage] at hd
    rw [View.exec_ids]
    simp only [View.nextStage, View.nextIds] at hd ⊢
    split at hd <;> rename_i hrc
    · rw [if_pos hrc]
      cases hd
      exact List.mem_append_right _ (List.mem_singleton.mpr rfl)
    · cases hd
  | devFree d' =>
    intro d hd
    rw [View.exec_stage] at hd
    cases hd
  | gapConnect kind d =>
    have hstage : s.view.ctl.stage = .begun kind d := hat'.1
    have hdev : s.view.ctl.stage.dev? = some d := by rw [hstage]; rfl
    refine hmove (hsame hdev ?_) rfl rfl
    simp only [View.nextStage]
    split
    · exact hdev
    · split <;> rfl
  | readConnId kind d =>
    have hstage : s.view.ctl.stage = .connecting kind d := hat'.1
    have hdev : s.view.ctl.stage.dev? = some d := by rw [hstage]; rfl
    refine hmove (hsame hdev ?_) rfl rfl
    simp only [View.nextStage]
    split
    · exact hdev
    · split <;> rfl
  | setConnected kind d =>
    obtain ⟨⟨step, hlinked, -⟩, -⟩ := hat'
    have hdev : s.view.ctl.stage.dev? = some d := by
      change s.ctl.stage.dev? = some d
      rw [hlinked]
      rfl
    exact hmove (hsame hdev rfl) rfl rfl
  | postOpen kind d =>
    have hmarked : s.view.ctl.stage = .marked kind d := hat'.1
    exact hmove (hsame (by rw [hmarked]; rfl) rfl) rfl rfl
  | openReturns _ | reconnectReturns _ =>
    exact @hmove .none (fun d hd => (by cases hd)) rfl rfl
  | _ =>
    refine hmove (fun d hd => ?_) rfl rfl
    rw [(View.nextStage_within c s.view rfl).dev?] at hd
    exact h d hd

/-- What keeps the pointers in order. -/
structure Pointers (s : Sys) : Prop where
  call : CallListed s.view
  unopened : Unopened s
  events : EventsSettled s.view

theorem Pointers.boot (cfg : KbdConfig) (bonds : List (Bda × UInt8)) :
    Pointers (boot cfg bonds).state where
  call _ h := by cases h
  unopened _ h := by cases h
  events _ h := by cases h

end BleKbdHost.Host
