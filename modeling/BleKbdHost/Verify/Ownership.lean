import BleKbdHost.Host.Devices

/-!
# Who owns a device

A device on the list of `esp_hidh.c` is the one `s_hidh_dev` points to, or one that a call in
progress is opening, or one whose open event has not been handled. `do_pair` forgets a device that
is still listed, and an open event can push another device out of `s_hidh_dev`; without those, every
device has its owner, and no selected address is taken for connected while there is no link.
-/

namespace BleKbdHost.Host

open Hid Keys Conc

/-! ## The property -/

/-- An open event of the device is queued or being handled. -/
def OpenCarried (s : Sys) (d : DevId) : Prop :=
  ∃ p status, p.event = .open d status ∧
    (p ∈ s.hidh.eventQueue.items ∨ ∃ steps, s.hidh.handling = some (p, steps))

/-- Every listed device has an owner, `s_hidh_dev` is listed if it is set, and a selected address is
unknown when there is no link. -/
structure DevicesOwned (c : HostConfig) : Prop where
  owned : ∀ dev ∈ c.state.hidh.devices, c.state.kbd.hidhDev = some dev.id ∨
    c.state.ctl.stage.opening? = some dev.id ∨ OpenCarried c.state dev.id
  listed : ∀ d, c.state.kbd.hidhDev = some d → (c.state.dev? d).isSome = true
  reopens : ∀ bda k, c.task = .op (.openCall .selected bda) k → c.state.fault = none →
    c.state.radio.links = [] → c.state.getByBda bda = none

/-! ## The condition -/

/-- `do_pair` is reached without a listed device, and an open event finds `s_hidh_dev` unset or set
to its own device. -/
def remembered : Guard Op Choice Sys Event where
  main o _ s :=
    match o with
    | .clearHidhDev => s.hidh.devices.isEmpty
    | _ => true
  env e s :=
    match e, s.hidh.handling with
    | .dispatch, some (_, .setHidhDev d :: _) => s.kbd.hidhDev.all (· == d)
    | _, _ => true

/-! ## The invariant -/

/-- The device that an open in progress has not posted an event for. -/
def Stage.unposted? : Stage → Option DevId
  | .begun .open d | .failed .open d | .connecting .open d | .linked .open d _ | .marked .open d =>
    some d
  | _ => Option.none

theorem Stage.Within.unposted? {st st' : Stage} (h : st'.Within st) :
    st'.unposted? = st.unposted? := by
  rcases h with rfl | ⟨step, rfl⟩
  · rfl
  · cases st with
    | linked kind d _ => cases kind <;> rfl
    | _ => rfl

namespace View

/-- The device is, or is about to become, the one `s_hidh_dev` points to. -/
def Held (v : View) (d : DevId) : Prop :=
  v.kbd.hidhDev = some d ∨ ∃ p, (p, .setHidhDev d) ∈ v.agenda

end View

structure Ownership (v : View) : Prop where
  owned : ∀ d ∈ v.ids, v.Held d ∨ v.ctl.stage.opening? = some d
  listed : ∀ d, v.Held d → d ∈ v.ids
  unposted : ∀ d, v.ctl.stage.unposted? = some d → ¬v.Held d
  opened : ∀ d, v.ctl.stage = .opened .open d → v.Held d
  pairing : v.ctl.phase.unpaired = true → v.ids = []

/-- A step that leaves the devices and who holds them alone only has to account for the stage. -/
theorem Ownership.of_frame {v v' : View} (h : Ownership v) (hids : v'.ids = v.ids)
    (hheld : ∀ d, v'.Held d ↔ v.Held d)
    (hphase : v'.ctl.phase.unpaired = true → v.ctl.phase.unpaired = true)
    (hopening : ∀ d, v.ctl.stage.opening? = some d →
      v'.ctl.stage.opening? = some d ∨ v.Held d)
    (hunposted : ∀ d, v'.ctl.stage.unposted? = some d → v.ctl.stage.unposted? = some d)
    (hopened : ∀ d, v'.ctl.stage = .opened .open d → v.Held d) : Ownership v' where
  owned d hd := by
    rw [hids] at hd
    rw [hheld]
    rcases h.owned d hd with hheld' | hopening'
    · exact .inl hheld'
    · exact (hopening d hopening').symm
  listed d hd := hids ▸ h.listed d ((hheld d).mp hd)
  unposted d hd := by
    rw [hheld]
    exact h.unposted d (hunposted d hd)
  opened d hd := (hheld d).mpr (hopened d hd)
  pairing hph := hids ▸ h.pairing (hphase hph)

/-! ### Operations -/

/-- Only `postOpen` and `do_pair` change who holds a device. -/
theorem exec_held {o : Op} {c : Choice} {v : View} (hclear : o ≠ .clearHidhDev)
    (hpost : ∀ kind d, o ≠ .postOpen kind d) (d : DevId) : (v.exec o c).Held d ↔ v.Held d := by
  unfold View.Held
  rw [View.exec_hidhDev, View.exec_agenda _ _ _ fun kind d ho => absurd ho (hpost kind d)]
  cases o with
  | clearHidhDev => exact absurd rfl hclear
  | postOpen kind d => exact absurd rfl (hpost kind d)
  | _ => rfl

/-- An operation that touches neither the list nor the owners. -/
theorem Ownership.exec_frame {v : View} {o : Op} (c : Choice) (h : Ownership v)
    (hat : o.At v.ctl) (hclear : o ≠ .clearHidhDev) (hpost : ∀ kind d, o ≠ .postOpen kind d)
    (hids : v.nextIds o c = v.ids)
    (hopening : ∀ d, v.ctl.stage.opening? = some d →
      (v.nextStage o c).opening? = some d ∨ v.Held d)
    (hunposted : ∀ d, (v.nextStage o c).unposted? = some d → v.ctl.stage.unposted? = some d)
    (hopened : ∀ d, v.nextStage o c = .opened .open d → v.Held d) : Ownership (v.exec o c) := by
  rw [← View.exec_stage] at hopening hunposted hopened
  refine h.of_frame (by rw [View.exec_ids, hids]) (exec_held hclear hpost) (fun hph => ?_) hopening
    hunposted hopened
  rw [View.exec_phase] at hph
  exact (View.phaseStep hat).unpaired hclear hph

/-- The call in progress comes one stage further, or stays; it does not post its open event. -/
theorem Ownership.exec_advance {v : View} {o : Op} {t : Stage} (c : Choice) (h : Ownership v)
    (hat : o.At v.ctl) (hclear : o ≠ .clearHidhDev) (hpost : ∀ kind d, o ≠ .postOpen kind d)
    (hids : v.nextIds o c = v.ids) (hstage : v.nextStage o c = t)
    (hopening : t.opening? = v.ctl.stage.opening?)
    (hunposted : t.unposted? = v.ctl.stage.unposted?)
    (hopened : ∀ d, t = .opened .open d → v.Held d) : Ownership (v.exec o c) := by
  refine h.exec_frame c hat hclear hpost hids ?_ ?_ ?_ <;> rw [hstage]
  · exact fun d hd => .inl (hopening ▸ hd)
  · exact fun d hd => hunposted ▸ hd
  · exact hopened

/-- The call in progress ends; an open that posted its event leaves its device held. -/
theorem Ownership.exec_return {v : View} {o : Op} (c : Choice) (h : Ownership v)
    (hat : o.At v.ctl) (hclear : o ≠ .clearHidhDev) (hpost : ∀ kind d, o ≠ .postOpen kind d)
    (hids : v.nextIds o c = v.ids) (hstage : v.nextStage o c = .none)
    (hopening : ∀ d, v.ctl.stage.opening? = some d → v.ctl.stage = .opened .open d) :
    Ownership (v.exec o c) := by
  refine h.exec_frame c hat hclear hpost hids ?_ ?_ ?_ <;> rw [hstage]
  · exact fun d hd => .inr (h.opened d (hopening d hd))
  · exact nofun
  · exact nofun

/-- A new device is being opened. -/
theorem Ownership.devMalloc {v : View} {bda : Bda} (h : Ownership v) (hlist : DeviceList v)
    (addrType : UInt8) (c : Choice) (hphase : v.ctl.phase = .bonded ∨ v.ctl.phase = .connecting)
    (hstage : v.ctl.stage = .called bda) (hawait : v.ctl.awaiting = false) :
    Ownership (v.exec (.devMalloc bda addrType) c) := by
  have hheld := exec_held (o := .devMalloc bda addrType) (c := c) (v := v) (by simp) (by simp)
  by_cases hrc : c.rc = 0
  · have hids : (v.exec (.devMalloc bda addrType) c).ids = v.ids ++ [v.nextDev] := by
      rw [View.exec_ids]
      simp [View.nextIds, hrc]
    have hbegun : (v.exec (.devMalloc bda addrType) c).ctl.stage = .begun .open v.nextDev := by
      rw [View.exec_stage]
      simp [View.nextStage, hrc]
    have hnew : ¬v.Held v.nextDev := fun hd => Nat.lt_irrefl _ (hlist.fresh _ (h.listed _ hd))
    constructor
    · intro d hd
      rw [hids] at hd
      rw [hheld, hbegun]
      rcases List.mem_append.mp hd with hd | hd
      · rcases h.owned d hd with hd' | hopening
        · exact .inl hd'
        · rw [hstage] at hopening
          cases hopening
      · rw [List.mem_singleton.mp hd]
        exact .inr rfl
    · intro d hd
      rw [hids]
      exact List.mem_append_left _ (h.listed d ((hheld d).mp hd))
    · intro d hd
      rw [hbegun] at hd
      cases hd
      rwa [hheld]
    · intro d hd
      rw [hbegun] at hd
      cases hd
    · intro hph
      have hph' : v.ctl.phase.unpaired = true := by rwa [View.exec_phase] at hph
      rcases hphase with hbonded | hconnecting
      · rw [hbonded] at hph'
        cases hph'
      · rw [hconnecting] at hph'
        cases hph'
  · refine h.exec_advance c ⟨hphase, hstage, hawait⟩ (by simp) (by simp) ?_ (t := .none) ?_ ?_ ?_ (by simp)
    · simp [View.nextIds, hrc]
    · simp [View.nextStage, hrc]
    · rw [hstage]
      rfl
    · rw [hstage]
      rfl

/-- A device that failed to open goes; nobody holds it. -/
theorem Ownership.devFree {v : View} {d : DevId} (h : Ownership v) (c : Choice)
    (hstage : v.ctl.stage = .failed .open d) : Ownership (v.exec (.devFree d) c) := by
  have hheld := exec_held (o := .devFree d) (c := c) (v := v) (by simp) (by simp)
  have hids : ∀ d', d' ∈ (v.exec (.devFree d) c).ids ↔ d' ∈ v.ids ∧ d' ≠ d := by
    intro d'
    rw [View.exec_ids]
    simp [View.nextIds]
  constructor
  · intro d' hd'
    obtain ⟨hmem, hne⟩ := (hids d').mp hd'
    rcases h.owned d' hmem with hheld' | hopening
    · exact .inl ((hheld d').mpr hheld')
    · rw [hstage] at hopening
      exact absurd (Option.some.inj hopening).symm hne
  · intro d' hd'
    have hd'' := (hheld d').mp hd'
    refine (hids d').mpr ⟨h.listed d' hd'', ?_⟩
    rintro rfl
    exact h.unposted d' (by rw [hstage]; rfl) hd''
  · exact fun _ hst => by cases hst
  · exact fun _ hst => by cases hst
  · intro hph
    have hempty := h.pairing hph
    rw [View.exec_ids]
    simp [View.nextIds, hempty]

/-- The open event makes its device held. -/
theorem Ownership.postOpen {v : View} {kind : CallKind} {d : DevId} (h : Ownership v)
    (hlist : DeviceList v) (c : Choice) (hroom : v.eventQueue.hasRoom = true)
    (hstage : v.ctl.stage = .marked kind d) : Ownership (v.exec (.postOpen kind d) c) := by
  have hagenda := View.exec_agenda (.postOpen kind d) c v fun _ _ _ => hroom
  simp only [View.nextAgenda] at hagenda
  have hheld : ∀ d', (v.exec (.postOpen kind d) c).Held d' ↔ v.Held d' ∨ d' = d := by
    intro d'
    unfold View.Held
    rw [View.exec_hidhDev, hagenda]
    simp only [List.mem_append, View.work, hidhSteps]
    constructor
    · rintro (hdev | ⟨p, hmem | hmem⟩)
      · exact .inl (.inl hdev)
      · exact .inl (.inr ⟨p, hmem⟩)
      · have hsteps : p = ⟨v.nextSeq, .open d 0⟩ ∧ d' = d := by simpa using hmem
        exact .inr hsteps.2
    · rintro ((hdev | ⟨p, hmem⟩) | rfl)
      · exact .inl hdev
      · exact .inr ⟨p, .inl hmem⟩
      · exact .inr ⟨⟨v.nextSeq, .open d' 0⟩, .inr (by simp)⟩
  constructor
  · intro d' hd'
    rcases h.owned d' hd' with hheld' | hopening
    · exact .inl ((hheld d').mpr (.inl hheld'))
    · rw [hstage] at hopening
      cases kind with
      | «open» => exact .inr hopening
      | reconnect => cases hopening
  · intro d' hd'
    rcases (hheld d').mp hd' with hheld' | rfl
    · exact h.listed d' hheld'
    · exact hlist.attempted d' (by rw [hstage]; rfl)
  · intro d' hd'
    cases kind <;> cases hd'
  · intro d' hd'
    cases hd'
    exact (hheld d).mpr (.inr rfl)
  · exact h.pairing

/-- **An admitted operation keeps the owners.** -/
theorem Ownership.exec {s : Sys} {o : Op} {c : Choice} (h : Ownership s.view)
    (hlist : DeviceList s.view) (hready : o.ready s = true) (hg : remembered.main o c s = true)
    (hat : o.At s.ctl) : Ownership (s.view.exec o c) := by
  have hstay : ∀ o : Op, o.At s.ctl → o ≠ .clearHidhDev → (∀ kind d, o ≠ .postOpen kind d) →
      s.view.nextIds o c = s.view.ids → (s.view.nextStage o c).Within s.view.ctl.stage →
      Ownership (s.view.exec o c) := fun o hat hclear hpost hids hstage =>
    h.exec_advance c hat hclear hpost hids rfl hstage.opening? hstage.unposted? fun d hd =>
      h.opened d (hstage.opened.mp hd)
  cases o with
  | clearHidhDev =>
    have hempty : s.view.ids = [] := by
      have hdevices : s.hidh.devices = [] := List.isEmpty_iff.mp hg
      simp [View.ids, Sys.view, hdevices]
    have hids : (s.view.exec .clearHidhDev c).ids = [] := hempty
    have hfree : ∀ d, ¬s.view.Held d := fun d hd => by simpa [hempty] using h.listed d hd
    have hrest : s.view.ctl.stage = .none := congrArg Ctl.stage hat
    refine ⟨?_, ?_, ?_, ?_, fun _ => hids⟩ <;> intro d
    · rw [hids]
      simp
    · rintro (hdev | hset)
      · cases hdev
      · exact absurd (.inr hset) (hfree d)
    · simp [View.exec, hrest, Stage.unposted?]
    · simp [View.exec, hrest]
  | devMalloc bda addrType => exact h.devMalloc hlist addrType c hat.1 hat.2.1 hat.2.2
  | devFree d => exact h.devFree c hat.1
  | postOpen kind d => exact h.postOpen hlist c hready hat.1
  | openCall site bda =>
    have hrest : s.view.ctl.stage = .none := congrArg Ctl.stage hat
    refine h.exec_advance c hat (by simp) (by simp) rfl (t := if (s.view.byBda bda).isSome then .none else
      .called bda) rfl ?_ ?_ fun d hd => ?_
    · rw [hrest]
      split <;> rfl
    · rw [hrest]
      split <;> rfl
    · split at hd <;> cases hd
  | reconnectCall d =>
    have hrest : s.view.ctl.stage = .none := congrArg Ctl.stage hat
    refine h.exec_advance c hat (by simp) (by simp) rfl (t := .begun .reconnect d) rfl ?_ ?_ (by simp) <;>
    · rw [hrest]
      rfl
  | gapConnect kind d =>
    have hbegun : s.view.ctl.stage = .begun kind d := hat.1
    cases hkey : s.view.key? d with
    | none => exact hstay _ hat (by simp) (by simp) rfl (.inl (by simp [View.nextStage, hkey]))
    | some key =>
      have hst : s.view.nextStage (.gapConnect kind d) c =
          if s.view.accepts c key.bda then .connecting kind d else .failed kind d := by
        simp [View.nextStage, hkey]
      refine h.exec_advance c hat (by simp) (by simp) rfl hst ?_ ?_ fun d' hd' => ?_
      · rw [hbegun]
        split <;> cases kind <;> rfl
      · rw [hbegun]
        split <;> cases kind <;> rfl
      · split at hd' <;> cases hd'
  | readConnId kind d =>
    have hconnecting : s.view.ctl.stage = .connecting kind d := hat.1
    cases hkey : s.view.key? d with
    | none => exact hstay _ hat (by simp) (by simp) rfl (.inl (by simp [View.nextStage, hkey]))
    | some key =>
      have hst : s.view.nextStage (.readConnId kind d) c =
          if 0 ≤ key.connId then .linked kind d .fresh else .failed kind d := by
        simp [View.nextStage, hkey]
      refine h.exec_advance c hat (by simp) (by simp) rfl hst ?_ ?_ fun d' hd' => ?_
      · rw [hconnecting]
        split <;> cases kind <;> rfl
      · rw [hconnecting]
        split <;> cases kind <;> rfl
      · split at hd' <;> cases hd'
  | setConnected kind d =>
    obtain ⟨step, hstep, -⟩ := hat.1
    have hlinked : s.view.ctl.stage = .linked kind d step := hstep
    refine h.exec_advance c hat (by simp) (by simp) rfl (t := .marked kind d) rfl ?_ ?_ (by simp) <;>
    · rw [hlinked]
      cases kind <;> rfl
  | openReturns r =>
    refine h.exec_return c hat (by simp) (by simp) rfl rfl fun d hd => ?_
    cases r with
    | none =>
      have hst : s.view.ctl.stage = .none := hat.1
      rw [hst] at hd
      cases hd
    | some d' =>
      have hst : s.view.ctl.stage = .opened .open d' := hat.1
      rw [hst] at hd ⊢
      cases hd
      rfl
  | reconnectReturns r =>
    refine h.exec_return c hat (by simp) (by simp) rfl rfl fun d hd => ?_
    have hst : ∃ d', s.view.ctl.stage = .begun .reconnect d' ∨
        s.view.ctl.stage = .failed .reconnect d' ∨ s.view.ctl.stage = .opened .reconnect d' := by
      cases r with
      | none =>
        obtain ⟨d', hst | hst⟩ := hat.1
        · exact ⟨d', .inl hst⟩
        · exact ⟨d', .inr (.inl hst)⟩
      | some d' => exact ⟨d', .inr (.inr hat.1)⟩
    obtain ⟨d', hst | hst | hst⟩ := hst <;>
    · rw [hst] at hd
      cases hd
  | _ => exact hstay _ hat (by simp) (by simp) rfl (View.nextStage_within c _ rfl)

/-! ### Events -/

/-- Only open events set `s_hidh_dev`. -/
theorem work_of_not_open {seq : Nat} {event : HidhEvent} (hopen : ∀ d status, event ≠ .open d status)
    (p : Posted) (d : DevId) : (p, .setHidhDev d) ∉ View.work ⟨seq, event⟩ := by
  cases event with
  | «open» d' status => exact absurd rfl (hopen d' status)
  | input _ _ _ usage _ => by_cases husage : usage = .keyboard <;> simp [View.work, hidhSteps, husage]
  | _ => simp [View.work, hidhSteps]

/-- An event beside the event task. -/
theorem Ownership.effect {e : Event} {v v' : View} (h : Ownership v) (heff : View.Effect e v v')
    (he : e ≠ .dispatch) : Ownership v' := by
  have hctl := heff.ctl
  refine h.of_frame (heff.ids he) (fun d => ?_) (by rw [hctl]; exact id) (by rw [hctl]; exact fun _ => .inl)
    (by rw [hctl]; exact fun _ => id) (by rw [hctl]; exact h.opened)
  unfold View.Held
  rw [(heff.kbd he).1]
  rcases heff.agenda_append he with hsame | ⟨event, happend, hopen⟩
  · rw [hsame]
  · rw [happend]
    constructor
    · rintro (hdev | ⟨p, hmem⟩)
      · exact .inl hdev
      · rcases List.mem_append.mp hmem with hmem | hmem
        · exact .inr ⟨p, hmem⟩
        · exact absurd hmem (work_of_not_open hopen p d)
    · rintro (hdev | ⟨p, hmem⟩)
      · exact .inl hdev
      · exact .inr ⟨p, List.mem_append_left _ hmem⟩

/-- A step of the event task that is not about to push another device out of `s_hidh_dev`. -/
theorem Ownership.dispatch {v v' : View} (h : Ownership v) (hwork : View.WorkOf v)
    (heff : View.Effect .dispatch v v')
    (hguard : ∀ p d rest, v.handling = some (p, .setHidhDev d :: rest) →
      ∀ d', v.kbd.hidhDev = some d' → d' = d) : Ownership v' := by
  have hctl := heff.ctl
  have hids : v'.ids = v.ids := by rw [View.ids, hwork.keys heff, View.ids]
  refine h.of_frame hids (fun d => ?_) (by rw [hctl]; exact id) (by rw [hctl]; exact fun _ => .inl)
    (by rw [hctl]; exact fun _ => id) (by rw [hctl]; exact h.opened)
  unfold View.Held
  rcases heff.dispatch with ⟨p, step, rest, hhandling, hagenda, hv'⟩ | ⟨hagenda, p, queue, rest, hv'⟩
  · have hkbd : v'.kbd = (v.stepExec step).kbd := by rw [hv', View.setHandling_kbd]
    rw [hkbd, hagenda]
    by_cases hset : ∃ d', step = .setHidhDev d'
    · obtain ⟨d', rfl⟩ := hset
      constructor
      · rintro (hdev | ⟨q, hmem⟩)
        · cases hdev
          exact .inr ⟨p, List.mem_cons_self⟩
        · exact .inr ⟨q, List.mem_cons_of_mem _ hmem⟩
      · rintro (hdev | ⟨q, hmem⟩)
        · left
          rw [hguard p d' rest hhandling d hdev]
          rfl
        · rcases List.mem_cons.mp hmem with heq | hmem
          · cases heq
            exact .inl rfl
          · exact .inr ⟨q, hmem⟩
    · have hsame : (v.stepExec step).kbd.hidhDev = v.kbd.hidhDev := by
        cases step with
        | setHidhDev d' => exact absurd ⟨d', rfl⟩ hset
        | _ => rfl
      have hrest : (∃ q, (q, .setHidhDev d) ∈ (p, step) :: v'.agenda) ↔
          ∃ q, (q, .setHidhDev d) ∈ v'.agenda := by
        constructor
        · rintro ⟨q, hmem⟩
          rcases List.mem_cons.mp hmem with heq | hmem
          · cases heq
            exact absurd ⟨d, rfl⟩ hset
          · exact ⟨q, hmem⟩
        · rintro ⟨q, hmem⟩
          exact ⟨q, List.mem_cons_of_mem _ hmem⟩
      rw [hsame, hrest]
  · have hkbd : v'.kbd = v.kbd := by rw [hv', View.setHandling_kbd]
    rw [hkbd, hagenda]

theorem ownership {cfg : KbdConfig} {bonds : List (Bda × UInt8)} {c : HostConfig}
    (h : Reach host remembered (boot cfg bonds) c) : Ownership c.state.view := by
  refine reach_keeps_of_known (J := fun s => View.WorkOf s.view ∧ DeviceList s.view)
    (I := fun s => Ownership s.view) h (fun _ hreach => ⟨View.workOf hreach, deviceList hreach⟩) ?_ ?_ ?_
  · constructor <;> simp [boot, Sys.view, View.ids, View.Held, View.agenda, BoundedQueue.empty,
      Stage.unposted?]
  · intro o ch s hknown hinv _ hready hg hat
    rw [exec_view]
    exact hinv.exec hknown.2 hready hg hat
  · rintro e s s' ⟨hwork, -⟩ hinv _ hg hstep
    have heff := eventStep_view hstep
    by_cases he : e = .dispatch
    · subst he
      refine hinv.dispatch hwork heff fun p d rest hhandling d' hdev => ?_
      have hhandling' : s.hidh.handling = some (p, .setHidhDev d :: rest) := hhandling
      have hdev' : s.kbd.hidhDev = some d' := hdev
      simpa [remembered, hhandling', hdev'] using hg
    · exact hinv.effect heff he

/-! ## The result -/

/-- The event that is to set `s_hidh_dev` is an open event that was not handled. -/
theorem openCarried_of_agenda {s : Sys} {p : Posted} {d : DevId} (h : View.WorkOf s.view)
    (hmem : (p, .setHidhDev d) ∈ s.view.agenda) : OpenCarried s d := by
  refine ⟨p, 0, h.event hmem, ?_⟩
  rcases List.mem_append.mp hmem with hmem | hmem
  · right
    cases hhandling : s.hidh.handling with
    | none => simp [Sys.view, hhandling] at hmem
    | some q =>
      have hsteps : ∃ step ∈ q.2, (q.1, step) = (p, .setHidhDev d) := by
        simpa [Sys.view, hhandling] using hmem
      obtain ⟨step, -, heq⟩ := hsteps
      cases heq
      exact ⟨q.2, rfl⟩
  · left
    obtain ⟨q, hq, hmem⟩ := List.mem_flatMap.mp hmem
    obtain ⟨step, -, heq⟩ := List.mem_map.mp hmem
    cases heq
    exact hq

/-- **Devices keep their owner.** In every run in which `do_pair` is reached without a listed device
and an open event finds `s_hidh_dev` unset or set to its own device, every listed device has an
owner, and a selected address is unknown when there is no link. -/
theorem devicesOwned_of_remembered {cfg : KbdConfig} {bonds : List (Bda × UInt8)} {c : HostConfig}
    (h : Reach host remembered (boot cfg bonds) c) : DevicesOwned c := by
  have hinv := ownership h
  have hwork := View.workOf h
  constructor
  · intro dev hdev
    have hid : dev.id ∈ c.state.view.ids := by
      simp only [View.ids, Sys.view, List.map_map, List.mem_map]
      exact ⟨dev, hdev, rfl⟩
    rcases hinv.owned dev.id hid with (hheld | ⟨p, hmem⟩) | hopening
    · exact .inl hheld
    · exact .inr (.inr (openCarried_of_agenda hwork hmem))
    · exact .inr (.inl hopening)
  · intro d hd
    have hid := View.mem_ids_iff.mp (hinv.listed d (.inl hd))
    rwa [key?_view, Option.isSome_map] at hid
  · intro bda k htask hlive _
    have hat : c.state.ctl = rest (.selected bda) := reach_op_at h hlive htask
    have hids : c.state.view.ids = [] := hinv.pairing (by simp [Sys.view, hat, Phase.unpaired])
    have hdevices : c.state.hidh.devices = [] := by simpa [View.ids, Sys.view] using hids
    simp [Sys.getByBda, hdevices]

/-! ## Runs -/

/-- A device is opened and becomes `s_hidh_dev`. -/
theorem devicesOwned_connected : ∃ c, host.run remembered
    (scanRun 7 ++ selectRun ++ linkRun 7 ++ openRun) (boot {} []) = some c ∧
      c.state.kbd.hidhDev = some 0 ∧ DevicesOwned c := by
  obtain ⟨c, hrun, hdev⟩ := exists_run remembered
    (scanRun 7 ++ selectRun ++ linkRun 7 ++ openRun) (boot {} [])
    (fun c => c.state.kbd.hidhDev == some 0) (by decide +kernel)
  exact ⟨c, hrun, beq_iff_eq.mp hdev, devicesOwned_of_remembered (Reach.of_run hrun)⟩

/-- The kbd task tries the selected device, while one device is listed and nothing holds it. -/
def orphaned (c : HostConfig) : Bool :=
  (match c.task with | .op (.openCall .selected _) _ => true | _ => false) &&
    c.state.fault.isNone && c.state.radio.links.isEmpty &&
    (c.state.hidh.devices.map fun dev => (dev.id, dev.bda)) == [(0, 7)] &&
    c.state.kbd.hidhDev.isNone && c.state.ctl.stage == .none &&
    c.state.hidh.eventQueue.items.isEmpty && c.state.hidh.handling.isNone

/-- Re-pairing with the same keyboard: the link is closed and the close event handled, but the
device stays on the list without an owner, and its address is refused when it is selected. -/
theorem not_devicesOwned_repaired :
    ∃ c, Reach host .free (boot {} []) c ∧ ¬DevicesOwned c := by
  let run := scanRun 7 ++ selectRun ++ linkRun 7 ++ openRun ++
    repairRun ([.env (.disconnected 5 0)] ++ List.replicate 3 (.env .dispatch)) ++ rescanRun 7 ++
    selectRun.dropLast
  obtain ⟨c, hrun, horphaned⟩ := exists_run .free run (boot {} []) orphaned (by decide +kernel)
  refine ⟨c, .of_run hrun, fun howned => ?_⟩
  simp only [orphaned, Bool.and_eq_true, Option.isNone_iff_eq_none, List.isEmpty_iff,
    beq_iff_eq] at horphaned
  obtain ⟨⟨⟨⟨⟨-, hdevices⟩, hdev⟩, hstage⟩, hqueue⟩, hhandling⟩ := horphaned
  obtain ⟨dev, hmem, -⟩ := List.mem_map.mp (hdevices ▸ List.mem_singleton.mpr rfl)
  rcases howned.owned dev hmem with h | h | ⟨p, status, -, h | ⟨steps, h⟩⟩
  · rw [hdev] at h
    cases h
  · rw [hstage] at h
    cases h
  · rw [hqueue] at h
    cases h
  · rw [hhandling] at h
    cases h

end BleKbdHost.Host
