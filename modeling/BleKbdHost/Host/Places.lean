import BleKbdHost.Host.Common
import BleKbdHost.Host.Devices

/-!
# Operations with a place of their own

The operations that a single block performs stand where more is known than the control state says:
the scan begins in its phase and, if its end is not refused, is over when the selected entry is
copied, and a device that is reconnected is one that no open will free. `Op.InPlace` collects these
facts, and `reach_keeps_placed` is the invariant rule that uses them.
-/

namespace BleKbdHost.Host

open Hid Keys Conc Task

/-! ## Devices that stay -/

/-- The device that the open in progress frees if it comes to no connection. -/
def Stage.releasable? : Stage → Option DevId
  | .begun .open d | .failed .open d | .connecting .open d => some d
  | _ => Option.none

/-- The device is listed, and no open frees it any more. -/
structure Settled (d : DevId) (v : View) : Prop where
  listed : d ∈ v.ids
  kept : v.ctl.stage.releasable? ≠ some d

theorem Stage.Within.releasable? {st st' : Stage} (h : st'.Within st) :
    st'.releasable? = st.releasable? := by
  rcases h with rfl | ⟨step, rfl⟩
  · rfl
  · cases st <;> rfl

/-- Only an allocation begins an open of another device. -/
theorem View.exec_releasable {v : View} {o : Op} {c : Choice} {d : DevId} (hat : o.At v.ctl)
    (hd : (v.exec o c).ctl.stage.releasable? = some d) :
    v.ctl.stage.releasable? = some d ∨ v.ctl.stage.releasable? = none ∧
      (∃ bda addrType, o = .devMalloc bda addrType ∧ c.rc = 0) ∧ d = v.nextDev := by
  rw [View.exec_stage] at hd
  have hsame : ∀ kind d', v.ctl.stage = .begun kind d' ∨ v.ctl.stage = .connecting kind d' →
      ∀ st : Stage, st = .connecting kind d' ∨ st = .failed kind d' ∨ st = .linked kind d' .fresh →
        st.releasable? = some d → v.ctl.stage.releasable? = some d := by
    intro kind d' hstage st hst hd
    cases kind <;> rcases hst with rfl | rfl | rfl <;> cases hd <;>
      rcases hstage with hstage | hstage <;> rw [hstage] <;> rfl
  cases o with
  | openCall site bda =>
    simp only [View.nextStage] at hd
    split at hd <;> cases hd
  | devMalloc bda addrType =>
    simp only [View.nextStage] at hd
    split at hd
    · rename_i hrc
      refine .inr ⟨?_, ⟨bda, addrType, rfl, hrc⟩, (Option.some.inj hd).symm⟩
      rw [hat.2.1]
      rfl
    · cases hd
  | gapConnect kind d' =>
    simp only [View.nextStage] at hd
    split at hd
    · exact .inl hd
    · refine .inl (hsame kind d' (.inl hat.1) _ ?_ hd)
      split
      · exact .inl rfl
      · exact .inr (.inl rfl)
  | readConnId kind d' =>
    simp only [View.nextStage] at hd
    split at hd
    · exact .inl hd
    · refine .inl (hsame kind d' (.inr hat.1) _ ?_ hd)
      split
      · exact .inr (.inr rfl)
      · exact .inr (.inl rfl)
  | reconnectCall _ | devFree _ | setConnected _ _ | postOpen _ _ | openReturns _
  | reconnectReturns _ => cases hd
  | _ =>
    rw [(View.nextStage_within c v rfl).releasable?] at hd
    exact .inl hd

namespace Settled

variable {d : DevId} {v v' : View}

theorem of_attempted (hlist : DeviceList v) (hattempted : v.ctl.stage.attempted? = some d)
    (hkept : v.ctl.stage.releasable? = none) : Settled d v where
  listed := hlist.attempted d hattempted
  kept h := by rw [hkept] at h; cases h

/-- **An operation frees no device that stays.** -/
theorem exec {s : Sys} {o : Op} (h : Settled d s.view) (hlist : DeviceList s.view) (c : Choice)
    (hat : o.At s.ctl) : Settled d (s.view.exec o c) := by
  constructor
  · rw [View.exec_ids]
    cases o with
    | devMalloc bda addrType =>
      simp only [View.nextIds]
      split
      · exact List.mem_append_left _ h.listed
      · exact h.listed
    | devFree d' =>
      refine List.mem_filter.mpr ⟨h.listed, bne_iff_ne.mpr fun hd => h.kept ?_⟩
      have hstage : s.view.ctl.stage = .failed .open d' := hat.1
      rw [hstage, hd]
      rfl
    | _ => exact h.listed
  · intro hd
    rcases View.exec_releasable hat hd with hold | ⟨-, -, rfl⟩
    · exact h.kept hold
    · exact Nat.lt_irrefl _ (hlist.fresh _ h.listed)

theorem effect {e : Event} (h : Settled d v) (hwork : View.WorkOf v) (heff : View.Effect e v v') :
    Settled d v' := by
  have hids : v'.ids = v.ids := by
    by_cases he : e = .dispatch
    · subst he
      rw [View.ids, hwork.keys heff, View.ids]
    · exact heff.ids he
  exact ⟨hids ▸ h.listed, heff.ctl ▸ h.kept⟩

end Settled

/-- `s_hidh_dev`, what it is about to be set to, and the device that is about to be closed. -/
structure HidhSettled (v : View) : Prop where
  hidhDev : ∀ d, v.kbd.hidhDev = some d → Settled d v
  closing : ∀ d, v.ctl.phase = .closing (.found d) → Settled d v
  agenda : ∀ p d, (p, .setHidhDev d) ∈ v.agenda → Settled d v

/-- What is known of a state reached. -/
structure Known (s : Sys) : Prop extends Basics s where
  hidh : HidhSettled s.view

theorem HidhSettled.exec {s : Sys} {o : Op} (h : HidhSettled s.view) (hlist : DeviceList s.view)
    (c : Choice) (hready : o.ready s = true) (hat : o.At s.ctl) : HidhSettled (s.view.exec o c) := by
  constructor
  · intro d hd
    rw [View.exec_hidhDev] at hd
    cases o with
    | clearHidhDev => cases hd
    | _ => exact (h.hidhDev d hd).exec hlist c hat
  · intro d hd
    rw [View.exec_phase] at hd
    have hold : s.view.ctl.phase = .closing (.found d) ∨ s.view.kbd.hidhDev = some d :=
      (hd ▸ View.phaseStep (v := s.view) hat).found_cases
    exact (hold.elim (h.closing d) (h.hidhDev d)).exec hlist c hat
  · intro p d hmem
    rw [View.exec_agenda o c s.view fun kind d ho => by subst ho; exact hready] at hmem
    cases o with
    | postOpen kind d' =>
      rcases List.mem_append.mp hmem with hmem | hmem
      · exact (h.agenda p d hmem).exec hlist c hat
      · obtain ⟨step, hstep, heq⟩ := List.mem_map.mp hmem
        have hd : d = d' := by
          cases heq
          simpa [hidhSteps] using hstep
        have hmarked : s.view.ctl.stage = .marked kind d' := hat.1
        have hsettled : Settled d' s.view :=
          .of_attempted hlist (by rw [hmarked]; rfl) (by rw [hmarked]; rfl)
        rw [hd]
        exact hsettled.exec hlist c hat
    | _ => exact (h.agenda p d hmem).exec hlist c hat

theorem HidhSettled.effect {e : Event} {v v' : View} (h : HidhSettled v) (hwork : View.WorkOf v)
    (heff : View.Effect e v v') : HidhSettled v' := by
  by_cases he : e = .dispatch
  · subst he
    have hsettled : ∀ d, Settled d v → Settled d v' := fun d hd => hd.effect hwork heff
    have hclosing : ∀ d, v'.ctl.phase = .closing (.found d) → Settled d v' :=
      fun d hd => hsettled d (h.closing d (heff.ctl ▸ hd))
    rcases heff.dispatch with ⟨p, step, rest, -, hagenda, hv'⟩ | ⟨hagenda, p, queue, rest, hv'⟩
    · refine ⟨fun d hd => hsettled d ?_, hclosing, fun q d hmem => hsettled d (h.agenda q d ?_)⟩
      · rw [hv', View.setHandling_kbd] at hd
        cases step with
        | setHidhDev d' =>
          obtain rfl : d' = d := Option.some.inj hd
          exact h.agenda p d' (hagenda ▸ List.mem_cons_self)
        | _ => exact h.hidhDev d hd
      · rw [hagenda]
        exact List.mem_cons_of_mem _ hmem
    · refine ⟨fun d hd => hsettled d (h.hidhDev d ?_), hclosing, fun q d hmem =>
        hsettled d (h.agenda q d (hagenda ▸ hmem))⟩
      rw [hv', View.setHandling_kbd] at hd
      exact hd
  · refine ⟨fun d hd => (h.hidhDev d ((heff.kbd he).1 ▸ hd)).effect hwork heff,
      fun d hd => (h.closing d (heff.ctl ▸ hd)).effect hwork heff, fun p d hmem => ?_⟩
    rcases heff.agenda_append he with hsame | ⟨event, happend, hopen⟩
    · exact (h.agenda p d (hsame ▸ hmem)).effect hwork heff
    · rw [happend] at hmem
      rcases List.mem_append.mp hmem with hmem | hmem
      · exact (h.agenda p d hmem).effect hwork heff
      · obtain ⟨step, hstep, heq⟩ := List.mem_map.mp hmem
        cases heq
        cases event with
        | «open» d' status => exact absurd rfl (hopen d' status)
        | input _ _ _ usage _ =>
          by_cases husage : usage = .keyboard <;> simp [hidhSteps, husage] at hstep
        | _ => simp [hidhSteps] at hstep

theorem Known.boot (cfg : KbdConfig) (bonds : List (Bda × UInt8)) : Known (boot cfg bonds).state where
  toBasics := .boot cfg bonds
  hidh := ⟨nofun, nofun, fun _ _ h => (by cases h)⟩

/-! ### The scan -/

theorem store_discovering {α : Type} {s s₀ : Sys} {arr : List (Option α)} {i : Nat} {a : α}
    {f : List (Option α) → Sys} (hs : s.radio.discovering = s₀.radio.discovering)
    (h : ∀ arr, (f arr).radio.discovering = s₀.radio.discovering) :
    (s.store arr i a f).radio.discovering = s₀.radio.discovering := by
  unfold Sys.store
  split
  · exact h _
  · exact hs

theorem gattCb_discovering {s s' : Sys} {i : Nat} {rsp : GattRsp} (h : gattCb s i rsp = some s') :
    s'.radio.discovering = s.radio.discovering := by
  cases gattCb_cases h with
  | svc svc _ =>
    refine store_discovering rfl fun arr => ?_
    simp only
    split
    · rfl
    · split <;> rfl
  | chr _ _ | dsc _ _ => exact store_discovering rfl fun _ => rfl
  | found _ _ | lost _ _ _ | unread _ _ => rfl
  | data bytes _ =>
    simp only [onReadData]
    split <;> rfl
  | read _ =>
    unfold onReadDone
    split <;> rfl
  | written _ _ =>
    unfold onWrite
    split <;> rfl

theorem dispatch_discovering {s s' : Sys} (h : dispatch s = some s') :
    s'.radio.discovering = s.radio.discovering := by
  have hhandling : ∀ (s : Sys) (p : Posted) (steps : List HidhStep),
      (s.handling p steps).radio.discovering = s.radio.discovering := by
    intro s p steps
    cases steps <;> rfl
  unfold dispatch at h
  split at h
  · rename_i p step steps _
    cases h
    rw [hhandling]
    cases step <;> rfl
  · cases h
    rw [hhandling]
  · split at h
    · cases h
    · cases h
      rw [hhandling]

/-- **Nothing but the main task starts or stops the scan.** -/
theorem eventStep_discovering {e : Event} {s s' : Sys} (h : eventStep e s = some s') :
    s'.radio.discovering = s.radio.discovering := by
  cases e with
  | tick _ | startPairing | selectDevice _ | bonded _ _ => cases h; rfl
  | advertised report =>
    simp only [eventStep, Option.ite_none_right_eq_some, Option.some.injEq] at h
    obtain ⟨-, rfl⟩ := h
    rfl
  | connected handle ota identity =>
    simp only [eventStep, gapConnected] at h
    split at h
    · cases h
    · split at h
      · cases h
      · cases h
        simp only [connectEvent]
        split <;> rfl
  | connectFailed status =>
    simp only [eventStep, gapConnectFailed, Option.ite_none_right_eq_some, Option.some.injEq] at h
    obtain ⟨-, rfl⟩ := h
    rfl
  | disconnected handle reason =>
    simp only [eventStep, gapDisconnected] at h
    split at h
    · cases h
    · split at h
      · cases h
      · cases h
        simp only [disconnectEvent]
        split
        · rfl
        · split <;> rfl
  | encChange handle status =>
    simp only [eventStep, gapEncChange, Option.ite_none_right_eq_some, Option.some.injEq] at h
    obtain ⟨-, rfl⟩ := h
    rfl
  | repeatPairing handle =>
    simp only [eventStep, gapRepeatPairing] at h
    split at h
    · cases h
    · cases h; rfl
  | notifyRx handle attr data mem =>
    obtain rfl | ⟨fault, _, -, rfl⟩ | ⟨dev, event, -, -, -, -, rfl⟩ := gapNotifyRx_cases h <;> rfl
  | mtuExchanged handle =>
    simp only [eventStep, gapMtuExchanged, Option.ite_none_right_eq_some, Option.some.injEq] at h
    obtain ⟨-, rfl⟩ := h
    rfl
  | gattCb i rsp => exact gattCb_discovering h
  | dispatch => exact dispatch_discovering h

/-! ## The places -/

/-- The end of a scan is not refused. -/
def Cancels (g : Guard Op Choice Sys Event) : Prop :=
  ∀ c s, g.main .gapDiscCancel c s = true → c.rc = 0

/-- What holds where the operation stands. -/
def Op.InPlace (g : Guard Op Choice Sys Event) (s : Sys) : Op → Prop
  | .gapDisc => s.ctl = rest .scanning
  | .copySelected _ => Cancels g → s.radio.discovering = false
  | .reconnectCall d => Settled d s.view
  | .writeFlat _ _ value => value = [1, 0]
  | _ => True

theorem Op.Common.inPlace {g : Guard Op Choice Sys Event} {o : Op} (h : o.Common) (s : Sys) :
    o.InPlace g s := by
  cases o with
  | gapDisc | copySelected _ | reconnectCall _ => exact h.elim
  | writeFlat _ _ _ => exact h
  | _ => trivial

section Walk

variable {g : Guard Op Choice Sys Event} {α : Type} {q : Phase} {c c' : Ctl} {d : DevId}

/-- The operation stands where it belongs, in a state that is known. -/
abbrev PlacedAt (g : Guard Op Choice Sys Event) (o : Op) (s : Sys) : Prop :=
  o.At s.ctl ∧ o.InPlace g s

theorem carried_known' : Carried (fun _ => true) g (fun o s => o.At s.ctl) Known where
  exec o ch s _ h _ hready _ hat :=
    ⟨h.toBasics.exec hready hat, (exec_view o ch s).symm ▸ h.hidh.exec h.list ch hready hat⟩
  env := by
    rintro s s' ⟨e, -, -, hstep⟩ h
    exact ⟨h.toBasics.event hstep, h.hidh.effect h.work (eventStep_view hstep)⟩
  pre _ _ _ _ _ hat := hat

/-- A function that is common. -/
theorem placed {A : Sys → Prop} {Q : α → Sys → Prop} {t : Prog α} (ht : Common t)
    (h : Triple host g (fun o s => o.At s.ctl) A t Q) : Triple host g (PlacedAt g) A t Q :=
  h.only ht fun _ s ho hat => ⟨hat, ho.inPlace s⟩

/-- Known, at a control state, with a further fact. -/
def With (c : Ctl) (B : Sys → Prop) (s : Sys) : Prop := Standing Known c s ∧ B s

theorem stable_with {B : Sys → Prop} (hB : ∀ s s' e, Known s → B s → eventStep e s = some s' → B s') :
    Stable host g (With c B) := by
  rintro s s' ⟨e, hlive, hg, hstep⟩ ⟨hs, hb⟩
  exact ⟨carried_known'.standing c s s' ⟨e, hlive, hg, hstep⟩ hs, hB s s' e hs.2 hb hstep⟩

/-- One operation with what holds at its place. -/
theorem triple_place {o : Op} {r : Choice → Sys → α} {A B : Sys → Prop} (hat : o.At c)
    (hA : ∀ s s' e, Known s → A s → eventStep e s = some s' → A s')
    (hB : ∀ s s' e, Known s → B s → eventStep e s = some s' → B s')
    (hplace : ∀ s, With c A s → o.InPlace g s)
    (hctl : ∀ ch s, With c A s → (o.exec ch s).fault = none → (s.view.exec o ch).ctl = c')
    (hexec : ∀ ch s, With c A s → g.main o ch s = true → B (o.exec ch s)) :
    Triple host g (PlacedAt g) (With c A) (.ask o r) fun _ => With c' B := by
  refine triple_ask (stable_with hA) (fun _ => stable_with hB)
    (fun s hs _ => ⟨hs.1.1 ▸ hat, hplace s hs⟩) ?_
  intro ch s hs hlive hready hg hnext
  have hstand : o.At s.ctl := hs.1.1 ▸ hat
  exact ⟨⟨(exec_ctl o ch s).trans (hctl ch s hs hnext),
    carried_known'.exec o ch s rfl hs.1.2 hlive hready hg hstand⟩, hexec ch s hs hg⟩

/-! ### The blocks with operations of their own -/

theorem known_outside : Carried Op.outside g (fun o s => o.At s.ctl) Known :=
  carried_known'.mono fun _ _ => rfl

theorem known_open (site : OpenSite) (bda : Bda) (addrType : UInt8) :
    Triple host g (fun o s => o.At s.ctl) (Standing Known (rest (site.before bda)))
      (espHidhDevOpen site bda addrType) fun _ => Standing Known (rest site.phase) :=
  triple_espHidhDevOpen known_outside (fun _ _ => carried_known'.discovery) site bda addrType

theorem settled_event {s s' : Sys} {e : Event} (hknown : Known s) (h : Settled d s.view)
    (hstep : eventStep e s = some s') : Settled d s'.view :=
  h.effect hknown.work (eventStep_view hstep)

theorem discovering_event {s s' : Sys} {e : Event} (h : s.radio.discovering = false)
    (hstep : eventStep e s = some s') : s'.radio.discovering = false := by
  rw [eventStep_discovering hstep]
  exact h

theorem placed_restartScan : Triple host g (PlacedAt g) (Lands Known .restartScan) restartScan
    (Lands Known) := by
  refine Triple.of_exists fun q => Triple.pure fun hq => ?_
  obtain rfl := List.mem_singleton.mp hq
  refine Triple.bind (B := fun _ => With (rest .scanning) fun _ => True)
    (Triple.strengthen (triple_place (c := rest .scanning) (A := fun _ => True) rfl
      (fun _ _ _ _ _ _ => trivial) (fun _ _ _ _ _ _ => trivial) (fun s hs => hs.1.1)
      (fun ch s hs _ => hs.1.1) fun _ _ _ _ => trivial) fun s hs => ⟨hs, trivial⟩) fun rc => ?_
  refine Triple.strengthen (placed (.ite (.bind (common_vTaskDelay _) fun _ => trivial)
    (.bind (common_look _) fun _ => trivial)) ?_) fun s hs => hs.1
  exact Block.ite (Block.bind (keeps_vTaskDelay known_outside _) fun _ =>
      Block.ret known_outside (List.mem_singleton.mpr rfl))
    (Block.bind (keeps_ticks known_outside) fun _ =>
      Block.ret known_outside (List.mem_singleton.mpr rfl))

/-- The scan is over, unless its end was refused. -/
def ScanOver (g : Guard Op Choice Sys Event) (s : Sys) : Prop :=
  Cancels g → s.radio.discovering = false

/-- The scan is over when the selected entry is copied. -/
theorem placed_selected (index : Nat) :
    Triple host g (PlacedAt g) (Lands Known (.selected index)) (selected index) (Lands Known) := by
  refine Triple.of_exists fun q => Triple.pure fun hq => ?_
  obtain rfl := List.mem_singleton.mp hq
  have hstill : ∀ s s' e, Known s → ScanOver g s → eventStep e s = some s' → ScanOver g s' :=
    fun _ _ _ _ h hstep hcancels => discovering_event (h hcancels) hstep
  have hkeep : ∀ (α : Type) (o : Op) (r : Choice → Sys → α), o.Common → o.At (rest (.picked index)) →
      (∀ ch v, v.ctl = rest (.picked index) → (View.exec o ch v).ctl = rest (.picked index)) →
      (∀ ch s, (o.exec ch s).radio.discovering = s.radio.discovering) →
      Triple host g (PlacedAt g) (With (rest (.picked index)) (ScanOver g)) (.ask o r) fun _ =>
        With (rest (.picked index)) (ScanOver g) :=
    fun α o r hcommon hat hctl hexec => triple_place hat hstill hstill
      (fun s _ => hcommon.inPlace s) (fun ch s hs _ => hctl ch s.view hs.1.1)
      fun ch s hs _ hcancels => (hexec ch s).trans (hs.2 hcancels)
  refine Triple.bind (B := fun _ => With (rest (.picked index)) (ScanOver g))
    (Triple.strengthen (triple_place (c := rest (.picked index)) (A := fun _ => True) rfl
      (fun _ _ _ _ _ _ => trivial) hstill (fun _ _ => trivial) (fun ch s hs _ => hs.1.1)
      fun ch s _ hg hcancels => if_pos (hcancels ch s hg)) fun s hs => ⟨hs, trivial⟩) fun _ => ?_
  refine Triple.bind (Triple.bind (hkeep _ .look _ trivial rfl (fun _ _ hv => hv) fun _ _ => rfl)
    fun ticks => Triple.bind (hkeep _ .look _ trivial rfl (fun _ _ hv => hv) fun _ _ => rfl)
      fun since => hkeep _ (.delay since ticks) _ trivial rfl (fun _ _ hv => hv) fun _ _ => rfl)
    fun _ => ?_
  refine Triple.bind (B := fun sel : ScanDev => Standing Known (rest (.chosen sel.addr)))
    (triple_ask (stable_with hstill) (fun _ => carried_known'.standing _)
      (fun s hs _ => ⟨hs.1.1 ▸ rfl, hs.2⟩) fun ch s hs hlive hready hg hnext => ?_) fun sel => ?_
  · have hat : (Op.copySelected index).At s.ctl := hs.1.1
    refine ⟨(exec_ctl _ ch s).trans ?_, carried_known'.exec _ ch s rfl hs.1.2 hlive hready hg hat⟩
    simp [View.exec, Sys.view, hs.1.1]
  · refine placed (.bind (common_setState _ _ _) fun _ => .bind (common_xSemaphoreTake _ _) fun _ =>
      .bind (common_espHidhDevOpen _ _ _) fun _ => .bind (common_look _) fun _ =>
        .bind (common_look _) fun _ => trivial) ?_
    exact Triple.bind (triple_setState known_outside (t := .connecting) ⟨⟨sel.addr, rfl⟩, rfl, rfl⟩
      rfl rfl _ _) fun _ => Block.bind (q := .selected sel.addr)
        (keeps_xSemaphoreTake known_outside rfl _ _) fun _ =>
          Triple.bind (known_open .selected _ _) fun _ =>
            Block.bind (q := .connecting) (keeps_msToTicks known_outside _) fun _ =>
              Block.bind (keeps_ticks known_outside) fun _ =>
                Block.ret known_outside (List.mem_singleton.mpr rfl)

/-- `s_hidh_dev` is read: it stays. -/
theorem placed_lookHidhDev (q : Phase) :
    Triple host g (PlacedAt g) (Standing Known (rest q)) (look (·.kbd.hidhDev)) fun dev =>
      With (rest q) fun s => ∀ d, dev = some d → Settled d s.view := by
  refine triple_ask (carried_known'.standing _) (fun dev => stable_with fun s s' e hs h hstep d hd =>
    settled_event hs (h d hd) hstep) (fun s hs _ => ⟨?_, trivial⟩) fun ch s hs _ _ _ _ =>
      ⟨hs, fun d hd => hs.2.hidh.hidhDev d hd⟩
  exact congrArg Ctl.awaiting hs.1

theorem placed_reconnect (d : DevId) : Triple host g (PlacedAt g)
    (With (rest .reconnecting) fun s => Settled d s.view) (espBleHidhDevReconnect d) fun dev =>
      Standing Known (rest (if dev.isSome then .accepted else .reconnecting)) := by
  refine Triple.bind (B := fun _ => Standing Known ⟨.reconnecting, .begun .reconnect d, false⟩)
    (triple_ask (stable_with fun _ _ _ hs h hstep => settled_event hs h hstep)
      (fun _ => carried_known'.standing _) (fun s hs _ => ⟨hs.1.1, hs.2⟩)
      fun ch s hs hlive hready hg hnext => ?_) fun inUse => ?_
  · have hat : (Op.reconnectCall d).At s.ctl := hs.1.1
    refine ⟨(exec_ctl _ ch s).trans ?_, carried_known'.exec _ ch s rfl hs.1.2 hlive hready hg hat⟩
    have hctl : s.view.ctl = rest .reconnecting := hs.1.1
    simp [View.exec, hctl]
  · refine placed (.bind (.ite common_reconnectInUse trivial) fun _ =>
      .bind (common_ask trivial) fun _ => trivial) ?_
    refine Triple.bind (B := Returning Known .reconnecting .reconnectReturns)
      (.ite (fun _ => triple_reconnectInUse known_outside)
        fun _ => returning_ret known_outside ⟨⟨d, .inl rfl⟩, rfl, rfl⟩) fun dev => ?_
    refine Triple.of_exists fun st => Triple.pure fun hat => ?_
    refine Triple.bind (known_outside.op (o := .reconnectReturns dev)
      (fun _ => ⟨if dev.isSome then .accepted else .reconnecting, .none, false⟩) rfl hat
      fun ch s hs _ => ?_) fun _ => .ret (known_outside.standing _) fun _ => id
    cases dev <;> simp [View.exec, Sys.view, hs]

theorem placed_tryReconnect : Triple host g (PlacedAt g) (Lands Known .tryReconnect) tryReconnect
    (Lands Known) := by
  refine Triple.of_exists fun q => Triple.pure fun hq => ?_
  obtain rfl := List.mem_singleton.mp hq
  refine Triple.bind (placed_lookHidhDev .reconnecting) fun dev? => ?_
  cases dev? with
  | none =>
    exact (placed common_tryBondedReconnect
      (block_tryBondedReconnect known_outside known_open)).strengthen fun s hs => hs.1
  | some d =>
    refine Triple.bind ((placed_reconnect d).strengthen fun s hs => ⟨hs.1, hs.2 d rfl⟩) fun dev => ?_
    cases dev with
    | none =>
      exact placed trivial (Block.ret known_outside (l := .reconnectFailed) (q := .reconnecting)
        (by simp [Label.phases]))
    | some d =>
      exact placed trivial (Block.ret known_outside (l := .connected) (q := .accepted)
        (List.mem_singleton.mpr rfl))

end Walk

/-! ## Runs -/

section Runs

variable {g : Guard Op Choice Sys Event} {cfg : KbdConfig} {bonds : List (Bda × UInt8)}
variable {c : HostConfig}

theorem known (h : Reach host g (boot cfg bonds) c) : Known c.state :=
  reach_keeps (I := Known) h (.boot cfg bonds)
    (fun o ch s hs hlive hready hg hat => carried_known'.exec o ch s rfl hs hlive hready hg hat)
    fun _ _ _ hs _ _ hstep => ⟨hs.toBasics.event hstep, hs.hidh.effect hs.work (eventStep_view hstep)⟩

theorem reach_placed (h : Reach host g (boot cfg bonds) c) :
    wp host g (PlacedAt g) (Lands Known) c.task c.state := by
  refine h.wp ?_ fun l => ?_
  · intro s hrun _
    refine ⟨.start, List.mem_cons_self, ?_⟩
    exact (carried_known'.standing _).interfere hrun ⟨rfl, .boot cfg bonds⟩
  · cases hl : l.owns with
    | false =>
      refine placed (common_kbdMainTask hl) ?_
      refine Triple.of_exists fun q => Triple.pure fun hq => ?_
      exact block_kbdMainTask known_outside known_open l hq
    | true =>
      cases l with
      | restartScan => exact placed_restartScan
      | selected index => exact placed_selected index
      | tryReconnect => exact placed_tryReconnect
      | _ => cases hl

/-- **What holds at an operation's place holds wherever a run comes to it.** -/
theorem reach_inPlace (h : Reach host g (boot cfg bonds) c) (hlive : c.state.fault = none) {o : Op}
    {k : Choice → Sys → Prog Label} (htask : c.task = .op o k) : o.InPlace g c.state := by
  have hwp := reach_placed h
  rw [htask] at hwp
  exact (hwp _ .refl (live_iff.mpr hlive)).1.2

/-- **Invariants of runs**, with what holds at an operation's place. -/
theorem reach_keeps_placed {I : Sys → Prop} (h : Reach host g (boot cfg bonds) c)
    (hboot : I (boot cfg bonds).state)
    (hexec : ∀ o ch s, Known s → I s → s.fault = none → o.ready s = true → g.main o ch s = true →
      PlacedAt g o s → I (o.exec ch s))
    (henv : ∀ e s s', Known s → I s → s.fault = none → g.env e s = true → eventStep e s = some s' →
      I s') : I c.state :=
  Reach.invariant (PlacedAt g) Known I
    (fun _ _ _ hreach hlive htask => ⟨reach_op_at hreach (live_iff.mp hlive) htask,
      reach_inPlace hreach (live_iff.mp hlive) htask⟩) (fun _ => known) hboot
    (fun o ch s hJ hI hlive hready hg hat => hexec o ch s hJ hI (live_iff.mp hlive) hready hg hat)
    (fun e s s' hJ hI hlive hg hstep => henv e s s' hJ hI (live_iff.mp hlive) hg hstep) h

end Runs

end BleKbdHost.Host
