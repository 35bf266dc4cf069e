import BleKbdHost.Host.Records
import BleKbdHost.Host.Tokens

/-!
# The device list

What holds of the list in every run: its devices have their own identities and addresses, a device
under connection is listed, and an address that was found unknown stays so until its device is
allocated.
-/

namespace BleKbdHost.Host

open Hid Keys Conc

structure DeviceList (v : View) : Prop where
  nodup : v.ids.Nodup
  distinct : v.bdas.Nodup
  fresh : ∀ d ∈ v.ids, d < v.nextDev
  unknown : ∀ bda, v.ctl.stage = .called bda → bda ∉ v.bdas
  attempted : ∀ d, v.ctl.stage.attempted? = some d → d ∈ v.ids

namespace DeviceList

/-- A step that leaves the list alone only has to account for the stage. -/
theorem of_frame {v v' : View} (h : DeviceList v) (hnames : v'.names = v.names)
    (hnext : v'.nextDev = v.nextDev)
    (hunknown : ∀ bda, v'.ctl.stage = .called bda → bda ∉ v.bdas)
    (hattempted : ∀ d, v'.ctl.stage.attempted? = some d → d ∈ v.ids) : DeviceList v' := by
  have hids : v'.ids = v.ids := by rw [View.ids_eq, View.ids_eq, hnames]
  have hbdas : v'.bdas = v.bdas := by rw [View.bdas_eq, View.bdas_eq, hnames]
  refine ⟨hids ▸ h.nodup, hbdas ▸ h.distinct, ?_, hbdas ▸ hunknown, hids ▸ hattempted⟩
  rw [hids, hnext]
  exact h.fresh

theorem devMalloc {v : View} {bda : Bda} (h : DeviceList v) (addrType : UInt8) (c : Choice)
    (hstage : v.ctl.stage = .called bda) : DeviceList (v.exec (.devMalloc bda addrType) c) := by
  by_cases hrc : c.rc = 0
  · have hbdas : (v.exec (.devMalloc bda addrType) c).bdas = v.bdas ++ [bda] := by
      rw [View.bdas_eq, View.exec_names, View.bdas_eq]
      simp [View.nextNames, hrc]
    have hids : (v.exec (.devMalloc bda addrType) c).ids = v.ids ++ [v.nextDev] := by
      rw [View.exec_ids]
      simp [View.nextIds, hrc]
    have hnext : (v.exec (.devMalloc bda addrType) c).nextDev = v.nextDev + 1 := by
      rw [View.exec_nextDev]
      simp [hrc]
    have hbegun : (v.exec (.devMalloc bda addrType) c).ctl.stage = .begun .open v.nextDev := by
      rw [View.exec_stage]
      simp [View.nextStage, hrc]
    constructor
    · rw [hids]
      refine List.nodup_append.mpr ⟨h.nodup, by simp, ?_⟩
      rintro d hd d' hd' rfl
      rw [List.mem_singleton.mp hd'] at hd
      exact Nat.lt_irrefl _ (h.fresh _ hd)
    · rw [hbdas]
      refine List.nodup_append.mpr ⟨h.distinct, by simp, ?_⟩
      rintro a ha a' ha' rfl
      obtain rfl : a = bda := by simpa using ha'
      exact h.unknown a hstage ha
    · intro d hd
      rw [hids] at hd
      rw [hnext]
      rcases List.mem_append.mp hd with hd | hd
      · exact Nat.lt_succ_of_lt (h.fresh d hd)
      · rw [List.mem_singleton.mp hd]
        exact Nat.lt_succ_self _
    · rw [hbegun]
      exact fun _ h => by cases h
    · rw [hbegun]
      exact fun _ h => by cases h
  · have hnone : (v.exec (.devMalloc bda addrType) c).ctl.stage = .none := by
      rw [View.exec_stage]
      simp [View.nextStage, hrc]
    refine h.of_frame ?_ ?_ (fun _ hst => by rw [hnone] at hst; cases hst)
      fun _ hst => by rw [hnone] at hst; cases hst
    · rw [View.exec_names]
      simp [View.nextNames, hrc]
    · rw [View.exec_nextDev]
      simp [hrc]

theorem devFree {v : View} (h : DeviceList v) (d : DevId) (c : Choice) :
    DeviceList (v.exec (.devFree d) c) := by
  constructor
  · rw [View.exec_ids]
    exact h.nodup.filter _
  · rw [View.bdas_eq, View.exec_names]
    have hsub : List.Sublist ((v.names.filter (·.1 != d)).map Prod.snd) v.bdas :=
      v.bdas_eq ▸ List.filter_sublist.map _
    exact h.distinct.sublist hsub
  · intro d' hd'
    rw [View.exec_ids] at hd'
    exact h.fresh d' (List.mem_filter.mp hd').1
  · exact nofun
  · exact nofun

/-- **An operation keeps the list in order.** -/
theorem exec {s : Sys} {o : Op} (h : DeviceList s.view) (c : Choice) (hat : o.At s.ctl) :
    DeviceList (s.view.exec o c) := by
  have hstay : ∀ o : Op, s.view.nextNames o c = s.view.names →
      (s.view.exec o c).nextDev = s.view.nextDev →
      (s.view.nextStage o c).Within s.view.ctl.stage → DeviceList (s.view.exec o c) := by
    intro o hnames hnext hstage
    refine h.of_frame (by rw [View.exec_names, hnames]) hnext ?_ ?_ <;> rw [View.exec_stage]
    · exact fun bda hst => h.unknown bda (hstage.called hst)
    · rw [hstage.attempted?]
      exact h.attempted
  have hmove : ∀ (o : Op) (st : Stage), s.view.nextNames o c = s.view.names →
      (s.view.exec o c).nextDev = s.view.nextDev → s.view.nextStage o c = st →
      (∀ bda, st = .called bda → bda ∉ s.view.bdas) →
      (∀ d, st.attempted? = some d → d ∈ s.view.ids) → DeviceList (s.view.exec o c) := by
    intro o st hnames hnext hstage hunknown hattempted
    refine h.of_frame (by rw [View.exec_names, hnames]) hnext ?_ ?_ <;> rw [View.exec_stage, hstage]
    · exact hunknown
    · exact hattempted
  cases o with
  | devMalloc bda addrType => exact h.devMalloc addrType c hat.2.1
  | devFree d => exact h.devFree d c
  | openCall site bda =>
    refine hmove _ (if (s.view.byBda bda).isSome then .none else .called bda) rfl rfl rfl
      (fun bda' hst hmem => ?_) fun d hst => ?_
    · split at hst <;> rename_i hknown <;> cases hst
      obtain ⟨key, hkey, rfl⟩ := List.mem_map.mp hmem
      refine hknown ?_
      rw [View.byBda, List.find?_isSome]
      exact ⟨key, hkey, beq_self_eq_true _⟩
    · split at hst <;> cases hst
  | gapConnect kind d =>
    cases hkey : s.view.key? d with
    | none => exact hstay _ rfl (View.exec_nextDev ..) (.inl (by simp [View.nextStage, hkey]))
    | some key =>
      refine hmove _ (if s.view.accepts c key.bda then .connecting kind d else .failed kind d) rfl
        (View.exec_nextDev ..) (by simp [View.nextStage, hkey]) (fun bda hst => ?_) fun d' hst => ?_
      · split at hst <;> cases hst
      · split at hst <;> cases hst
        exact View.mem_ids_iff.mpr (by rw [hkey]; rfl)
  | readConnId kind d =>
    have hconnecting : s.view.ctl.stage = .connecting kind d := hat.1
    have hlisted : d ∈ s.view.ids := h.attempted d (by rw [hconnecting]; rfl)
    cases hkey : s.view.key? d with
    | none => exact hstay _ rfl (View.exec_nextDev ..) (.inl (by simp [View.nextStage, hkey]))
    | some key =>
      refine hmove _ (if 0 ≤ key.connId then .linked kind d .fresh else .failed kind d) rfl
        (View.exec_nextDev ..) (by simp [View.nextStage, hkey]) (fun bda hst => ?_) fun d' hst => ?_
      · split at hst <;> cases hst
      · split at hst <;> cases hst
        exact hlisted
  | setConnected kind d =>
    obtain ⟨⟨step, hlinked, -⟩, -⟩ := hat
    have hlinked' : s.view.ctl.stage = .linked kind d step := hlinked
    refine hmove _ _ rfl rfl rfl (fun _ hst => by cases hst) fun d' hst => ?_
    cases hst
    exact h.attempted d (by rw [hlinked']; rfl)
  | postOpen kind d =>
    have hmarked : s.view.ctl.stage = .marked kind d := hat.1
    refine hmove _ _ rfl rfl rfl (fun _ hst => by cases hst) fun d' hst => ?_
    cases hst
    exact h.attempted d (by rw [hmarked]; rfl)
  | reconnectCall _ | openReturns _ | reconnectReturns _ =>
    exact hmove _ _ rfl (View.exec_nextDev ..) rfl (fun _ hst => by cases hst)
      fun _ hst => by cases hst
  | _ => exact hstay _ rfl (by rw [View.exec_nextDev]) (View.nextStage_within c _ rfl)

/-- **An event keeps the list in order.** -/
theorem effect {e : Event} {v v' : View} (h : DeviceList v) (hwork : View.WorkOf v)
    (heff : View.Effect e v v') : DeviceList v' := by
  have hnames : v'.names = v.names := by
    by_cases he : e = .dispatch
    · subst he
      rw [View.names, hwork.keys heff, View.names]
    · exact heff.names he
  have hctl := heff.ctl
  exact h.of_frame hnames heff.nextDev (by rw [hctl]; exact h.unknown)
    (by rw [hctl]; exact h.attempted)

theorem boot (cfg : KbdConfig) (bonds : List (Bda × UInt8)) :
    DeviceList (boot cfg bonds).state.view := by
  constructor <;> simp [Host.boot, Sys.view, View.ids, View.bdas, Stage.attempted?]

theorem ids_nodup {s : Sys} (h : DeviceList s.view) : (s.hidh.devices.map (·.id)).Nodup := by
  have hids := h.nodup
  simpa [View.ids, Sys.view, Dev.key, Function.comp_def] using hids

end DeviceList

theorem deviceList {g : Guard Op Choice Sys Event} {cfg : KbdConfig} {bonds : List (Bda × UInt8)}
    {c : HostConfig} (h : Reach host g (boot cfg bonds) c) : DeviceList c.state.view := by
  refine reach_keeps_of_known (J := fun s => View.WorkOf s.view) (I := fun s => DeviceList s.view) h
    (fun _ => View.workOf) (.boot cfg bonds) ?_ ?_
  · intro o ch s _ hinv _ _ _ hat
    rw [exec_view]
    exact hinv.exec ch hat
  · exact fun e s s' hwork hinv _ _ hstep => hinv.effect hwork (eventStep_view hstep)

/-! ## Together -/

/-- What is known of every state reached: the waits, the work of the event task and the list. -/
structure Basics (s : Sys) : Prop where
  tokens : TokenBound s
  work : View.WorkOf s.view
  list : DeviceList s.view

namespace Basics

theorem boot (cfg : KbdConfig) (bonds : List (Bda × UInt8)) : Basics (boot cfg bonds).state where
  tokens := Nat.le_refl _
  work := nofun
  list := .boot cfg bonds

theorem exec {s : Sys} {o : Op} {c : Choice} (h : Basics s) (hready : o.ready s = true)
    (hat : o.At s.ctl) : Basics (o.exec c s) where
  tokens := h.tokens.exec hready hat
  work := by
    rw [exec_view]
    exact h.work.exec c hready
  list := by
    rw [exec_view]
    exact h.list.exec c hat

theorem event {s s' : Sys} {e : Event} (h : Basics s) (hstep : eventStep e s = some s') :
    Basics s' where
  tokens := h.tokens.event hstep
  work := h.work.effect (eventStep_view hstep)
  list := h.list.effect h.work (eventStep_view hstep)

/-- The event task releases no device. -/
theorem not_releasing {s : Sys} (h : Basics s) (d : DevId) : s.releasing d = false := by
  refine eq_false_of_ne_true fun hrel => ?_
  unfold Sys.releasing at hrel
  split at hrel
  · rename_i p d' steps hhandling
    have hmem : (p, .free d') ∈ s.view.agenda := by simp [View.agenda, Sys.view, hhandling]
    have hfree : View.StepOf p.event (.free d') := h.work.event hmem
    exact hfree
  · cases hrel

/-- Between requests no event changes what discovery reads. -/
theorem core {s s' : Sys} {e : Event} (h : Basics s) (hawait : s.ctl.awaiting = false)
    (hstep : eventStep e s = some s') :
    s'.nimble.core = s.nimble.core ∧ s'.discLog = s.discLog ∧ s'.nextBuf = s.nextBuf ∧
      s'.reads = s.reads := by
  refine eventStep_core hstep fun i rsp he => ?_
  subst he
  obtain ⟨req, hreq, -⟩ := gattCb_waits hstep
  rw [(tokens_eq_zero h.tokens hawait).2.1] at hreq
  cases hreq

end Basics

end BleKbdHost.Host
