import BleKbdHost.Conc.Trace
import BleKbdHost.Host.Connections
import BleKbdHost.Host.Phases
import BleKbdHost.Host.Tokens
import BleKbdHost.Verify.Answers
import BleKbdHost.Verify.Status

/-!
# What a re-pair request guarantees

Between a re-pair request and the next transport call the bonds are to be cleared, the scan list
emptied, `s_hidh_dev` NULL, every link down and SCANNING reported. `do_pair` sees to all of it but
the links: only the connected phase closes one. The scan loop, where it takes a request itself, does
not report.
-/

namespace BleKbdHost.Host

open Hid Keys Conc

/-! ## The property -/

/-- A re-pair request was taken since the last transport call. -/
def RepairDue (trace : List Obs) : Prop := .repair ∈ since (·.calls?.isSome) trace

instance (trace : List Obs) : Decidable (RepairDue trace) :=
  inferInstanceAs (Decidable (.repair ∈ since (·.calls?.isSome) trace))

/-- What has happened since the last request was taken, newest first. -/
def sinceRepair (trace : List Obs) : List Obs := since (· == .repair) trace

/-- What the request guarantees. -/
structure RepairDone (s : Sys) : Prop where
  bonds : .storeClear ∈ sinceRepair s.trace
  scanList : .scanReset ∈ sinceRepair s.trace
  hidhDev : s.kbd.hidhDev = none
  links : s.radio.links = []
  reported : s.kbd.cfg.onStatus = true → ∃ line1 line2,
    .status .scanning line1 line2 ∈ sinceRepair s.trace

/-- The operations that begin a transport call. -/
def Op.calls : Op → Bool
  | .openCall _ _ | .reconnectCall _ => true
  | _ => false

/-- Where a transport call comes next, a request before it has had its effect. -/
def CallsRepaired (c : HostConfig) : Prop :=
  ∀ o k, c.task = .op o k → o.calls = true → c.state.fault = none → RepairDue c.state.trace →
    RepairDone c.state

/-! ## The condition -/

/-- The step writes `s_hidh_dev`. -/
def HidhStep.opens : HidhStep → Bool
  | .setHidhDev _ => true
  | _ => false

/-- Every link is that of `s_hidh_dev`, which is listed. -/
def Sys.closable (s : Sys) : Bool :=
  s.radio.links.all fun link =>
    (s.kbd.hidhDev.bind s.dev?).any (·.connId == (link.handle.toNat : Int))

/-- A request that is taken here can have its effect: no event is left that opens a device, and
there is no link or, in the connected phase, only that of `s_hidh_dev`. -/
def Sys.repairable (s : Sys) : Bool :=
  (s.view.agenda.all fun (_, step) => !step.opens) &&
    match s.ctl.phase with
    | .scanning => false
    | .repairing .connected => s.closable
    | _ => s.radio.links.isEmpty

def HidhEvent.closes (d : DevId) : HidhEvent → Bool
  | .close d' _ => d' == d
  | _ => false

/-- A close event of the device was posted and handled. -/
def closedIn (d : DevId) (l : List Obs) : Bool :=
  l.any fun
    | .handled p => p.event.closes d && l.contains (.posted p)
    | _ => false

/-- The devices whose links were accepted to be closed. -/
def Obs.terminated? : Obs → Option DevId
  | .terminate d true => some d
  | _ => none

/-- A request is taken where it can have its effect. `ble_gap_terminate` succeeds, and the close event
of its device is handled before the wait for it ends. -/
def repairableLinks : Guard Op Choice Sys Event where
  main o c s :=
    match o with
    | .receiveCmd _ _ => s.kbd.cmdQueue.items.head? != some .startPairing || s.repairable
    | .gapTerminate _ => c.rc == 0
    | .awaitClosed _ _ =>
      ((sinceRepair s.trace).filterMap Obs.terminated?).all (closedIn · (sinceRepair s.trace))
    | _ => true
  env _ _ := true

/-! ## How far a request has come -/

/-- In the phases from a request to the next open: how many of the steps of `do_pair` are done. -/
def Phase.repaired : Phase → Option Nat
  | .requested | .repairing .connecting | .repairing .connected | .closing _ => some 0
  | .pairing .cleared => some 1
  | .pairing .forgotten => some 2
  | .pairing .emptied | .announcing .scanning => some 3
  | .scanning | .copied _ | .picking _ | .picked _ | .chosen _ | .announcing (.selected _)
  | .selected _ => some 4
  | _ => none

/-- The operation that takes a request on from the given number of steps. -/
def Op.Repairs : Nat → Op → Prop
  | 0, o => o = .storeClear
  | 1, o => o = .clearHidhDev
  | 2, o => o = .resetScan
  | 3, o => ∃ line1 line2, o = .onStatus .scanning line1 line2
  | _, _ => False

/-- A request leads through phases without a transport call. -/
theorem Phase.calling_of_repaired {q : Phase} {n : Nat} (h : q.repaired = some n) :
    q.calling = false := by
  unfold Phase.repaired at h
  split at h <;> first | rfl | cases h

/-- **One step takes a request on by at most one**, until the next open. -/
theorem View.PhaseStep.repaired {o : Op} {v : View} {q r : Phase} {n : Nat}
    (h : View.PhaseStep v o q r) (hq : q.repaired = some n) (hcalls : o.calls = false) :
    r.repaired = some n ∨ r.repaired = some (n + 1) ∧ o.Repairs n := by
  cases h with
  | stays => exact .inl hq
  | setScanning | setConnecting _ | copied | updated _ | picking _ _ | picked _ _ | ignored _ _
  | chosen _ | found _ | unknown _ | unlisted _ | asked _ | waited _ _ => exact .inl hq
  | announced next hshows =>
    cases r with
    | scanning =>
      cases hq
      cases hshows
      exact .inr ⟨rfl, _, _, rfl⟩
    | selected addr => exact .inl hq
    | _ => cases hq
  | cleared hfrom =>
    have hzero : n = 0 := by
      rcases hfrom with rfl | rfl | rfl | rfl | rfl | rfl
      · cases hq
      · cases hq
      · exact (Option.some.inj hq).symm
      · cases hq
      · exact (Option.some.inj hq).symm
      · exact (Option.some.inj hq).symm
    subst hzero
    exact .inr ⟨rfl, rfl⟩
  | forgotten | emptied =>
    cases hq
    exact .inr ⟨rfl, rfl⟩
  | bonded _ | connecting _ => cases hcalls
  | answered site _ | expired site _ | repairing site _ => cases site <;> cases hq
  | accepted _ hfrom _ | refused _ hfrom _ => rcases hfrom with rfl | rfl <;> cases hq
  | setReconnecting hfrom => rcases hfrom with rfl | rfl | rfl <;> cases hq
  | failed hfrom => rcases hfrom with rfl | rfl <;> cases hq
  | _ => cases hq

/-! ## The invariant -/

/-- The device is listed, and every link is its own. -/
def View.LinksOf (v : View) (d : DevId) : Prop :=
  ∃ key, v.key? d = some key ∧ ∀ link ∈ v.links, key.connId = (link.handle.toNat : Int)

/-- A request in the connected phase has the device to close: `s_hidh_dev`, then what was read there,
then the device whose link was asked to be closed. -/
def View.Closing (v : View) : Prop :=
  match v.ctl.phase with
  | .repairing .connected => ∃ d, v.kbd.hidhDev = some d ∧ v.LinksOf d
  | .closing (.found d) => v.LinksOf d
  | .closing .asked => ∃ d, .terminate d true ∈ sinceRepair v.trace ∧ v.LinksOf d
  | _ => False

/-- No close event was posted since the request. -/
def Unclosed (trace : List Obs) : Prop :=
  ∀ p d, .posted p ∈ sinceRepair trace → p.event.closes d = false

/-- A request has come `n` steps. -/
structure Repaired (v : View) (n : Nat) : Prop where
  links : v.links = [] ∨ v.Closing ∧ Unclosed v.trace
  unopened : ∀ p d, (p, .setHidhDev d) ∉ v.agenda
  bonds : 1 ≤ n → .storeClear ∈ sinceRepair v.trace
  forgotten : 2 ≤ n → v.kbd.hidhDev = none
  scanList : 3 ≤ n → .scanReset ∈ sinceRepair v.trace
  reported : 4 ≤ n → v.kbd.cfg.onStatus = true → ∃ line1 line2,
    .status .scanning line1 line2 ∈ sinceRepair v.trace

/-- A request since the last call has come as far as the phase says. -/
def RepairInv (v : View) : Prop :=
  RepairDue v.trace → ∃ n, v.ctl.phase.repaired = some n ∧ Repaired v n

/-! ### Growing traces -/

/-- Neither a request nor a call. -/
def Obs.isMark (o : Obs) : Bool := o == .repair || o.calls?.isSome

theorem sinceRepair_append {l trace : List Obs} (h : ∀ o ∈ l, o.isMark = false) :
    sinceRepair (l ++ trace) = l ++ sinceRepair trace :=
  since_append fun o ho => (Bool.or_eq_false_iff.mp (h o ho)).1

theorem repairDue_append {l trace : List Obs} (h : ∀ o ∈ l, o.isMark = false) :
    RepairDue (l ++ trace) ↔ RepairDue trace := by
  unfold RepairDue
  rw [since_append fun o ho => (Bool.or_eq_false_iff.mp (h o ho)).2, List.mem_append]
  refine or_iff_right fun hmem => ?_
  cases h _ hmem

namespace Repaired

variable {v v' : View} {n : Nat} {l : List Obs}

/-- A step that records neither a request nor a call, and opens and connects nothing. -/
theorem of_frame (h : Repaired v n) (htrace : v'.trace = l ++ v.trace)
    (hl : ∀ o ∈ l, o.isMark = false) (hcfg : v'.kbd.cfg.onStatus = v.kbd.cfg.onStatus)
    (hlinks : v'.links = [] ∨ v'.Closing ∧ Unclosed v'.trace)
    (hunopened : ∀ p d, (p, .setHidhDev d) ∉ v'.agenda)
    (hdev : v'.kbd.hidhDev = v.kbd.hidhDev ∨ v'.kbd.hidhDev = none) : Repaired v' n := by
  have hsince : ∀ o ∈ sinceRepair v.trace, o ∈ sinceRepair v'.trace := by
    intro o ho
    rw [htrace, sinceRepair_append hl]
    exact List.mem_append_right _ ho
  constructor
  · exact hlinks
  · exact hunopened
  · exact fun hn => hsince _ (h.bonds hn)
  · exact fun hn => hdev.elim (fun hsame => hsame.trans (h.forgotten hn)) id
  · exact fun hn => hsince _ (h.scanList hn)
  · rw [hcfg]
    intro hn hinstalled
    obtain ⟨line1, line2, hmem⟩ := h.reported hn hinstalled
    exact ⟨line1, line2, hsince _ hmem⟩

end Repaired

namespace RepairInv

variable {s : Sys} {v v' : View} {o : Op} {c : Choice} {n : Nat}

/-- What an operation that is no call and takes no request records. -/
theorem noted_unmarked (hcalls : o.calls = false)
    (hrepair : ∀ since ticks, o = .receiveCmd since ticks →
      v.kbd.cmdQueue.items.head? ≠ some .startPairing) :
    ∀ obs ∈ (v.noted o c).toList, obs.isMark = false := by
  intro obs hobs
  have hnoted := View.noted_origin (Option.mem_toList.mp hobs)
  cases obs with
  | repair =>
    obtain ⟨⟨since, ticks, ho⟩, hhead⟩ := hnoted
    exact absurd hhead (hrepair since ticks ho)
  | openCall site bda known =>
    obtain rfl : o = .openCall site bda := hnoted
    cases hcalls
  | reconnectCall d =>
    obtain rfl : o = .reconnectCall d := hnoted
    cases hcalls
  | _ => rfl

theorem unclosed_append {l trace : List Obs} (h : Unclosed trace)
    (hl : ∀ obs ∈ l, obs.isMark = false)
    (hposts : ∀ p, .posted p ∈ l → ∀ d, p.event.closes d = false) : Unclosed (l ++ trace) := by
  intro p d hmem
  rw [sinceRepair_append hl] at hmem
  exact (List.mem_append.mp hmem).elim (fun hnew => hposts p hnew d) (h p d)

/-- Between transport calls no operation changes the device list. -/
theorem exec_keys_of_idle (hstage : v.ctl.stage = .none) (hat : o.At v.ctl) :
    (v.exec o c).keys = v.keys := by
  rw [View.exec_keys]
  cases o with
  | devMalloc _ _ =>
    rw [hat.2.1] at hstage
    cases hstage
  | devFree _ =>
    rw [hat.1] at hstage
    cases hstage
  | setConnected _ _ =>
    obtain ⟨⟨step, hlinked, -⟩, -⟩ := hat
    rw [hlinked] at hstage
    cases hstage
  | _ => rfl

/-- **A request in the connected phase closes the link.** Where it was accepted to be closed, its close
event has come when the wait for it ends. -/
theorem closing_exec (h : s.view.Closing) (hunclosed : Unclosed s.trace)
    (hstage : s.ctl.stage = .none) (hg : repairableLinks.main o c s = true) (hat : o.At s.ctl)
    (hl : ∀ obs ∈ (s.view.noted o c).toList, obs.isMark = false) :
    (s.view.exec o c).Closing := by
  have hlinksOf : ∀ d, s.view.LinksOf d → (s.view.exec o c).LinksOf d := by
    rintro d ⟨key, hkey, hall⟩
    refine ⟨key, ?_, fun link hlink => hall link (View.exec_links o c s.view ▸ hlink)⟩
    rw [View.key?, exec_keys_of_idle (v := s.view) hstage hat]
    exact hkey
  have hsince : ∀ obs ∈ sinceRepair s.view.trace, obs ∈ sinceRepair (s.view.exec o c).trace := by
    intro obs hobs
    rw [View.exec_trace, sinceRepair_append hl]
    exact List.mem_append_right _ hobs
  have hstep := View.phaseStep (v := s.view) hat
  rw [← View.exec_phase o c] at hstep
  unfold View.Closing at h ⊢
  generalize (s.view.exec o c).ctl.phase = r at hstep ⊢
  generalize hq : s.view.ctl.phase = q at hstep h
  cases hstep with
  | stays =>
    split at h
    · obtain ⟨d, hd, hof⟩ := h
      refine ⟨d, ?_, hlinksOf d hof⟩
      rw [View.exec_hidhDev]
      cases o with
      | clearHidhDev =>
        rw [show s.view.ctl.phase = .pairing .cleared from congrArg Ctl.phase hat] at hq
        cases hq
      | _ => exact hd
    · exact hlinksOf _ h
    · obtain ⟨d, hd, hof⟩ := h
      exact ⟨d, hsince _ hd, hlinksOf d hof⟩
    · exact h
  | found hdev =>
    obtain ⟨d, hd, hof⟩ := h
    obtain rfl := Option.some.inj (hdev.symm.trans hd)
    exact hlinksOf _ hof
  | unknown hnone =>
    obtain ⟨d, hd, -⟩ := h
    cases hnone.symm.trans hd
  | unlisted hnone =>
    obtain ⟨key, hkey, -⟩ := h
    cases hnone.symm.trans hkey
  | asked d =>
    refine ⟨d, ?_, hlinksOf d h⟩
    rw [View.exec_trace, sinceRepair_append hl]
    have hrc : (c.rc == 0) = true := hg
    simp [View.noted, hrc]
  | waited since ticks =>
    obtain ⟨d, hd, -⟩ := h
    have hclosed : closedIn d (sinceRepair s.trace) = true :=
      List.all_eq_true.mp hg d (List.mem_filterMap.mpr ⟨_, hd, rfl⟩)
    obtain ⟨obs, -, hobs⟩ := List.any_eq_true.mp hclosed
    cases obs with
    | handled p =>
      obtain ⟨hcloses, hposted⟩ := Bool.and_eq_true_iff.mp hobs
      rw [hunclosed p d (List.contains_iff_mem.mp hposted)] at hcloses
      cases hcloses
    | _ => cases hobs
  | announced next hshows => exact h.elim
  | answered site | expired site | repairing site => cases site <;> exact h.elim
  | accepted _ hfrom | refused _ hfrom | failed hfrom => rcases hfrom with rfl | rfl <;> exact h.elim
  | setReconnecting hfrom => rcases hfrom with rfl | rfl | rfl <;> exact h.elim
  | cleared hfrom => rcases hfrom with rfl | rfl | rfl | rfl | rfl | rfl <;> exact h.elim
  | _ => exact h.elim

/-- An operation that is no call and takes no request leaves what it has done in place. -/
theorem repaired_exec (hrepaired : Repaired s.view n) (hstage : s.ctl.stage = .none)
    (hg : repairableLinks.main o c s = true) (hat : o.At s.ctl)
    (hl : ∀ obs ∈ (s.view.noted o c).toList, obs.isMark = false) :
    Repaired (s.view.exec o c) n := by
  have hpost : ∀ kind d, o ≠ .postOpen kind d := by
    rintro kind d rfl
    rw [hat.1] at hstage
    cases hstage
  refine hrepaired.of_frame (View.exec_trace o c s.view) hl (View.exec_onStatus o c s.view) ?_ ?_ ?_
  · rw [View.exec_links]
    refine hrepaired.links.imp_right fun ⟨hclosing, hunclosed⟩ =>
      ⟨closing_exec hclosing hunclosed hstage hg hat hl, ?_⟩
    rw [View.exec_trace]
    refine unclosed_append hunclosed hl fun p hp d => ?_
    obtain ⟨kind, d', ho, -⟩ := View.noted_origin (Option.mem_toList.mp hp)
    exact absurd ho (hpost kind d')
  · intro p d hmem
    rw [View.exec_agenda o c s.view fun kind d ho => absurd ho (hpost kind d)] at hmem
    cases o with
    | postOpen kind d => exact hpost kind d rfl
    | _ => exact hrepaired.unopened p d hmem
  · rw [View.exec_hidhDev]
    cases o with
    | clearHidhDev => exact .inr rfl
    | _ => exact .inl rfl

/-- The next step of a request. -/
theorem repaired_succ (hrepaired : Repaired (s.view.exec o c) n) (ho : o.Repairs n)
    (hl : ∀ obs ∈ (s.view.noted o c).toList, obs.isMark = false) :
    Repaired (s.view.exec o c) (n + 1) := by
  have hsince : sinceRepair (s.view.exec o c).trace =
      (s.view.noted o c).toList ++ sinceRepair s.view.trace := by
    rw [View.exec_trace, sinceRepair_append hl]
  match n, ho with
  | 0, ho =>
    obtain rfl : o = .storeClear := ho
    refine { hrepaired with
      bonds := fun _ => ?_
      forgotten := by omega
      scanList := by omega
      reported := by omega }
    rw [hsince]
    exact List.mem_cons_self
  | 1, ho =>
    obtain rfl : o = .clearHidhDev := ho
    exact { hrepaired with
      bonds := fun _ => hrepaired.bonds (Nat.le_refl 1)
      forgotten := fun _ => rfl
      scanList := by omega
      reported := by omega }
  | 2, ho =>
    obtain rfl : o = .resetScan := ho
    refine { hrepaired with
      bonds := fun _ => hrepaired.bonds (by omega)
      forgotten := fun _ => hrepaired.forgotten (Nat.le_refl 2)
      scanList := fun _ => ?_
      reported := by omega }
    rw [hsince]
    exact List.mem_cons_self
  | 3, ho =>
    obtain ⟨line1, line2, rfl⟩ := ho
    refine { hrepaired with
      bonds := fun _ => hrepaired.bonds (by omega)
      forgotten := fun _ => hrepaired.forgotten (by omega)
      scanList := fun _ => hrepaired.scanList (Nat.le_refl 3)
      reported := fun _ hinstalled => ⟨line1, line2, ?_⟩ }
    have hinstalled' : s.view.kbd.cfg.onStatus = true := hinstalled
    rw [hsince, View.noted, if_pos hinstalled']
    exact List.mem_cons_self

/-- A request is taken: from the queue, in one of the phases that go on to `do_pair`. -/
theorem receive {since ticks : UInt32} (hat : (Op.receiveCmd since ticks).At s.ctl)
    (hg : repairableLinks.main (.receiveCmd since ticks) c s = true)
    (hhead : s.kbd.cmdQueue.items.head? = some .startPairing) :
    (s.view.exec (.receiveCmd since ticks) c).ctl.phase.repaired = some 0 ∧
      Repaired (s.view.exec (.receiveCmd since ticks) c) 0 := by
  have hrepairable : s.repairable = true := by simpa [repairableLinks, hhead] using hg
  obtain ⟨hagenda, hlinks⟩ := Bool.and_eq_true_iff.mp hrepairable
  have hphase : (s.view.exec (.receiveCmd since ticks) c).ctl.phase =
      s.ctl.phase.receive (some .startPairing) := by
    rw [View.exec_phase]
    exact congrArg s.ctl.phase.receive hhead
  have hnew : sinceRepair (s.view.exec (.receiveCmd since ticks) c).trace = [] := by
    rw [View.exec_trace, View.noted, show s.view.kbd.cmdQueue.items.head? = _ from hhead]
    exact since_cons_of_pos rfl
  have hunopened : ∀ p d, (p, .setHidhDev d) ∉ (s.view.exec (.receiveCmd since ticks) c).agenda := by
    intro p d hmem
    rw [View.exec_agenda _ _ _ (by simp)] at hmem
    cases List.all_eq_true.mp hagenda _ hmem
  have hof : ∀ hlinks : s.radio.links = [] ∨
      (s.view.exec (.receiveCmd since ticks) c).Closing,
      Repaired (s.view.exec (.receiveCmd since ticks) c) 0 := fun hlinks =>
    { links := hlinks.imp id fun hclosing => ⟨hclosing, fun p d hmem => by rw [hnew] at hmem; cases hmem⟩
      unopened := hunopened
      bonds := by omega
      forgotten := by omega
      scanList := by omega
      reported := by omega }
  rw [hphase]
  rcases hat.1 with hph | hph | ⟨site, hsite, hph⟩ <;> rw [hph] at hlinks ⊢
  · exact ⟨rfl, hof (.inl (List.isEmpty_iff.mp hlinks))⟩
  · cases hlinks
  · cases site with
    | bonded => exact absurd rfl hsite
    | connecting => exact ⟨rfl, hof (.inl (List.isEmpty_iff.mp hlinks))⟩
    | connected =>
      refine ⟨rfl, hof ?_⟩
      rcases hall : s.radio.links with _ | ⟨first, rest⟩
      · exact .inl rfl
      refine .inr ?_
      have hclosable := List.all_eq_true.mp hlinks
      have hfirst := hclosable first (hall ▸ List.mem_cons_self)
      obtain ⟨dev, hdev, -⟩ := (Option.any_eq_true _ _).mp hfirst
      obtain ⟨d, hd, hlisted⟩ := Option.bind_eq_some_iff.mp hdev
      unfold View.Closing
      rw [hphase, hph]
      refine ⟨d, hd, dev.key, ?_, fun link hlink => ?_⟩
      · have hkey : s.view.key? d = some dev.key := by rw [key?_view, hlisted, Option.map_some]
        exact hkey
      · have hof := hclosable link hlink
        rw [hdev] at hof
        exact beq_iff_eq.mp hof

/-- **An admitted operation takes a request on.** -/
theorem exec (h : RepairInv s.view) (hidle : IdleOutside s.view)
    (hg : repairableLinks.main o c s = true) (hat : o.At s.ctl) : RepairInv (s.view.exec o c) := by
  intro hdue
  by_cases hcalls : o.calls = true
  · -- the call comes after the request
    have hnoted : ∃ obs, (s.view.noted o c).toList = [obs] ∧ obs.calls?.isSome = true := by
      cases o with
      | openCall _ _ | reconnectCall _ => exact ⟨_, rfl, rfl⟩
      | _ => cases hcalls
    obtain ⟨obs, hobs, hcall⟩ := hnoted
    rw [View.exec_trace, hobs, List.singleton_append, RepairDue,
      since_cons_of_pos (p := fun o : Obs => o.calls?.isSome) hcall] at hdue
    cases hdue
  have hcalls := Bool.not_eq_true _ ▸ hcalls
  by_cases hrepair : ∃ since ticks, o = .receiveCmd since ticks ∧
      s.kbd.cmdQueue.items.head? = some .startPairing
  · obtain ⟨since, ticks, rfl, hhead⟩ := hrepair
    exact ⟨0, receive hat hg hhead⟩
  · have hl := noted_unmarked (v := s.view) (c := c) hcalls fun since ticks ho hhead =>
      hrepair ⟨since, ticks, ho, hhead⟩
    rw [View.exec_trace, repairDue_append hl] at hdue
    obtain ⟨n, hn, hrepaired⟩ := h hdue
    have hstage := (hidle (Phase.calling_of_repaired hn)).1
    have hkept := repaired_exec hrepaired hstage hg hat hl
    rw [View.exec_phase]
    rcases (View.phaseStep hat).repaired hn hcalls with hsame | ⟨hnext, ho⟩
    · exact ⟨n, hsame, hkept⟩
    · exact ⟨n + 1, hnext, repaired_succ hkept ho hl⟩

/-! ### Events -/

/-- `s_hidh_dev` is only set by an open event. -/
theorem unopened_effect {e : Event} (heff : View.Effect e v v')
    (hagenda : ∀ p d, (p, .setHidhDev d) ∉ v.agenda) :
    v'.kbd.hidhDev = v.kbd.hidhDev ∧ ∀ p d, (p, .setHidhDev d) ∉ v'.agenda := by
  by_cases he : e = .dispatch
  · subst he
    rcases heff.dispatch with ⟨p, step, rest, -, hcons, rfl⟩ | ⟨hsame, p, queue, rest, rfl⟩
    · refine ⟨?_, fun q d hmem => hagenda q d (hcons ▸ List.mem_cons_of_mem _ hmem)⟩
      rw [View.setHandling_kbd]
      cases step with
      | setHidhDev d => exact absurd (hcons ▸ List.mem_cons_self) (hagenda p d)
      | _ => rfl
    · refine ⟨?_, fun q d hmem => hagenda q d (hsame ▸ hmem)⟩
      rw [View.setHandling_kbd]
  · refine ⟨(heff.kbd he).1, fun p d hmem => ?_⟩
    rcases heff.agenda_append he with hsame | ⟨event, happend, hopen⟩
    · exact hagenda p d (hsame ▸ hmem)
    · rw [happend] at hmem
      rcases List.mem_append.mp hmem with hmem | hmem
      · exact hagenda p d hmem
      · obtain ⟨step, hstep, heq⟩ := List.mem_map.mp hmem
        cases heq
        cases event with
        | «open» d' status => exact hopen d' status rfl
        | input _ _ _ usage _ =>
          simp only [hidhSteps] at hstep
          split at hstep <;> simp at hstep
        | _ => simp [hidhSteps] at hstep

theorem Closing.linksOf (h : v.Closing) : ∃ d, v.LinksOf d := by
  unfold View.Closing at h
  split at h
  · exact h.imp fun d hd => hd.2
  · exact ⟨_, h⟩
  · exact h.imp fun d hd => hd.2
  · exact h.elim

/-- Where every link is that of one device, there is none after one went down. -/
theorem linkDown_links {link : Link} {reason : Int} {d : DevId} (h : v.LinksOf d)
    (hmem : link ∈ v.links) : (v.linkDown link reason).links = [] := by
  obtain ⟨key, -, hall⟩ := h
  have hlinks : (v.linkDown link reason).links = v.links.filter (·.handle != link.handle) := by
    unfold View.linkDown
    simp only
    split
    · rfl
    · split <;> rfl
  rw [hlinks, List.filter_eq_nil_iff]
  intro other hother
  have heq : (other.handle.toNat : Int) = link.handle.toNat :=
    (hall other hother).symm.trans (hall link hmem)
  simpa using UInt16.toNat_inj.mp (Int.ofNat_inj.mp heq)

/-- Only the end of a link posts a close event. -/
theorem disconnected_of_closes {e : Event} {l : List Obs} {p : Posted} {d : DevId}
    (heff : View.Effect e v v') (htrace : v'.trace = l ++ v.trace) (hp : .posted p ∈ l)
    (hcloses : p.event.closes d = true) : ∃ handle reason, e = .disconnected handle reason := by
  by_cases he : e = .dispatch
  · subst he
    obtain ⟨-, l', htrace', -, hposted, -⟩ := heff.handles
    obtain rfl : l' = l := List.append_cancel_right (htrace'.symm.trans htrace)
    exact absurd hp (hposted p)
  · obtain ⟨l', event?, hlogs, -, hcause⟩ := heff.logs he
    obtain rfl : l' = l := List.append_cancel_right (hlogs.trace.symm.trans htrace)
    obtain ⟨event, hsome, rfl⟩ := Option.map_eq_some_iff.mp ((hlogs.posted p).mp hp)
    rcases hcause event hsome with hnone | ⟨handle, reason, -, rfl, -⟩
    · cases event with
      | close d' reason => simpa [HidhEvent.linkUp?] using hnone d'
      | _ => cases hcloses
    · exact ⟨handle, reason, rfl⟩

/-- **A link that goes down is the last one**; no other event touches the links. -/
theorem links_effect {e : Event} {l : List Obs} (heff : View.Effect e v v') (hwork : View.WorkOf v)
    (hconnecting : v.connecting = none) (hdev : v'.kbd.hidhDev = v.kbd.hidhDev)
    (htrace : v'.trace = l ++ v.trace) (hl : ∀ obs ∈ l, obs.isMark = false)
    (hlinks : v.links = [] ∨ v.Closing ∧ Unclosed v.trace) :
    v'.links = [] ∨ v'.Closing ∧ Unclosed v'.trace := by
  -- the links and the devices as before, and no close event
  have hstay : v'.links = v.links → v'.keys = v.keys →
      (∀ p, .posted p ∈ l → ∀ d, p.event.closes d = false) →
      v'.links = [] ∨ v'.Closing ∧ Unclosed v'.trace := by
    intro hsame hkeys hposts
    rw [hsame]
    refine hlinks.imp_right fun ⟨hclosing, hunclosed⟩ =>
      ⟨?_, by rw [htrace]; exact unclosed_append hunclosed hl hposts⟩
    have hof : ∀ d, v.LinksOf d → v'.LinksOf d := fun d ⟨key, hkey, hall⟩ =>
      ⟨key, by rw [View.key?, hkeys]; exact hkey, by rw [hsame]; exact hall⟩
    unfold View.Closing at hclosing ⊢
    rw [heff.ctl, hdev]
    split at hclosing
    · exact hclosing.imp fun d hd => ⟨hd.1, hof d hd.2⟩
    · exact hof _ hclosing
    · refine hclosing.imp fun d hd => ⟨?_, hof d hd.2⟩
      rw [htrace, sinceRepair_append hl]
      exact List.mem_append_right _ hd.1
    · exact hclosing
  by_cases hdown : ∃ handle reason, e = .disconnected handle reason
  · obtain ⟨handle, reason, rfl⟩ := hdown
    cases heff with
    | quiet _ hinner => cases hinner
    | disconnected _ link reason hfind hroom =>
      have hmem : link ∈ v.links := List.mem_of_find?_eq_some hfind
      rcases hlinks with hnone | ⟨hclosing, -⟩
      · rw [hnone] at hmem
        cases hmem
      · obtain ⟨d, hof⟩ := Closing.linksOf hclosing
        exact .inl (linkDown_links hof hmem)
  · refine hstay ?_ ?_ fun p hp d => Bool.eq_false_iff.mpr fun hcloses => hdown ?_
    · by_cases he : e = .dispatch
      · subst he
        exact Connections.dispatch_links heff
      · cases heff with
        | connected _ link hsome hfresh =>
          rw [hconnecting] at hsome
          cases hsome
        | disconnected _ link reason => exact absurd ⟨_, _, rfl⟩ hdown
        | popped | stepped | settled => exact absurd rfl he
        | _ => rfl
    · by_cases he : e = .dispatch
      · subst he
        exact hwork.keys heff
      · cases heff with
        | connected _ link hsome hfresh =>
          rw [hconnecting] at hsome
          cases hsome
        | disconnected _ link reason => exact absurd ⟨_, _, rfl⟩ hdown
        | popped | stepped | settled => exact absurd rfl he
        | _ => rfl
    · exact disconnected_of_closes heff htrace hp hcloses

/-- **An event leaves what a request has done in place.** -/
theorem effect {e : Event} (h : RepairInv v) (hidle : IdleOutside v) (hwork : View.WorkOf v)
    (hconnecting : v.ctl.awaiting = false → v.connecting = none) (heff : View.Effect e v v') :
    RepairInv v' := by
  obtain ⟨l, htrace, hby⟩ := heff.records
  have hl : ∀ obs ∈ l, obs.isMark = false := by
    intro obs hobs
    have hrec := hby obs hobs
    cases obs with
    | repair | openCall _ _ _ | reconnectCall _ => exact hrec.elim
    | _ => rfl
  unfold RepairInv
  rw [htrace, repairDue_append hl, heff.ctl]
  intro hdue
  obtain ⟨n, hn, hrepaired⟩ := h hdue
  have hawait := (hidle (Phase.calling_of_repaired hn)).2
  obtain ⟨hdev, hunopened⟩ := unopened_effect heff hrepaired.unopened
  exact ⟨n, hn, hrepaired.of_frame htrace hl (by rw [heff.cfg])
    (links_effect heff hwork (hconnecting hawait) hdev htrace hl hrepaired.links) hunopened
    (.inl hdev)⟩

end RepairInv

theorem repairInv {cfg : KbdConfig} {bonds : List (Bda × UInt8)} {c : HostConfig}
    (h : Reach host repairableLinks (boot cfg bonds) c) : RepairInv c.state.view := by
  refine reach_keeps_of_known
    (J := fun s => IdleOutside s.view ∧ TokenBound s ∧ View.WorkOf s.view)
    (I := fun s => RepairInv s.view) h
    (fun _ hreach => ⟨idleOutside hreach, tokenBound hreach, View.workOf hreach⟩) nofun ?_ ?_
  · rintro o ch s ⟨hidle, -⟩ hinv _ _ hg hat
    rw [exec_view]
    exact hinv.exec hidle hg hat
  · rintro e s s' ⟨hidle, htokens, hwork⟩ hinv _ _ hstep
    exact hinv.effect hidle hwork (fun hawait => (tokens_eq_zero htokens hawait).2.2)
      (eventStep_view hstep)

/-! ## The result -/

/-- **A re-pair request has had its effect when the next transport call begins.** In every run in
which requests are taken outside of the scan loop, without an open event left to handle and without a
link but that of the connected device, and in which closing this link succeeds in time. -/
theorem callsRepaired_of_repairableLinks {cfg : KbdConfig} {bonds : List (Bda × UInt8)}
    {c : HostConfig} (h : Reach host repairableLinks (boot cfg bonds) c) : CallsRepaired c := by
  intro o k htask hcalls hlive hdue
  have hinv := repairInv h
  have hat := reach_op_at h hlive htask
  obtain ⟨n, hn, hrepaired⟩ := hinv hdue
  have hfour : n = 4 := by
    cases o with
    | openCall site bda =>
      have hctl : c.state.ctl = rest (site.before bda) := hat
      simp only [Sys.view, hctl] at hn
      cases site <;> cases hn
      rfl
    | reconnectCall d =>
      have hctl : c.state.ctl = rest .reconnecting := hat
      simp only [Sys.view, hctl] at hn
      cases hn
    | _ => cases hcalls
  subst hfour
  refine ⟨hrepaired.bonds (by omega), hrepaired.scanList (by omega), hrepaired.forgotten (by omega),
    hrepaired.links.resolve_right ?_, hrepaired.reported (Nat.le_refl 4)⟩
  -- nothing is left to close where the next call begins
  rintro ⟨hclosing, -⟩
  unfold View.Closing at hclosing
  split at hclosing
  all_goals first | exact hclosing | (rename_i hph; rw [hph] at hn; cases hn)

/-! ## Runs -/

/-- The next operation begins a transport call. -/
def HostConfig.atCall (c : HostConfig) : Bool :=
  match c.task with
  | .op o _ => o.calls && c.state.fault.isNone
  | .ret _ => false

/-- Re-pair of a connected device whose link is closed in time. -/
theorem callsRepaired_closed : ∃ c, host.run repairableLinks
    (scanRun 7 ++ selectRun ++ linkRun 7 ++ openRun ++
      repairRun ([.env (.disconnected 5 0)] ++ List.replicate 3 (.env .dispatch)) ++ rescanRun 7 ++
      selectRun.dropLast) (boot {} []) = some c ∧
      HostConfig.atCall c = true ∧ RepairDue c.state.trace ∧ CallsRepaired c := by
  obtain ⟨c, hrun, hcall⟩ := exists_run repairableLinks
    (scanRun 7 ++ selectRun ++ linkRun 7 ++ openRun ++
      repairRun ([.env (.disconnected 5 0)] ++ List.replicate 3 (.env .dispatch)) ++ rescanRun 7 ++
      selectRun.dropLast) (boot {} [])
    (fun c => HostConfig.atCall c && decide (RepairDue c.state.trace)) (by decide +kernel)
  obtain ⟨hcall, hdue⟩ := Bool.and_eq_true_iff.mp hcall
  exact ⟨c, hrun, hcall, of_decide_eq_true hdue, callsRepaired_of_repairableLinks (Reach.of_run hrun)⟩

/-- From the open call to the poll that sees a re-pair request, which cancels nothing: the device is
open, its open event on the way. It is handled in the wait before `do_pair`. -/
def bailOutRun : List (Move Choice Event) :=
  mains 1 ++ [.env (.gattCb 0 .done)] ++ mains 17 ++ [.env (.tick 10), .env .startPairing] ++
    mains 7 ++ List.replicate 4 (.env .dispatch) ++ mains 1

/-- A re-pair request while connecting leaves the link up, and a second one in the scan loop reports
nothing: the next device is opened with both. -/
theorem not_callsRepaired_connecting : ∃ c, Reach host .free (boot {} []) c ∧
    RepairDue c.state.trace ∧ c.state.radio.links ≠ [] ∧
    (∀ line1 line2, .status .scanning line1 line2 ∉ sinceRepair c.state.trace) ∧
    ¬CallsRepaired c := by
  let run := scanRun 7 ++ selectRun ++ linkRun 7 ++ bailOutRun ++ rescanRun 8 ++
    [.env .startPairing] ++ mains 10 ++
    [.env (.advertised ⟨advInd, some [65], 8, 0, -40⟩)] ++ reselectRun.dropLast
  obtain ⟨c, hrun, hfails⟩ := exists_run .free run (boot {} [])
    (fun c => HostConfig.atCall c && (decide (RepairDue c.state.trace) &&
      (!c.state.radio.links.isEmpty &&
        (sinceRepair c.state.trace).all fun o => o.status? != some .scanning)))
    (by decide +kernel)
  simp only [Bool.and_eq_true, decide_eq_true_eq, Bool.not_eq_true', List.isEmpty_eq_false_iff,
    List.all_eq_true, bne_iff_ne] at hfails
  obtain ⟨hcall, hdue, hlinks, hsilent⟩ := hfails
  refine ⟨c, .of_run hrun, hdue, hlinks, fun line1 line2 hmem => hsilent _ hmem rfl, fun hcalls => ?_⟩
  unfold HostConfig.atCall at hcall
  split at hcall
  · rename_i o k htask
    obtain ⟨ho, hlive⟩ := Bool.and_eq_true_iff.mp hcall
    exact hlinks (hcalls o k htask ho (Option.isNone_iff_eq_none.mp hlive) hdue).links
  · cases hcall

end BleKbdHost.Host
