import BleKbdHost.Host.Marks
import BleKbdHost.Verify.Entries

/-!
# What a successful open means

Whether `esp_ble_hidh_dev_open` returns a device, and posts its open event, only for a device that can
be used: a HID service was found on its connection, discovery came to its end and its tables are
allocated. No step of the open looks at `dev->status` or at how discovery ended. Where the peer has a
HID service and no allocation of discovery fails, the open keeps the promise; where moreover no token
of an earlier open is left, CONNECTED is entered only for a device that was returned.
-/

namespace BleKbdHost.Host

open Hid Keys Conc

/-! ## The property -/

/-- A listed device with a HID service, found on its connection, and with both tables. -/
structure Usable (s : Sys) (d : DevId) : Prop where
  device : ∃ dev, s.dev? d = some dev ∧ dev.status ≠ -1 ∧ 1 ≤ dev.reportMapsLen ∧
    dev.reportMaps.isSome = true ∧ dev.protocolMode.isSome = true
  completed : Completed s.discLog

/-- Beginning and end of a transport call. -/
def Obs.boundsCall : Obs → Bool
  | .openCall _ _ _ | .reconnectCall _ | .returned _ => true
  | _ => false

/-- CONNECTED is entered in an attempt that returned a device. -/
def ReturnedRule (o : Obs) (before : List Obs) : Prop :=
  o = .state .connected → ∃ d, .returned (some d) ∈ attempt before

/-- An open posts its event, and returns its device, if it can be used; otherwise the device it
allocated is off the list when it returns, and CONNECTED is not entered. -/
structure OpensUsable (c : HostConfig) : Prop where
  posted : ∀ d k, c.task = .op (.postOpen .open d) k → c.state.fault = none → Usable c.state d
  returned : ∀ d k, c.task = .op (.openReturns (some d)) k → c.state.fault = none →
    Usable c.state d
  removed : ∀ k, c.task = .op (.openReturns none) k → c.state.fault = none → ∀ d bda,
    .deviceAdded d bda ∈ since Obs.boundsCall c.state.trace → c.state.dev? d = none
  entered : Obeys ReturnedRule c.state.trace

/-! ## The condition -/

def DiscObs.foundsHid : DiscObs → Bool
  | .svcReported svc => svc.uuid16 == bleSvcHidUuid16
  | _ => false

/-- The peer has reported a HID service in the latest service discovery. -/
def hidReported (log : List DiscObs) : Bool :=
  (since (· == .svcsRequested) log).any DiscObs.foundsHid

/-- The answers to a service discovery: a HID service comes while the device that is being opened has
the connection, and one has come at the end. -/
def Sys.serves (s : Sys) (conn : UInt16) : GattRsp → Bool
  | .svc svc => svc.uuid16 != bleSvcHidUuid16 ||
    s.ctl.stage.opening?.all fun d => (s.getByConnId conn).any (·.id == d)
  | .done => hidReported s.discLog
  | _ => true

/-- The peer has a HID service, no allocation of discovery fails, no link goes down for the reason -1,
and an open starts without `s_connected_sem` given and without an open event still to give it. -/
def serving : Guard Op Choice Sys Event where
  main o c s :=
    match o with
    | .mallocReportMaps _ | .mallocProtocolMode _ | .mallocReport => c.rc == 0
    | .openCall _ _ => !s.kbd.connectedSem && s.view.agenda.all (·.2 != .give .connected)
    | _ => true
  env e s :=
    match e with
    | .gattCb i rsp =>
      match s.radio.gatt[i]? with
      | some (.services conn) => s.serves conn rsp
      | _ => true
    | .disconnected _ reason => reason != -1
    | _ => true

theorem reason_of_serving {e : Event} {s : Sys} (h : serving.env e s = true) {handle : UInt16}
    {reason : Int} (he : e = .disconnected handle reason) : reason ≠ -1 := by
  subst he
  exact bne_iff_ne.mp h

/-! ## What an open has come to -/

/-- A connection attempt is under way only where its result is awaited; after discovery the device can
be used; and a call whose discovery gave up waits for a callback that does not come. -/
structure OpenInv (s : Sys) : Prop where
  basics : Basics s
  capacity : Capacity s
  connecting : s.radio.connecting.isSome = true → ∃ kind d, s.ctl.stage = .connecting kind d
  finished : ∀ d, s.ctl.stage.finished? = some d → s.Shows true true d ∧ Completed s.discLog
  gaveUp : ∀ kind d, s.ctl.stage = .linked kind d .abandoned →
    s.ctl.awaiting = true ∧ s.waits.tokens = 0

/-- At the end of the service loop, the device shows all that makes it usable. -/
def UseReady : Op → Sys → Prop
  | .svcsDone, s => ∀ d, s.ctl.stage = .linked .open d .secured → s.Shows true true d
  | _, _ => True

theorem useReady_of_ne {o : Op} {s : Sys} (h : o ≠ .svcsDone) : UseReady o s := by
  cases o with
  | svcsDone => exact absurd rfl h
  | _ => trivial

namespace OpenInv

variable {s s' : Sys} {o : Op} {c : Choice}

theorem boot (cfg : KbdConfig) (bonds : List (Bda × UInt8)) : OpenInv (boot cfg bonds).state where
  basics := .boot cfg bonds
  capacity := .boot cfg bonds
  connecting h := by cases h
  finished _ h := by cases h
  gaveUp _ _ h := by cases h

theorem connecting_eq_none (h : OpenInv s) (hst : ∀ kind d, s.ctl.stage ≠ .connecting kind d) :
    s.radio.connecting = none := by
  cases hconnecting : s.radio.connecting with
  | none => rfl
  | some peer =>
    obtain ⟨kind, d, hstage⟩ := h.connecting (by rw [hconnecting]; rfl)
    exact absurd hstage (hst kind d)

theorem exec_connecting (h : OpenInv s) (hat : o.At s.ctl)
    (hsome : (o.exec c s).radio.connecting.isSome = true) :
    ∃ kind d, (o.exec c s).ctl.stage = .connecting kind d := by
  have hwaits : (o.exec c s).radio.connecting = (s.waitsAfter c o).connecting :=
    congrArg Waits.connecting (exec_waits o c s)
  have hstage : (o.exec c s).ctl.stage = s.view.nextStage o c := by
    rw [exec_ctl, View.exec_stage]
  rw [hstage]
  by_cases hwait : o = .waitCb
  · subst hwait
    exact h.connecting (hwaits ▸ hsome)
  · have hnone := (tokens_eq_zero h.basics.tokens (hat.awaiting_eq_false hwait)).2.2
    rw [hwaits] at hsome
    cases o with
    | gapConnect kind d =>
      simp only [Sys.waitsAfter, View.nextStage, key?_view] at hsome ⊢
      cases hdev : s.dev? d with
      | none => simp [hdev, Sys.waits, hnone] at hsome
      | some dev =>
        by_cases haccept : connectAccepted c s dev.bda = true
        · exact ⟨kind, d, by simp [Dev.key, accepts_view, haccept]⟩
        · simp [hdev, haccept, Sys.waits, hnone] at hsome
    | discAllSvcs _ | discAllChrs _ _ _ | discAllDscs _ _ _ | readLong _ _ _ | writeFlat _ _ _ =>
      simp only [Sys.waitsAfter, Waits.request] at hsome
      split at hsome <;> simp [Sys.waits, hnone] at hsome
    | _ => simp [Sys.waitsAfter, Sys.waits, hnone] at hsome

theorem session (h : OpenInv s) : Session s where
  basics := h.basics
  completed d hd := (h.finished d hd).2
  gaveUp := h.gaveUp

theorem allocates_of_serving (hg : serving.main o c s = true) (ho : o.allocates = true) :
    c.rc = 0 := by
  cases o with
  | mallocReportMaps _ | mallocProtocolMode _ | mallocReport => exact beq_iff_eq.mp hg
  | _ => cases ho

theorem exec_shows (h : OpenInv s) (hat : o.At s.ctl) (hpre : UseReady o s) {d : DevId}
    (hd : (o.exec c s).ctl.stage.finished? = some d) : (o.exec c s).Shows true true d := by
  rcases h.session.finished_cases hat hd with ⟨hd', ho⟩ | ⟨rfl, hst⟩
  · refine (h.finished d hd').1.congr (exec_marks c s ?_)
    cases o with
    | devMalloc _ _ =>
      rw [hat.2.1] at hd'
      cases hd'
    | devFree _ | mallocReportMaps _ | mallocProtocolMode _ =>
      rw [hat.1] at hd'
      cases hd'
    | _ => rfl
  · exact (hpre d hst).congr (exec_marks c s rfl)

/-- **An admitted operation at its place keeps what the open has come to.** -/
theorem exec (h : OpenInv s) (hready : o.ready s = true) (hg : serving.main o c s = true)
    (hat : o.At s.ctl) (hpre : UseReady o s) : OpenInv (o.exec c s) := by
  have hsession := h.session.exec hready (allocates_of_serving hg) hat
  exact ⟨hsession.basics, h.capacity.exec o c, h.exec_connecting hat,
    fun d hd => ⟨h.exec_shows hat hpre hd, hsession.completed d hd⟩, hsession.gaveUp⟩

/-- **So does an admitted event.** -/
theorem event {e : Event} (h : OpenInv s) (hg : serving.env e s = true)
    (hstep : eventStep e s = some s') : OpenInv s' := by
  have hctl := eventStep_ctl hstep
  have hsession := h.session.event hstep
  refine ⟨hsession.basics, h.capacity.event h.basics.not_releasing hstep, ?_, ?_, hsession.gaveUp⟩
  · rw [hctl]
    intro hsome
    refine h.connecting ?_
    have heffect := eventStep_waits hstep
    have hsome' : s'.waits.connecting.isSome = true := hsome
    revert hsome'
    generalize s'.waits = w at heffect
    cases heffect with
    | gattCb i rsp req _ => split <;> exact id
    | connection _ => exact fun hsome => by cases hsome
    | other _ => exact id
  · intro d hd
    refine ⟨?_, hsession.completed d hd⟩
    rw [hctl] at hd
    refine (h.finished d hd).1.event h.capacity h.basics.not_releasing (h.connecting_eq_none ?_)
      (fun _ _ => reason_of_serving hg) hstep
    intro kind d' hst
    rw [hst] at hd
    cases hd

end OpenInv

/-! ## Discovery -/

/-- A service discovery is under way: what it reports, the device shows, and its end comes with a
report of a HID service or with an error. -/
structure Asking (d : DevId) (s : Sys) : Prop where
  shown : s.fault = none → hidReported s.discLog = true → s.Shows false false d
  pending : (∃ conn, s.radio.gatt = [.services conn]) ∨
    s.radio.gatt = [] ∧ (s.nimble.status = 0 → hidReported s.discLog = true)

/-- A HID service was found, and the tables are allocated as far as they are asked for. -/
structure HidFound (maps modes : Bool) (d : DevId) (s : Sys) : Prop where
  inv : OpenInv s
  idle : s.radio.connecting = none
  shows : s.Shows maps modes d

section Walk

variable {ph : Phase} {d : DevId} {s s' : Sys} {maps modes : Bool}

theorem hidReported_append {l log : List DiscObs} (hl : ∀ o ∈ l, (o == .svcsRequested) = false) :
    hidReported (l ++ log) = (l.any DiscObs.foundsHid || hidReported log) := by
  rw [hidReported, since_append hl, List.any_append, hidReported]

/-- An answer to the service discovery. -/
theorem Asking.answer {i : Nat} {rsp : GattRsp} (h : Asking d s) (hcapacity : Capacity s)
    (hkeep : ∀ d, s.releasing d = false) (hconnecting : s.radio.connecting = none)
    (hlive : s.fault = none) (hopening : s.ctl.stage.opening? = some d)
    (hg : serving.env (.gattCb i rsp) s = true) (hstep : eventStep (.gattCb i rsp) s = some s') :
    Asking d s' := by
  obtain ⟨conn, hgatt⟩ : ∃ conn, s.radio.gatt = [.services conn] := by
    refine h.pending.resolve_right fun hnone => ?_
    obtain ⟨req, hreq, -⟩ := gattCb_waits hstep
    rw [hnone.1] at hreq
    cases hreq
  have hreq_eq : ∀ {req : GattReq}, s.radio.gatt[i]? = some req → i = 0 ∧ req = .services conn := by
    intro req hreq
    rw [hgatt] at hreq
    cases i with
    | zero => exact ⟨rfl, (Option.some.inj hreq).symm⟩
    | succ i => cases hreq
  have hstays : s.Shows false false d → s'.Shows false false d := fun hshows =>
    hshows.event hcapacity hkeep hconnecting (fun _ _ he => by cases he) hstep
  have hserves : s.serves conn rsp = true := by
    obtain ⟨req, hreq, -⟩ := gattCb_waits hstep
    obtain ⟨rfl, rfl⟩ := hreq_eq hreq
    simpa [serving, hgatt] using hg
  cases gattCb_cases hstep with
  | @svc conn' svc hreq =>
    obtain ⟨-, hconn⟩ := hreq_eq hreq
    cases hconn
    have hlog : ∀ s₁ : Sys, s₁.discLog = .svcReported svc :: s.discLog →
        hidReported s₁.discLog = (svc.uuid16 == bleSvcHidUuid16 || hidReported s.discLog) := by
      intro s₁ hs₁
      rw [hs₁]
      exact (hidReported_append (l := [.svcReported svc]) (by simp)).trans (by simp [DiscObs.foundsHid])
    have hgatt' : (svcDisced s conn svc).radio.gatt = [.services conn] := by
      have hwaits := svcDisced_waits s conn svc
      rw [← hgatt]
      exact congrArg Waits.gatt hwaits
    refine ⟨fun hlive' hreported => ?_, .inl ⟨conn, hgatt'⟩⟩
    rcases svcDisced_cases s conn svc with ⟨-, hfail⟩ | ⟨hroom, -, hlog', -, hdevices⟩
    · rw [hfail] at hlive'
      cases hlive'
    rw [hlog _ hlog', Bool.or_eq_true] at hreported
    rcases hreported with huuid | hreported
    · have huuid' := beq_iff_eq.mp huuid
      obtain ⟨dev, hdev, hid⟩ : ∃ dev, s.getByConnId conn = some dev ∧ dev.id = d := by
        simpa [Sys.serves, huuid', hopening, Option.any_eq_true] using hserves
      rcases hdevices with ⟨hother, -⟩ | ⟨dev', hdev', -, hdevices⟩
      · rw [hdev] at hother
        rcases hother with hnone | hne
        · cases hnone
        · exact absurd huuid' hne
      · rw [hdev] at hdev'
        cases hdev'
        subst hid
        exact .found hcapacity (List.mem_of_find?_eq_some hdev) rfl hroom hdevices
    · exact hstays (h.shown hlive hreported)
  | chr _ hreq | dsc _ hreq | data _ hreq | read hreq | unread hreq _ | written hreq _ =>
    cases (hreq_eq hreq).2
  | found hreq _ =>
    obtain ⟨rfl, rfl⟩ := hreq_eq hreq
    refine ⟨fun _ hreported => hstays (h.shown hlive hreported), .inr ⟨?_, fun _ => hserves⟩⟩
    simp [discEnded, hgatt]
  | lost hreq _ hstatus =>
    obtain ⟨rfl, rfl⟩ := hreq_eq hreq
    refine ⟨fun _ hreported => hstays (h.shown hlive hreported), .inr ⟨?_, fun hzero => ?_⟩⟩
    · simp [discEnded, hgatt]
    · simp only [discEnded, Sys.sendCb] at hzero
      simp [isErrorStatus, hzero] at hstatus

theorem Asking.event {e : Event} (h : Asking d s) (hinv : OpenInv s) (hlive : s.fault = none)
    (hctl : s.ctl.stage = .linked .open d .secured) (hg : serving.env e s = true)
    (hstep : eventStep e s = some s') : Asking d s' := by
  have hconnecting := hinv.connecting_eq_none fun kind d' hst => by
    rw [hctl] at hst
    cases hst
  by_cases he : ∃ i rsp, e = .gattCb i rsp
  · obtain ⟨i, rsp, rfl⟩ := he
    exact h.answer hinv.capacity hinv.basics.not_releasing hconnecting hlive (by rw [hctl]; rfl) hg hstep
  · have hother : ∀ i rsp, e ≠ .gattCb i rsp := fun i rsp heq => he ⟨i, rsp, heq⟩
    obtain ⟨hcore, hlog, -⟩ := eventStep_core hstep hother
    have hgatt : s'.radio.gatt = s.radio.gatt := by
      have heffect := eventStep_waits hstep
      change s'.waits.gatt = s.waits.gatt
      generalize s'.waits = w at heffect
      cases heffect with
      | gattCb i rsp req _ => exact absurd rfl (hother i rsp)
      | connection _ | other _ => rfl
    have hstatus : s'.nimble.status = s.nimble.status := by
      change s'.nimble.core.status = s.nimble.core.status
      rw [hcore]
    refine ⟨fun _ hreported => ?_, ?_⟩
    · rw [hlog] at hreported
      exact (h.shown hlive hreported).event hinv.capacity hinv.basics.not_releasing hconnecting
        (fun _ _ => reason_of_serving hg) hstep
    · rw [hgatt, hstatus, hlog]
      exact h.pending

theorem stable_asking (awaiting : Bool) : Stable host serving fun s =>
    Standing OpenInv { discovering ph d with awaiting := awaiting } s ∧ Asking d s := by
  rintro s s' hstep ⟨hs, hasking⟩
  refine ⟨⟨stable_ctl _ s s' hstep hs.1, ?_⟩, ?_⟩
  · obtain ⟨e, -, hg, hstep⟩ := hstep
    exact hs.2.event hg hstep
  · obtain ⟨e, hlive, hg, hstep⟩ := hstep
    exact hasking.event hs.2 (live_iff.mp hlive) (congrArg Ctl.stage hs.1) hg hstep

theorem HidFound.event {e : Event} (h : HidFound maps modes d s) (hg : serving.env e s = true)
    (hstep : eventStep e s = some s') : HidFound maps modes d s' := by
  refine ⟨h.inv.event hg hstep, ?_, ?_⟩
  · have heffect := eventStep_waits hstep
    have hidle := h.idle
    change s'.waits.connecting = none
    generalize s'.waits = w at heffect
    cases heffect with
    | gattCb i rsp req _ => split <;> exact hidle
    | connection _ => rfl
    | other _ => exact hidle
  · exact h.shows.event h.inv.capacity h.inv.basics.not_releasing h.idle
      (fun _ _ => reason_of_serving hg) hstep

theorem stable_hidFound : Stable host serving (HidFound maps modes d) := by
  rintro s s' ⟨e, -, hg, hstep⟩ h
  exact h.event hg hstep

/-- The operations of the loops leave what was found. -/
theorem carried_hidFound :
    Carried (fun o => Op.searches o) serving UseReady (HidFound maps modes d) where
  exec o c s ho h hlive hready hg hat := by
    have hne : o ≠ .svcsDone := by
      rintro rfl
      cases ho
    refine ⟨h.inv.exec hready hg hat (useReady_of_ne hne), ?_, h.shows.congr (exec_marks c s ?_)⟩
    · have hwaits : (o.exec c s).radio.connecting = (s.waitsAfter c o).connecting :=
        congrArg Waits.connecting (exec_waits o c s)
      rw [hwaits]
      cases o with
      | gapConnect _ _ => cases ho
      | discAllChrs _ _ _ | discAllDscs _ _ _ | readLong _ _ _ =>
        simp only [Sys.waitsAfter, Waits.request]
        split <;> exact h.idle
      | discAllSvcs _ | writeFlat _ _ _ => cases ho
      | _ => exact h.idle
    · cases o with
      | devMalloc _ _ | devFree _ | mallocReportMaps _ | mallocProtocolMode _ => cases ho
      | _ => rfl
  env := stable_hidFound
  pre o s ho _ _ _ := useReady_of_ne fun heq => by
    subst heq
    cases ho

/-- Outside of the end of discovery, nothing is asked of the operations. -/
theorem carried_openInv : Carried (fun o => o != .svcsDone) serving UseReady OpenInv where
  exec o c s ho h _ hready hg hat := h.exec hready hg hat (useReady_of_ne (bne_iff_ne.mp ho))
  env := by
    rintro s s' ⟨e, -, hg, hstep⟩ h
    exact h.event hg hstep
  pre o s ho _ _ _ := useReady_of_ne (bne_iff_ne.mp ho)

/-- The request of the service discovery: accepted, or refused, and then nothing answers it. -/
def Requested (ph : Phase) (d : DevId) (rc : Int) (s : Sys) : Prop :=
  Standing OpenInv { searching ph d (rc != 0) with awaiting := true } s ∧ (rc = 0 → Asking d s)

theorem stable_requested (rc : Int) : Stable host serving (Requested ph d rc) := by
  rintro s s' hstep ⟨hs, hasking⟩
  refine ⟨(carried_openInv.standing _) s s' hstep hs, fun hzero => ?_⟩
  refine (@stable_asking ph d true s s' hstep ⟨⟨hs.1.trans ?_, hs.2⟩, hasking hzero⟩).2
  rw [hzero]
  rfl

theorem triple_discAllSvcs :
    Triple host serving UseReady (Standing OpenInv (discovering ph d)) (call (.discAllSvcs d))
      (Requested ph d) := by
  refine triple_ask (carried_openInv.standing _) stable_requested (fun _ _ _ => trivial) ?_
  intro ch s hs hlive hready hg _
  have hat : (Op.discAllSvcs d).At s.ctl := hs.1 ▸ ⟨rfl, rfl⟩
  refine ⟨⟨?_, hs.2.exec hready hg hat trivial⟩, fun hzero => ⟨fun _ hreported => ?_, .inl ?_⟩⟩
  · rw [exec_ctl]
    have hctl : s.view.ctl = discovering ph d := hs.1
    by_cases hrc : ch.rc = 0 <;> simp [View.exec, hrc, hctl, Stage.advance]
  · cases hreported
  · have hgatt := (tokens_eq_zero hs.2.basics.tokens (by rw [hs.1])).2.1
    exact ⟨s.connHandle d, by simp [Op.exec, hgatt, show ch.rc = 0 from hzero]⟩

/-- The end of the service discovery: a HID service was found, or the status tells of an error. -/
def Answered (ph : Phase) (d : DevId) (s : Sys) : Prop :=
  Standing OpenInv (discovering ph d) s ∧ Asking d s ∧ s.radio.gatt = []

theorem stable_answered : Stable host serving (Answered ph d) := by
  rintro s s' hstep ⟨hs, hasking, hgatt⟩
  have hnext := @stable_asking ph d false s s' hstep ⟨hs, hasking⟩
  obtain ⟨e, -, -, hstep⟩ := hstep
  refine ⟨hnext.1, hnext.2, ?_⟩
  exact (tokens_eq_zero hnext.1.2.basics.tokens (by rw [hnext.1.1])).2.1

theorem triple_waitDisc_answered (rc : Int) :
    Triple host serving UseReady (Requested ph d rc) waitDisc fun _ s =>
      rc = 0 ∧ Standing (HidFound false false d) (discovering ph d) s := by
  refine Triple.bind (B := fun _ s => rc = 0 ∧ Answered ph d s)
    (triple_ask (stable_requested rc) (fun _ => (Stable.const _).and stable_answered)
      (fun _ _ _ => trivial) ?_) fun _ => ?_
  · intro ch s hs hlive hready hg _
    obtain ⟨hstanding, hasking⟩ := hs
    have hgiven : s.nimble.cbSemaphore = true := hready
    have hat : Op.waitCb.At s.ctl := congrArg Ctl.awaiting hstanding.1
    have hinv := hstanding.2.exec (c := ch) hready hg hat trivial
    by_cases hzero : rc = 0
    · have hempty := (hstanding.2.basics.tokens.of_given hgiven).1
      refine ⟨hzero, ⟨?_, hinv⟩, ⟨(hasking hzero).shown, ?_⟩, hempty⟩
      · rw [exec_ctl]
        have hctl : s.view.ctl = { searching ph d (rc != 0) with awaiting := true } := hstanding.1
        simp [View.exec, hctl, hzero]
      · refine .inr ⟨hempty, ((hasking hzero).pending.resolve_left ?_).2⟩
        rintro ⟨conn, hgatt⟩
        rw [hempty] at hgatt
        cases hgatt
    · -- without an outstanding request, the semaphore is not given
      have hstage : s.ctl.stage = .linked .open d .abandoned := by
        rw [hstanding.1, bne_iff_ne.mpr hzero]
        rfl
      have hnone := (hstanding.2.gaveUp _ _ hstage).2
      simp [Waits.tokens, Sys.waits, hgiven] at hnone
  · refine Triple.pure fun hzero => triple_ask stable_answered
      (fun _ => (Stable.const _).and ((stable_ctl _).and stable_hidFound)) (fun _ _ _ => trivial) ?_
    intro ch s hs hlive hready hg hnext
    obtain ⟨hstanding, hasking, hgatt⟩ := hs
    have hat : Op.assertStatus.At s.ctl := hstanding.1 ▸ ⟨⟨d, _, rfl⟩, rfl⟩
    have hinv := hstanding.2.exec (c := ch) hready hg hat trivial
    by_cases hstatus : s.nimble.status = 0
    · have hsame : Op.assertStatus.exec ch s = s := by rw [Op.exec, if_pos hstatus]
      simp only [hsame] at hinv ⊢
      refine ⟨hzero, hstanding.1, hinv, ?_, ?_⟩
      · exact (tokens_eq_zero hinv.basics.tokens (by rw [hstanding.1])).2.2
      · refine hasking.shown hlive (hasking.pending.elim ?_ fun h => h.2 hstatus)
        rintro ⟨conn, hconn⟩
        rw [hgatt] at hconn
        cases hconn
    · rw [Op.exec, if_neg hstatus] at hnext
      cases hnext

/-- An allocation of a table, which succeeds. -/
theorem triple_table (maps' modes' : Bool) {o : Op} (ho : o ≠ .svcsDone)
    (hat : o.At (discovering ph d)) (hg : ∀ ch s, serving.main o ch s = true → ch.rc = 0)
    (hctl : ∀ (ch : Choice) (v : View), ch.rc = 0 → (v.exec o ch).ctl = v.ctl)
    (hidle : ∀ ch s, ((o.exec ch s)).radio.connecting = s.radio.connecting)
    (hshows : ∀ ch s, ch.rc = 0 → s.Shows maps modes d → (o.exec ch s).Shows maps' modes' d) :
    Triple host serving UseReady (Standing (HidFound maps modes d) (discovering ph d)) (call o)
      fun rc s => rc = 0 ∧ Standing (HidFound maps' modes' d) (discovering ph d) s := by
  refine triple_ask ((stable_ctl _).and stable_hidFound)
    (fun _ => (Stable.const _).and ((stable_ctl _).and stable_hidFound))
    (fun _ _ _ => useReady_of_ne ho) ?_
  intro ch s hs hlive hready hguard _
  have hrc := hg ch s hguard
  refine ⟨hrc, ?_, hs.2.inv.exec hready hguard (hs.1 ▸ hat) (useReady_of_ne ho), ?_, ?_⟩
  · rw [exec_ctl, hctl ch _ hrc]
    exact hs.1
  · rw [hidle]
    exact hs.2.idle
  · exact hshows ch s hrc hs.2.shows

/-- **Discovery comes to its end with a device that can be used.** -/
theorem discovery_usable :
    Triple host serving UseReady (Standing OpenInv (discovering ph d)) (readDeviceServices d)
      fun _ => Discovered OpenInv ph d := by
  refine Triple.bind triple_discAllSvcs fun rc => Triple.bind (triple_waitDisc_answered rc) fun _ =>
    Triple.pure fun hzero => ?_
  have hlook : Keeps serving UseReady (HidFound false false d) (discovering ph d)
      (look (·.nimble.servicesDiscovered)) := Keeps.look carried_hidFound rfl _ rfl
  refine Triple.bind hlook fun dcount => ?_
  rw [if_pos hzero]
  refine Triple.bind (triple_table true false (o := .mallocReportMaps d)
    (by simp) ⟨rfl, rfl⟩ (fun _ _ h => beq_iff_eq.mp h) (fun ch v hrc => by simp [View.exec, hrc]) ?_ ?_)
    fun mapsRc => Triple.pure fun hmaps => ?_
  · intro ch s
    simp only [Op.exec]
    split <;> rfl
  · exact fun ch s hrc h => h.mallocReportMaps hrc
  rw [if_neg (fun hne => hne hmaps)]
  refine Triple.bind (triple_table true true (o := .mallocProtocolMode d)
    (by simp) ⟨rfl, rfl⟩ (fun _ _ h => beq_iff_eq.mp h) (fun ch v hrc => by simp [View.exec, hrc]) ?_ ?_)
    fun modeRc => Triple.pure fun hmodes => ?_
  · intro ch s
    simp only [Op.exec]
    split <;> rfl
  · exact fun ch s hrc h => h.mallocProtocolMode hrc
  rw [if_neg (fun hne => hne hmodes)]
  have hsearch : Carried (Op.bufless Op.searches) serving UseReady (HidFound true true d) :=
    carried_hidFound.mono fun o ho => (Bool.and_eq_true_iff.mp ho).1
  have hexamine : Carried Op.examines serving UseReady (HidFound true true d) :=
    carried_hidFound.mono fun o ho => by
      cases o with
      | look | readDev _ | waitCb | readLong _ _ _ | endRead _ | mallocReport | setField _ _ | freeBuf _ =>
        rfl
      | _ => cases ho
  refine Triple.bind (triple_svcLoop (fun _ => hsearch) (.of_examines hexamine)
    (hsearch.standing _) (fun _ _ => id) _ _ _) fun v? => ?_
  cases v? with
  | none =>
    exact fun s hs _ => (hs.2.inv.session.not_gaveUp (congrArg Ctl.stage hs.1) (by rw [hs.1])).elim
  | some v =>
    refine Triple.bind (B := fun _ => Standing OpenInv (discovered ph d))
      (triple_ask (hsearch.standing _) (fun _ => carried_openInv.standing _) ?_ ?_) fun _ => ?_
    · intro s hs _ d' hst
      rw [hs.1] at hst
      cases hst
      exact hs.2.shows
    · intro ch s hs _ hready hg _
      refine ⟨?_, hs.2.inv.exec hready hg (hs.1 ▸ ⟨⟨d, rfl⟩, rfl⟩) fun d' hst => ?_⟩
      · rw [exec_ctl]
        have hctl : s.view.ctl = discovering ph d := hs.1
        simp [View.exec, hctl, Stage.advance]
      · rw [hs.1] at hst
        cases hst
        exact hs.2.shows
    · have hparses : Carried Op.parses serving UseReady OpenInv := carried_openInv.mono fun o ho => by
        cases o with
        | look | readDev _ | setField _ _ | readReportMap _ _ | parseReportMap _ => rfl
        | _ => cases ho
      refine Triple.bind (Keeps.readDev hparses rfl _ ⟨rfl, rfl⟩) fun len => ?_
      refine (keeps_mapLoop (hparses.mono fun o ho => (Bool.and_eq_true_iff.mp ho).1)
        (.of_parses hparses) _ _).weaken fun _ s hs => ⟨.discovered, .inl rfl, hs⟩

end Walk

/-! ## What a call returns -/

/-- The devices that a transport call has added, and the events that it has posted, on the way to what
it returns. -/
structure ReturnInv (v : View) : Prop where
  settled : ∀ d, OpenPosted d (attempt v.trace) →
    (∃ kind, v.ctl.stage = .opened kind d) ∨ .returned (some d) ∈ attempt v.trace
  token : v.ctl.phase.opens = true →
    (v.kbd.connectedSem = true ∨ ∃ p, (p, .give .connected) ∈ v.agenda) →
    ∃ d, OpenPosted d (attempt v.trace)
  accepted : v.ctl.phase = .accepted → ∃ d, .returned (some d) ∈ attempt v.trace
  added : ∀ d bda, .deviceAdded d bda ∈ since Obs.boundsCall v.trace →
    v.ctl.stage.opening? = some d ∨ d ∉ v.ids
  entered : Obeys ReturnedRule v.trace

namespace ReturnInv

variable {v v' : View} {l : List Obs}

/-- Neither the beginning nor the end of a transport call, nor an entry. -/
def Silent (l : List Obs) : Prop := ∀ o ∈ l, o.boundsCall = false ∧ o ≠ .state .connected

theorem startsAttempt_of_silent (h : Silent l) : ∀ o ∈ l, o.startsAttempt = false := by
  intro o ho
  have hbounds := (h o ho).1
  cases o with
  | openCall _ _ _ | reconnectCall _ => cases hbounds
  | _ => rfl

theorem silent_of_quiet (h : AttemptInv.Quiet l) : Silent l := by
  intro o ho
  obtain ⟨hstarts, hdecides, hne⟩ := h o ho
  refine ⟨?_, hne⟩
  cases o with
  | openCall _ _ _ | reconnectCall _ => cases hstarts
  | returned _ => cases hdecides
  | _ => rfl

/-- A step within an attempt that opens nothing. -/
theorem of_silent (h : ReturnInv v) (htrace : v'.trace = l ++ v.trace) (hsilent : Silent l)
    (hposted : ∀ seq d, .posted ⟨seq, .open d 0⟩ ∉ l)
    (hopened : ∀ kind d, v.ctl.stage = .opened kind d → v'.ctl.stage = .opened kind d)
    (htoken : v'.ctl.phase.opens = true → v.ctl.phase.opens = true ∧
      ((v'.kbd.connectedSem = true ∨ ∃ p, (p, .give .connected) ∈ v'.agenda) →
        v.kbd.connectedSem = true ∨ ∃ p, (p, .give .connected) ∈ v.agenda))
    (haccepted : v'.ctl.phase = .accepted → v.ctl.phase = .accepted ∨
      ∃ d, .returned (some d) ∈ attempt v.trace)
    (hadded : ∀ d, v.ctl.stage.opening? = some d ∨ d ∉ v.ids →
      v'.ctl.stage.opening? = some d ∨ d ∉ v'.ids)
    (hnew : ∀ d bda, .deviceAdded d bda ∈ l → v'.ctl.stage.opening? = some d ∨ d ∉ v'.ids) :
    ReturnInv v' := by
  have hattempt : attempt v'.trace = l ++ attempt v.trace := by
    rw [attempt, htrace, since_append (startsAttempt_of_silent hsilent), attempt]
  have hopenPosted : ∀ d, OpenPosted d (attempt v'.trace) ↔ OpenPosted d (attempt v.trace) := by
    intro d
    rw [hattempt]
    refine exists_congr fun seq => ?_
    rw [List.mem_append, or_iff_right (hposted seq d)]
  have hreturned : ∀ r, .returned r ∈ attempt v.trace → .returned r ∈ attempt v'.trace := by
    intro r hr
    rw [hattempt]
    exact List.mem_append_right _ hr
  constructor
  · intro d hd
    exact (h.settled d ((hopenPosted d).mp hd)).imp (Exists.imp fun kind => hopened kind d)
      (hreturned _)
  · intro hopens hsem
    obtain ⟨hopens', hback⟩ := htoken hopens
    exact (h.token hopens' (hback hsem)).imp fun d => (hopenPosted d).mpr
  · exact fun hph => ((haccepted hph).elim h.accepted id).imp fun d => hreturned _
  · intro d bda hmem
    rw [htrace, since_append fun o ho => (hsilent o ho).1] at hmem
    rcases List.mem_append.mp hmem with hmem | hmem
    · exact hnew d bda hmem
    · exact hadded d (h.added d bda hmem)
  · rw [htrace]
    exact h.entered.append fun o ho _ heq => absurd heq (hsilent o ho).2

/-- A new attempt begins. -/
theorem restart (htrace : ∃ o, v'.trace = o :: v.trace ∧ o.startsAttempt = true ∧
      o.boundsCall = true ∧ o ≠ .state .connected) (h : Obeys ReturnedRule v.trace)
    (hopens : v'.ctl.phase.opens = true →
      v'.kbd.connectedSem = false ∧ ∀ p, (p, .give .connected) ∉ v'.agenda)
    (haccepted : v'.ctl.phase ≠ .accepted) : ReturnInv v' := by
  obtain ⟨o, htrace, hstarts, hbounds, hne⟩ := htrace
  have hattempt : attempt v'.trace = [] := by
    rw [htrace]
    exact since_cons_of_pos hstarts
  constructor
  · rw [hattempt]
    rintro d ⟨seq, hmem⟩
    cases hmem
  · intro hph hsem
    obtain ⟨hnone, hgives⟩ := hopens hph
    rcases hsem with hsem | ⟨p, hgive⟩
    · rw [hnone] at hsem
      cases hsem
    · exact absurd hgive (hgives p)
  · exact fun hph => absurd hph haccepted
  · rw [htrace, since_cons_of_pos hbounds]
    intro d bda hmem
    cases hmem
  · rw [htrace]
    exact obeys_cons.mpr ⟨fun heq => absurd heq hne, h⟩

/-- A transport call returns; what it opened, it returns. -/
theorem returns (h : ReturnInv v) {r : Option DevId} (htrace : v'.trace = .returned r :: v.trace)
    (hopened : ∀ kind d, v.ctl.stage = .opened kind d → r = some d)
    (hagenda : v'.agenda = v.agenda)
    (hopens : v'.ctl.phase.opens = true → v.ctl.phase.opens = true ∧
      (v'.kbd.connectedSem = true → v.kbd.connectedSem = true))
    (haccepted : v'.ctl.phase = .accepted → ∃ d, r = some d) : ReturnInv v' := by
  have hattempt : attempt v'.trace = .returned r :: attempt v.trace := by
    rw [htrace]
    exact since_append (l := [_]) (by simp [Obs.startsAttempt])
  have hopenPosted : ∀ d, OpenPosted d (attempt v'.trace) ↔ OpenPosted d (attempt v.trace) := by
    intro d
    rw [hattempt]
    simp [OpenPosted]
  constructor
  · intro d hd
    rw [hattempt]
    rcases h.settled d ((hopenPosted d).mp hd) with ⟨kind, hst⟩ | hmem
    · rw [hopened kind d hst]
      exact .inr List.mem_cons_self
    · exact .inr (List.mem_cons_of_mem _ hmem)
  · intro hph hsem
    rw [hagenda] at hsem
    obtain ⟨hph', hback⟩ := hopens hph
    exact (h.token hph' (hsem.imp_left hback)).imp fun d => (hopenPosted d).mpr
  · intro hph
    obtain ⟨d, rfl⟩ := haccepted hph
    rw [hattempt]
    exact ⟨d, List.mem_cons_self⟩
  · rw [htrace, since_cons_of_pos rfl]
    intro d bda hmem
    cases hmem
  · rw [htrace]
    refine obeys_cons.mpr ⟨fun heq => ?_, h.entered⟩
    cases heq

theorem postOpen (h : ReturnInv v) {kind : CallKind} {d : DevId} (c : Choice)
    (hstage : v.ctl.stage = .marked kind d) : ReturnInv (v.exec (.postOpen kind d) c) := by
  have hattempt : attempt (v.exec (.postOpen kind d) c).trace =
      .posted ⟨v.nextSeq, .open d 0⟩ :: attempt v.trace :=
    since_append (l := [Obs.posted ⟨v.nextSeq, .open d 0⟩]) (by simp [Obs.startsAttempt])
  have hstage' : (v.exec (.postOpen kind d) c).ctl.stage = .opened kind d := rfl
  constructor
  · rintro d' ⟨seq, hmem⟩
    rw [hattempt] at hmem ⊢
    rcases List.mem_cons.mp hmem with heq | hmem
    · cases heq
      exact .inl ⟨kind, rfl⟩
    · rcases h.settled d' ⟨seq, hmem⟩ with ⟨kind', hst⟩ | hreturned
      · rw [hstage] at hst
        cases hst
      · exact .inr (List.mem_cons_of_mem _ hreturned)
  · intro _ _
    rw [hattempt]
    exact ⟨d, v.nextSeq, List.mem_cons_self⟩
  · intro hph
    rw [hattempt]
    exact (h.accepted hph).imp fun d' => List.mem_cons_of_mem _
  · intro d' bda hmem
    have hsince : since Obs.boundsCall (v.exec (.postOpen kind d) c).trace =
        .posted ⟨v.nextSeq, .open d 0⟩ :: since Obs.boundsCall v.trace :=
      since_append (l := [Obs.posted ⟨v.nextSeq, .open d 0⟩]) (by simp [Obs.boundsCall])
    rw [hsince] at hmem
    have hids : (v.exec (.postOpen kind d) c).ids = v.ids := View.exec_ids ..
    rw [hids, hstage']
    refine (h.added d' bda (by simpa using hmem)).imp_left fun hopening => ?_
    rw [hstage] at hopening
    cases kind <;> exact hopening
  · refine obeys_cons.mpr ⟨fun heq => ?_, h.entered⟩
    cases heq

theorem takeConnected (h : ReturnInv v) (c : Choice)
    (hphase : ∃ site : OpenSite, v.ctl.phase = .expired site ∨ v.ctl.phase = .answered site)
    (hstage : v.ctl.stage = .none) : ReturnInv (v.exec .takeConnected c) := by
  have hphase' : (v.exec .takeConnected c).ctl.phase =
      if v.kbd.connectedSem then .accepted else v.ctl.phase.refuse := View.exec_phase ..
  have hids : (v.exec .takeConnected c).ids = v.ids := View.exec_ids ..
  have hopens : v.ctl.phase.opens = true := by
    obtain ⟨site, hph | hph⟩ := hphase <;> rw [hph] <;> rfl
  have hrefuse : v.ctl.phase.refuse.opens = false ∧ v.ctl.phase.refuse ≠ .accepted := by
    obtain ⟨site, hph | hph⟩ := hphase <;> rw [hph] <;> exact ⟨rfl, by simp [Phase.refuse]⟩
  refine h.of_silent (l := [.decided v.kbd.connectedSem]) (View.exec_trace ..)
    (by simp [Silent, Obs.boundsCall]) (by simp) (fun _ _ hst => ?_) (fun hopens' => ?_)
    (fun haccepted => .inr ?_) (fun d hd => ?_) (by simp)
  · rw [hstage] at hst
    cases hst
  · rw [hphase'] at hopens'
    split at hopens'
    · cases hopens'
    · rw [hrefuse.1] at hopens'
      cases hopens'
  · rw [hphase'] at haccepted
    split at haccepted
    · rename_i hsem
      obtain ⟨d, hd⟩ := h.token hopens (.inl hsem)
      rcases h.settled d hd with ⟨kind, hst⟩ | hreturned
      · rw [hstage] at hst
        cases hst
      · exact ⟨d, hreturned⟩
    · exact absurd haccepted hrefuse.2
  · rw [hids]
    exact hd

/-- CONNECTED is entered. -/
theorem setConnectedState (h : ReturnInv v) (c : Choice) (hphase : v.ctl.phase = .accepted) :
    ReturnInv (v.exec (.setState .connected) c) := by
  have hattempt : attempt (v.exec (.setState .connected) c).trace =
      .state .connected :: attempt v.trace :=
    since_append (l := [Obs.state .connected]) (by simp [Obs.startsAttempt])
  have hsince : since Obs.boundsCall (v.exec (.setState .connected) c).trace =
      .state .connected :: since Obs.boundsCall v.trace :=
    since_append (l := [Obs.state .connected]) (by simp [Obs.boundsCall])
  have hphase' : (v.exec (.setState .connected) c).ctl.phase = .announcing .connected :=
    (View.exec_phase ..).trans (by rw [View.nextPhase, hphase]; rfl)
  constructor
  · rintro d ⟨seq, hmem⟩
    rw [hattempt] at hmem ⊢
    exact (h.settled d ⟨seq, by simpa using hmem⟩).imp_right (List.mem_cons_of_mem _)
  · rw [hphase']
    exact fun hopens => by cases hopens
  · rw [hphase']
    exact fun haccepted => by cases haccepted
  · rw [hsince]
    intro d bda hmem
    exact h.added d bda (by simpa using hmem)
  · exact obeys_cons.mpr ⟨fun _ => h.accepted hphase, h.entered⟩

theorem noted_added {o : Op} {c : Choice} {d : DevId} {bda : Bda}
    (h : v.noted o c = some (.deviceAdded d bda)) :
    ∃ addrType, o = .devMalloc bda addrType ∧ c.rc = 0 ∧ d = v.nextDev := by
  cases o with
  | devMalloc bda' addrType =>
    simp only [View.noted, Option.ite_none_right_eq_some, Option.some.injEq] at h
    obtain ⟨hrc, heq⟩ := h
    cases heq
    exact ⟨addrType, rfl, hrc, rfl⟩
  | receiveCmd _ _ =>
    obtain ⟨cmd, -, hcmd⟩ := Option.map_eq_some_iff.mp h
    cases cmd <;> cases hcmd
  | onStatus _ _ _ | emitKey _ | onScanUpdated _ | devFree _ | securityInitiate _ =>
    simp only [View.noted] at h
    split at h <;> cases h
  | _ => cases h

/-- An operation within an attempt that opens nothing. -/
theorem exec_silent {o : Op} (c : Choice) (h : ReturnInv v) (hat : o.At v.ctl)
    (hattempts : o.attempts = false) (hgive : ∀ sem, o = .give sem → v.ctl.phase.opens = false)
    (hopened : ∀ kind d, v.ctl.stage = .opened kind d → v.nextStage o c = .opened kind d)
    (hadded : ∀ d, v.ctl.stage.opening? = some d ∨ d ∉ v.ids →
      (v.nextStage o c).opening? = some d ∨ d ∉ v.nextIds o c)
    (hnew : ∀ d bda, v.noted o c = some (.deviceAdded d bda) →
      (v.nextStage o c).opening? = some d ∨ d ∉ v.nextIds o c) : ReturnInv (v.exec o c) := by
  have hphase := AttemptInv.opens_of_phaseStep (View.phaseStep hat) hattempts
  have hagenda : (v.exec o c).agenda = v.agenda := by
    rw [View.exec_agenda o c v fun kind d ho => by subst ho; cases hattempts]
    cases o with
    | postOpen _ _ => cases hattempts
    | _ => rfl
  refine h.of_silent (View.exec_trace o c v) (silent_of_quiet (AttemptInv.quiet_noted c hattempts))
    ?_ ?_ ?_ ?_ ?_ ?_
  · intro seq d hmem
    obtain ⟨kind, d', rfl, -⟩ := View.noted_origin (Option.mem_toList.mp hmem)
    cases hattempts
  · rwa [View.exec_stage]
  · rw [View.exec_phase, hagenda]
    intro hopens
    have hopens' := hphase.1 hopens
    refine ⟨hopens', Or.imp_left fun hsem => ?_⟩
    have hsem' : v.nextSem o .connected = true := (View.exec_sem o c v .connected).symm.trans hsem
    refine AttemptInv.sem_of_nextSem (fun sem ho => ?_) hsem'
    rw [hgive sem ho] at hopens'
    cases hopens'
  · rw [View.exec_phase]
    exact fun haccepted => .inl (hphase.2 haccepted)
  · rw [View.exec_stage, View.exec_ids]
    exact hadded
  · rw [View.exec_stage, View.exec_ids]
    exact fun d bda hmem => hnew d bda (Option.mem_toList.mp hmem)

/-- One that neither adds nor removes a device. -/
theorem exec_frame {o : Op} (c : Choice) (h : ReturnInv v) (hat : o.At v.ctl)
    (hattempts : o.attempts = false) (hgive : ∀ sem, o = .give sem → v.ctl.phase.opens = false)
    (hmalloc : ∀ bda addrType, o ≠ .devMalloc bda addrType) (hids : v.nextIds o c = v.ids)
    (hopened : ∀ kind d, v.ctl.stage = .opened kind d → v.nextStage o c = .opened kind d)
    (hopening : (v.nextStage o c).opening? = v.ctl.stage.opening?) : ReturnInv (v.exec o c) := by
  refine h.exec_silent c hat hattempts hgive hopened ?_ fun d bda hnoted => ?_
  · rw [hopening, hids]
    exact fun _ => id
  · obtain ⟨addrType, rfl, -⟩ := noted_added hnoted
    exact absurd rfl (hmalloc bda addrType)

/-- **An operation at its place, and an open that starts without a token, keep it.** -/
theorem exec {s : Sys} {o : Op} {c : Choice} (h : ReturnInv s.view)
    (hg : serving.main o c s = true) (hat : o.At s.ctl) : ReturnInv (s.view.exec o c) := by
  have hlater : ∀ o : Op, o.At s.ctl → o.attempts = false → o.connects = false →
      (∀ sem, o = .give sem → s.view.ctl.phase.opens = false) →
      s.view.nextIds o c = s.view.ids → ReturnInv (s.view.exec o c) := by
    intro o hat hattempts hconnects hgive hids
    have hwithin := View.nextStage_within c s.view hconnects
    refine h.exec_frame c hat hattempts hgive ?_ hids (fun kind d => hwithin.opened.mpr)
      hwithin.opening?
    rintro bda addrType rfl
    cases hconnects
  cases o with
  | openCall site bda =>
    have hdrained : s.kbd.connectedSem = false ∧
        s.view.agenda.all (·.2 != .give .connected) = true := by
      simpa [serving] using hg
    refine restart ⟨_, View.exec_trace .., rfl, rfl, by simp⟩ h.entered (fun _ => ⟨hdrained.1, ?_⟩) ?_
    · intro p hgive
      have hne := List.all_eq_true.mp hdrained.2 _ hgive
      simp at hne
    · rw [View.exec_phase]
      cases site <;> exact fun hph => by cases hph
  | reconnectCall d =>
    have hphase : (s.view.exec (.reconnectCall d) c).ctl.phase = .reconnecting :=
      (View.exec_phase ..).trans (congrArg Ctl.phase hat)
    refine restart ⟨_, View.exec_trace .., rfl, rfl, by simp⟩ h.entered (fun hopens => ?_) ?_
    · rw [hphase] at hopens
      cases hopens
    · rw [hphase]
      exact fun hph => by cases hph
  | takeConnected =>
    obtain ⟨hph, hstage, -⟩ := hat
    exact h.takeConnected c hph hstage
  | setState st =>
    cases st with
    | connected => exact h.setConnectedState c (congrArg Ctl.phase hat)
    | _ => exact hlater _ hat rfl rfl (by simp) rfl
  | postOpen kind d => exact h.postOpen c hat.1
  | openReturns r =>
    have hphase : s.view.ctl.phase = .bonded ∨ s.view.ctl.phase = .connecting := by
      cases r <;> exact hat.2.2
    refine h.returns (View.exec_trace ..) (fun kind d hst => ?_) (View.exec_agenda _ _ _ (by simp))
      (fun hopens => ⟨hopens, id⟩) fun haccepted => ?_
    · cases r with
      | none =>
        rw [show s.view.ctl.stage = .none from hat.1] at hst
        cases hst
      | some d' =>
        rw [show s.view.ctl.stage = .opened .open d' from hat.1] at hst
        cases hst
        rfl
    · have haccepted' : s.view.ctl.phase = .accepted := haccepted
      rw [haccepted'] at hphase
      rcases hphase with hphase | hphase <;> cases hphase
  | reconnectReturns r =>
    have hphase : s.view.ctl.phase = .reconnecting := by
      cases r <;> exact hat.2.2
    have hphase' := View.exec_phase (.reconnectReturns r) c s.view
    refine h.returns (View.exec_trace ..) (fun kind d hst => ?_) (View.exec_agenda _ _ _ (by simp))
      (fun hopens => ?_) fun haccepted => ?_
    · cases r with
      | none =>
        obtain ⟨d', hst' | hst'⟩ := hat.1 <;>
        · rw [show s.view.ctl.stage = _ from hst'] at hst
          cases hst
      | some d' =>
        rw [show s.view.ctl.stage = .opened .reconnect d' from hat.1] at hst
        cases hst
        rfl
    · rw [hphase'] at hopens
      cases r with
      | none =>
        simp only [View.nextPhase, hphase] at hopens
        cases hopens
      | some d => cases hopens
    · cases r with
      | none =>
        rw [hphase', show s.view.nextPhase (.reconnectReturns none) = s.view.ctl.phase from rfl,
          hphase] at haccepted
        cases haccepted
      | some d => exact ⟨d, rfl⟩
  | give sem =>
    refine hlater _ hat rfl rfl (fun _ _ => ?_) rfl
    have hphase : s.view.ctl.phase = .accepted := congrArg Ctl.phase hat
    rw [hphase]
    rfl
  | devMalloc bda addrType =>
    have hcalled : s.view.ctl.stage = .called bda := hat.2.1
    refine h.exec_silent c hat rfl (by simp) (by simp [hcalled]) (fun d hd => ?_) fun d bda' hnoted => ?_
    · have hunlisted : d ∉ s.view.ids := by simpa [hcalled, Stage.opening?] using hd
      simp only [View.nextStage, View.nextIds]
      split
      · by_cases hnext : s.view.nextDev = d
        · exact .inl (by rw [hnext]; rfl)
        · exact .inr (by simp [hunlisted, Ne.symm hnext])
      · exact .inr hunlisted
    · obtain ⟨addrType', -, hrc, rfl⟩ := noted_added hnoted
      exact .inl (by simp [View.nextStage, hrc, Stage.opening?])
  | devFree d =>
    have hfailed : s.view.ctl.stage = .failed .open d := hat.1
    refine h.exec_silent c hat rfl (by simp) (by simp [hfailed]) (fun d' hd' => .inr ?_)
      fun d' bda hnoted => ?_
    · simp only [View.nextIds, List.mem_filter, bne_iff_ne, not_and]
      rw [hfailed] at hd'
      intro hmem
      rcases hd' with hopening | hunlisted
      · cases hopening
        simp
      · exact absurd hmem hunlisted
    · obtain ⟨addrType, ho, -⟩ := noted_added hnoted
      cases ho
  | gapConnect kind d =>
    have hbegun : s.view.ctl.stage = .begun kind d := hat.1
    refine h.exec_frame c hat rfl (by simp) (by simp) rfl (by simp [hbegun]) ?_
    simp only [View.nextStage]
    split
    · rfl
    · rw [hbegun]
      split <;> cases kind <;> rfl
  | readConnId kind d =>
    have hconnecting : s.view.ctl.stage = .connecting kind d := hat.1
    refine h.exec_frame c hat rfl (by simp) (by simp) rfl (by simp [hconnecting]) ?_
    simp only [View.nextStage]
    split
    · rfl
    · rw [hconnecting]
      split <;> cases kind <;> rfl
  | setConnected kind d =>
    obtain ⟨step, hlinked, -⟩ := hat.1
    have hlinked' : s.view.ctl.stage = .linked kind d step := hlinked
    refine h.exec_frame c hat rfl (by simp) (by simp) rfl (by simp [hlinked']) ?_
    rw [hlinked']
    cases kind <;> rfl
  | _ => exact hlater _ hat rfl rfl (by simp) rfl

theorem silent_of_beside (h : ∀ o ∈ l, o.beside = true) : Silent l ∧ ∀ d bda, .deviceAdded d bda ∉ l := by
  refine ⟨fun o ho => ?_, fun d bda hmem => ?_⟩
  · have hbeside := h o ho
    cases o with
    | openCall _ _ _ | reconnectCall _ | returned _ | state _ => cases hbeside
    | _ => exact ⟨rfl, by simp⟩
  · cases h _ hmem

/-- **An event keeps it.** -/
theorem effect {e : Event} (h : ReturnInv v) (hwork : View.WorkOf v) (heff : View.Effect e v v') :
    ReturnInv v' := by
  have hctl := heff.ctl
  have hframe : ∀ l, v'.trace = l ++ v.trace → (∀ o ∈ l, o.beside = true) →
      (∀ seq d, .posted ⟨seq, .open d 0⟩ ∉ l) → v'.ids = v.ids →
      ((v'.kbd.connectedSem = true ∨ ∃ p, (p, .give .connected) ∈ v'.agenda) →
        v.kbd.connectedSem = true ∨ ∃ p, (p, .give .connected) ∈ v.agenda) → ReturnInv v' := by
    intro l htrace hbeside hposted hids htoken
    obtain ⟨hsilent, hadded⟩ := silent_of_beside hbeside
    refine h.of_silent htrace hsilent hposted ?_ ?_ ?_ ?_ fun d bda hmem => absurd hmem (hadded d bda)
    · rw [hctl]
      exact fun _ _ => id
    · rw [hctl]
      exact fun hopens => ⟨hopens, htoken⟩
    · rw [hctl]
      exact .inl
    · rw [hctl, hids]
      exact fun _ => id
  by_cases he : e = .dispatch
  · subst he
    obtain ⟨-, l, htrace, hbeside, hposted, -⟩ := heff.handles
    have hids : v'.ids = v.ids := by rw [View.ids, hwork.keys heff, View.ids]
    refine hframe l htrace hbeside (fun _ _ => hposted _) hids ?_
    rcases heff.dispatch with ⟨p, step, rest, -, hagenda, hv'⟩ | ⟨hagenda, p, queue, rest, hv'⟩
    · have hkbd : v'.kbd = (v.stepExec step).kbd := by rw [hv', View.setHandling_kbd]
      rw [hkbd, hagenda]
      rintro (hsem | ⟨q, hgive⟩)
      · cases step with
        | give sem =>
          cases sem with
          | connected => exact .inr ⟨p, List.mem_cons_self⟩
          | disconnected | openDone => exact .inl hsem
        | take sem =>
          cases sem with
          | connected => cases hsem
          | disconnected | openDone => exact .inl hsem
        | setHidhDev _ | compare _ _ | emit _ | remember _ | free _ => exact .inl hsem
      · exact .inr ⟨q, List.mem_cons_of_mem _ hgive⟩
    · have hkbd : v'.kbd = v.kbd := by rw [hv', View.setHandling_kbd]
      rw [hkbd, hagenda]
      exact id
  · obtain ⟨l, event?, hlogs, hbeside, hcause⟩ := heff.logs he
    have hopen : ∀ d status, event? ≠ some (.open d status) := by
      rintro d status rfl
      rcases hcause _ rfl with hquiet | ⟨_, _, _, -, -, -, heq⟩
      · simpa [HidhEvent.linkUp?] using hquiet d
      · cases heq
    refine hframe l hlogs.trace hbeside (fun seq d hmem => ?_) (heff.ids he) ?_
    · obtain ⟨event, hsome, heq⟩ := Option.map_eq_some_iff.mp ((hlogs.posted _).mp hmem)
      cases heq
      exact hopen d 0 hsome
    · have hsame := congrFun (heff.kbd he).2 .connected
      refine Or.imp (fun hsem => hsame.symm.trans hsem) (Exists.imp fun p hgive => ?_)
      rw [hlogs.agenda] at hgive
      refine (List.mem_append.mp hgive).resolve_right fun hgive => ?_
      obtain ⟨q, hq, hgive⟩ := List.mem_flatMap.mp hgive
      obtain ⟨event, hsome, rfl⟩ := Option.map_eq_some_iff.mp (Option.mem_toList.mp hq)
      obtain ⟨step, hstep, heq⟩ := List.mem_map.mp hgive
      cases heq
      obtain ⟨d, rfl⟩ := event_of_give_connected hstep
      exact hopen d 0 hsome

end ReturnInv

/-! ## Runs -/

section Runs

variable {cfg : KbdConfig} {bonds : List (Bda × UInt8)} {c : HostConfig}

theorem reach_useReady (h : Reach host serving (boot cfg bonds) c) (hlive : c.state.fault = none)
    {o : Op} {k : Choice → Sys → Prog Label} (htask : c.task = .op o k) : UseReady o c.state := by
  have houtside : Carried Op.outside serving UseReady OpenInv :=
    carried_openInv.mono fun o ho => by
      cases o with
      | svcsDone => cases ho
      | _ => rfl
  have hwp := houtside.reach (triple_espHidhDevOpen houtside fun _ _ => discovery_usable)
    (.boot cfg bonds) h
  rw [htask] at hwp
  exact (hwp _ .refl (live_iff.mpr hlive)).1

theorem openInv (h : Reach host serving (boot cfg bonds) c) : OpenInv c.state := by
  refine Reach.invariant (fun o s => o.At s.ctl ∧ UseReady o s) (fun _ => True) OpenInv
    (fun c o k hreach hlive htask => ?_) (fun _ _ => trivial) (.boot cfg bonds) ?_ ?_ h
  · exact ⟨reach_op_at hreach (live_iff.mp hlive) htask,
      reach_useReady hreach (live_iff.mp hlive) htask⟩
  · exact fun o ch s _ hs _ hready hg hpre => hs.exec hready hg hpre.1 hpre.2
  · exact fun e s s' _ hs _ hg hstep => hs.event hg hstep

theorem returnInv (h : Reach host serving (boot cfg bonds) c) : ReturnInv c.state.view := by
  refine reach_keeps_of_known (J := fun s => View.WorkOf s.view) (I := fun s => ReturnInv s.view) h
    (fun _ => View.workOf) ?_ ?_ ?_
  · refine ⟨?_, ?_, ?_, ?_, obeys_nil⟩
    · rintro d ⟨seq, hmem⟩
      cases hmem
    · exact fun hopens => by cases hopens
    · exact fun haccepted => by cases haccepted
    · exact fun d bda hmem => by cases hmem
  · intro o ch s _ hinv _ _ hg hat
    rw [exec_view]
    exact hinv.exec hg hat
  · exact fun e s s' hwork hinv _ _ hstep => hinv.effect hwork (eventStep_view hstep)

theorem OpenInv.usable {s : Sys} (h : OpenInv s) {d : DevId}
    (hd : s.ctl.stage.finished? = some d) : Usable s d := by
  obtain ⟨⟨m, hm, hshows⟩, hcompleted⟩ := h.finished d hd
  obtain ⟨dev, hdev, rfl⟩ := Option.map_eq_some_iff.mp hm
  refine ⟨⟨dev, hdev, hshows.status, ?_, hshows.maps rfl, hshows.modes rfl⟩, hcompleted⟩
  refine UInt8.le_iff_toNat_le.mpr (Nat.one_le_iff_ne_zero.mpr fun hzero => ?_)
  exact hshows.len (UInt8.toNat_inj.mp hzero)

/-- **An open that succeeds has a device to use**, in every run in which the peer's services include a
HID service, no allocation of discovery fails, and an open starts without a token. -/
theorem opensUsable_of_serving (cfg : KbdConfig) (bonds : List (Bda × UInt8)) (c : HostConfig)
    (h : Reach host serving (boot cfg bonds) c) : OpensUsable c where
  posted d k htask hlive := by
    have hat := reach_op_at h hlive htask
    exact (openInv h).usable (by rw [hat.1]; rfl)
  returned d k htask hlive := by
    have hat := reach_op_at h hlive htask
    exact (openInv h).usable (by rw [hat.1]; rfl)
  removed k htask hlive d bda hmem := by
    have hat := reach_op_at h hlive htask
    have hstage : c.state.view.ctl.stage = .none := hat.1
    have hunlisted : d ∉ c.state.view.ids := by
      refine ((returnInv h).added d bda hmem).resolve_left fun hopening => ?_
      rw [hstage] at hopening
      cases hopening
    have hkey : c.state.view.key? d = none := by
      rw [← Option.not_isSome_iff_eq_none, ← View.mem_ids_iff]
      exact hunlisted
    rw [key?_view, Option.map_eq_none_iff] at hkey
    exact hkey
  entered := (returnInv h).entered

end Runs

/-- A keyboard is opened, and CONNECTED is entered. -/
theorem opensUsable_keyboard : ∃ c, host.run serving
    (scanRun 7 ++ selectRun ++ linkRun 7 ++ keyboardRun [1] ++ mains 4) (boot {} []) = some c ∧
      .returned (some 0) ∈ attempt c.state.trace ∧ c.state.kbd.state = .connected ∧ OpensUsable c := by
  obtain ⟨c, hrun, hconnected⟩ := exists_run serving
    (scanRun 7 ++ selectRun ++ linkRun 7 ++ keyboardRun [1] ++ mains 4) (boot {} [])
    (fun c => (attempt c.state.trace).contains (.returned (some 0)) &&
      c.state.kbd.state == .connected) (by decide +kernel)
  obtain ⟨hreturned, hstate⟩ := Bool.and_eq_true_iff.mp hconnected
  exact ⟨c, hrun, List.contains_iff_mem.mp hreturned, beq_iff_eq.mp hstate,
    opensUsable_of_serving {} [] c (Reach.of_run hrun)⟩

/-- The main task is about to post the open event of a device whose `status` still says that no HID
service was found. -/
def postsUnfound (c : HostConfig) : Bool :=
  match c.task with
  | .op (.postOpen .open d) _ =>
    c.state.fault.isNone && (c.state.dev? d).any fun dev => dev.status == -1
  | _ => false

/-- A device without services is opened all the same. -/
theorem not_opensUsable_empty : ∃ c, Reach host .free (boot {} []) c ∧ ¬OpensUsable c := by
  obtain ⟨c, hrun, hposts⟩ := exists_run .free
    (scanRun 7 ++ selectRun ++ linkRun 7 ++ mains 1 ++ answers [.done] ++ mains 8) (boot {} [])
    postsUnfound (by decide +kernel)
  refine ⟨c, .of_run hrun, fun hopens => ?_⟩
  unfold postsUnfound at hposts
  split at hposts
  · rename_i d k htask
    obtain ⟨hlive, hstatus⟩ := Bool.and_eq_true_iff.mp hposts
    obtain ⟨dev, hdev, hfound, -⟩ := (hopens.posted d k htask (Option.isNone_iff_eq_none.mp hlive)).device
    rw [hdev] at hstatus
    exact hfound (beq_iff_eq.mp hstatus)
  · cases hposts

end BleKbdHost.Host
