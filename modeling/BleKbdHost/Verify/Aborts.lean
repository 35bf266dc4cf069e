import BleKbdHost.Conc.Along
import BleKbdHost.Hid.Items
import BleKbdHost.Host.Records
import BleKbdHost.Verify.Waiters

/-!
# Discovery and the asserts of the transport

The asserts of `read_device_services` test `status`, which the terminal callback of a discovery
request has just set: any error the peer or a lost link answers with makes them fail. A refused
request is waited for all the same. As long as the requests are answered, the asserts hold, and a
call whose connection does not come about returns `NULL`.
-/

namespace BleKbdHost.Host

open Hid Keys Conc

/-! ## The property -/

/-- The call or the return of an open or a reconnect. -/
def Op.border : Op → Bool
  | .openCall _ _ | .openReturns _ | .reconnectCall _ | .reconnectReturns _ => true
  | _ => false

/-- What an open or a reconnect asks for and does not get: memory, a connection or an answer to a
GATT request. -/
def Op.fails (c : Choice) (s : Sys) : Op → Bool
  | .devMalloc _ _ | .mallocReportMaps _ | .mallocProtocolMode _ | .mallocReport | .discAllSvcs _
  | .discAllChrs _ _ _ | .discAllDscs _ _ _ | .readLong _ _ _ | .writeFlat _ _ _ => c.rc != 0
  | .gapConnect _ d => (s.dev? d).any fun dev => !connectAccepted c s dev.bda
  | .readConnId _ d => (s.dev? d).any fun dev => decide (dev.connId < 0)
  | _ => false

/-- A GATT request ends with an error status. -/
def Event.fails : Event → Bool
  | .gattCb _ (.error _) => true
  | _ => false

/-- A step of an open or a reconnect fails. -/
def Failing (m : Move Choice Event) (c : HostConfig) : Prop :=
  match m with
  | .main ch => ∃ o k, c.task = .op o k ∧ o.fails ch c.state = true
  | .env e => e.fails = true

/-- An admitted move that neither begins nor ends an open or a reconnect. -/
def InCall (g : Guard Op Choice Sys Event) (m : Move Choice Event) (c : HostConfig) : Prop :=
  g.admits m c = true ∧ ∀ ch o k, m = .main ch → c.task = .op o k → o.border = false

/-- An open or a reconnect is about to return `r`. -/
def AtReturn (c : HostConfig) (r : Option DevId) : Prop :=
  c.state.fault = none ∧
    ((∃ k, c.task = .op (.openReturns r) k) ∨ ∃ k, c.task = .op (.reconnectReturns r) k)

/-- No assert has failed, the call to which a failing step belongs returns `NULL`, and where it
waits for a callback there is one to come. -/
structure NeverAborts (g : Guard Op Choice Sys Event) (c : HostConfig) : Prop where
  asserts : c.state.fault ≠ some .assertFailed
  returnsNull : ∀ m c₁ c₂ r, g.admits m c = true → Failing m c → host.step m c = some c₁ →
    Along host (InCall g) c₁ c₂ → AtReturn c₂ r → r = none
  waits : WaiterServed g c

/-! ## The conditions -/

/-- No discovery request ends with an error status. -/
def discoveryAnswered : Guard Op Choice Sys Event where
  main _ _ _ := true
  env e s :=
    match e with
    | .gattCb i (.error _) => !(s.radio.gatt[i]?).any GattReq.discovers
    | _ => true

/-- Discovery has memory, no GATT request is refused or ends with an error status, and a long read
gets data before it ends. -/
def fulfilled : Guard Op Choice Sys Event where
  main o c _ :=
    match o with
    | .mallocReportMaps _ | .mallocProtocolMode _ | .mallocReport | .discAllSvcs _
    | .discAllChrs _ _ _ | .discAllDscs _ _ _ | .readLong _ _ _ | .writeFlat _ _ _ => c.rc == 0
    | _ => true
  env e s :=
    match e with
    | .gattCb _ (.error _) => false
    | .gattCb i .done =>
      match s.radio.gatt[i]? with
      | some (.read _ _) => s.nimble.readDataVal.isSome
      | _ => true
    | _ => true

/-! ## Faults -/

/-- The status is good, writes carry their own connection, and no assert has failed. -/
structure Asserted (s : Sys) : Prop where
  status : s.nimble.status = 0
  writes : ∀ conn handle value arg, .write conn handle value arg ∈ s.radio.gatt → arg = conn
  fault : s.fault ≠ some .assertFailed

theorem slot_error {α : Type} {arr : List (Option α)} {i : Nat} {f : Fault}
    (h : slot arr i = .error f) : f ≠ .assertFailed := by
  unfold slot at h
  split at h <;> cases h <;> decide

theorem DevField.write_error {dev : Dev} {field : DevField} {f : Fault}
    (h : field.write dev = .error f) : f ≠ .assertFailed := by
  cases field with
  | protocolMode _ _ | reportMap _ _ _ =>
    simp only [DevField.write] at h
    split at h
    · cases h
      decide
    · split at h <;> cases h
      decide
  | _ => cases h

theorem reportMap_error {s : Sys} {d : DevId} {i : Nat} {f : Fault}
    (h : s.reportMap d i = .error f) : f ≠ .assertFailed := by
  unfold Sys.reportMap at h
  split at h
  · cases h
    decide
  · split at h
    · cases h
      decide
    · exact slot_error h

theorem espHidParseReportMap_error {st : ParserStatics} {hidRm : List UInt8} {f : Fault}
    (h : espHidParseReportMap st hidRm = .error f) : f ≠ .assertFailed := by
  rw [espHidParseReportMap_eq rfl] at h
  split at h
  · unfold finishMap at h
    split at h <;> cases h
    decide
  · cases h

theorem absorb_fault {α : Type} {s : Sys} {r : Except Fault α} {f : α → Sys}
    (herror : ∀ fault, r = .error fault → fault ≠ .assertFailed)
    (hf : ∀ a, (f a).fault ≠ some .assertFailed) : (s.absorb r f).fault ≠ some .assertFailed := by
  cases r with
  | ok a => exact hf a
  | error fault => exact fun h => herror fault rfl (Option.some.inj h)

theorem setDev_fault {s : Sys} {d : DevId} {f : Dev → Dev} (h : s.fault ≠ some .assertFailed) :
    (s.setDev d f).fault ≠ some .assertFailed := by
  simp only [Sys.setDev]
  split
  · exact h
  · decide

theorem freeBufs_fault {s : Sys} {bufs : List Buf} (h : s.fault ≠ some .assertFailed) :
    (s.freeBufs bufs).fault ≠ some .assertFailed := by
  simp only [Sys.freeBufs]
  split
  · decide
  · exact h

/-- **Of the operations only `assertStatus` can fail an assert.** -/
theorem exec_fault {s : Sys} (o : Op) (c : Choice) (h : Asserted s) :
    (o.exec c s).fault ≠ some .assertFailed := by
  cases o with
  | assertStatus => rw [Op.exec, if_pos h.status]; exact h.fault
  | readDev _ =>
    simp only [Op.exec]
    split
    · exact h.fault
    · simp
  | readConnId _ _ | gapConnect _ _ =>
    simp only [Op.exec]
    split
    · simp
    · first
      | exact h.fault
      | split <;> exact h.fault
  | awaitDisconnect _ _ | peekCmd _ | emitKey _ | gapDisc | devMalloc _ _ | reconnectReturns _ =>
    simp only [Op.exec]
    split <;> exact h.fault
  | installCallbacks _ => exact setDev_fault h.fault
  | setConnected _ d =>
    have hset : (s.setDev d fun dev => { dev with connected := true }).fault ≠ some .assertFailed :=
      setDev_fault h.fault
    exact hset
  | mallocReportMaps _ | mallocProtocolMode _ =>
    simp only [Op.exec]
    split
    · exact setDev_fault h.fault
    · exact h.fault
  | devFree _ => exact freeBufs_fault h.fault
  | readSvc _ | readChr _ | readDefHandle _ | readDsc _ =>
    exact absorb_fault (fun _ => slot_error) fun _ => h.fault
  | readReportMap _ _ => exact absorb_fault (fun _ => reportMap_error) fun _ => h.fault
  | setField d field =>
    simp only [Op.exec]
    split
    · simp
    · exact absorb_fault (fun _ => DevField.write_error) fun _ => setDev_fault h.fault
  | freeBuf buf =>
    cases buf with
    | none => exact h.fault
    | some _ => exact freeBufs_fault h.fault
  | parseReportMap data =>
    cases data with
    | none => simp [Op.exec]
    | some buf =>
      simp only [Op.exec]
      split
      · simp
      · exact absorb_fault (fun _ => espHidParseReportMap_error) fun _ => h.fault
  | _ => exact h.fault

/-- The operations leave the status alone. -/
theorem exec_status (o : Op) (c : Choice) (s : Sys) :
    (o.exec c s).nimble.status = s.nimble.status := by
  have habsorb : ∀ {α : Type} (r : Except Fault α) (f : α → Sys),
      (∀ a, (f a).nimble.status = s.nimble.status) →
      (s.absorb r f).nimble.status = s.nimble.status := by
    intro α r f hf
    cases r with
    | ok a => exact hf a
    | error _ => rfl
  cases o with
  | awaitDisconnect _ _ | peekCmd _ | emitKey _ | gapDisc | devMalloc _ _ | reconnectReturns _
  | assertStatus | mallocReportMaps _ | mallocProtocolMode _ | readConnId _ _ =>
    simp only [Op.exec]
    split <;> rfl
  | gapConnect _ _ =>
    simp only [Op.exec]
    split
    · rfl
    · split <;> rfl
  | readSvc _ | readChr _ | readDefHandle _ | readDsc _ | readReportMap _ _ =>
    exact habsorb _ _ fun _ => rfl
  | setField d field =>
    simp only [Op.exec]
    split
    · rfl
    · exact habsorb _ _ fun _ => rfl
  | freeBuf buf => cases buf <;> rfl
  | parseReportMap data =>
    cases data with
    | none => rfl
    | some buf =>
      simp only [Op.exec]
      split
      · rfl
      · exact habsorb _ _ fun _ => rfl
  | _ => rfl

theorem Asserted.exec {s : Sys} (h : Asserted s) (o : Op) (c : Choice) : Asserted (o.exec c s) :=
  ⟨(exec_status o c s).trans h.status, exec_writes h.writes, exec_fault o c h⟩

/-! ## Events -/

theorem Asserted.setDev {s : Sys} {d : DevId} {f : Dev → Dev} (h : Asserted s) :
    Asserted (s.setDev d f) :=
  ⟨h.status, h.writes, setDev_fault h.fault⟩

theorem Asserted.svcDisced {s : Sys} {conn : UInt16} {svc : GattSvc} (h : Asserted s) :
    Asserted (svcDisced s conn svc) := by
  refine Sys.store_of ⟨h.status, h.writes, by simp⟩ fun arr => ?_
  simp only
  split
  · exact ⟨rfl, h.writes, h.fault⟩
  · split
    · exact Asserted.setDev ⟨rfl, h.writes, h.fault⟩
    · exact ⟨rfl, h.writes, h.fault⟩

/-- The end of a request. -/
theorem Asserted.endRequest {s : Sys} (h : Asserted s) (i : Nat) : Asserted (s.endRequest i) :=
  ⟨h.status, fun conn handle value arg hmem =>
    h.writes conn handle value arg (List.mem_of_mem_eraseIdx hmem), h.fault⟩

/-- **A GATT callback keeps the asserts good**, unless it ends discovery with an error. -/
theorem Asserted.gattCb {s s' : Sys} {i : Nat} {rsp : GattRsp} (h : Asserted s)
    (hg : discoveryAnswered.env (.gattCb i rsp) s = true) (hstep : gattCb s i rsp = some s') :
    Asserted s' := by
  cases gattCb_cases hstep with
  | svc svc _ => exact h.svcDisced
  | chr _ _ | dsc _ _ =>
    exact Sys.store_of ⟨h.status, h.writes, by simp⟩ fun _ => ⟨rfl, h.writes, h.fault⟩
  | found _ _ => exact ⟨rfl, (h.endRequest i).writes, h.fault⟩
  | lost hreq hdisc _ => simp [discoveryAnswered, hreq, hdisc] at hg
  | data bytes _ =>
    simp only [onReadData]
    split
    · exact ⟨h.status, h.writes, by simp⟩
    · exact ⟨h.status, h.writes, h.fault⟩
  | read _ =>
    have hend := h.endRequest i
    unfold onReadDone
    split
    · exact ⟨hend.status, hend.writes, hend.fault⟩
    · exact ⟨hend.status, hend.writes, by simp⟩
  | unread _ _ =>
    have hend := h.endRequest i
    exact ⟨hend.status, hend.writes, hend.fault⟩
  | @written conn handle value arg _ hreq _ =>
    have hend := h.endRequest i
    have harg := h.writes conn handle value arg (List.mem_of_getElem? hreq)
    rw [onWrite, if_pos harg]
    exact ⟨hend.status, hend.writes, hend.fault⟩

theorem notifyEvent_error {dev : Dev} {attr : UInt16} {data : List UInt8} {f : Fault}
    (h : notifyEvent dev attr data = .error f) : f ≠ .assertFailed := by
  unfold notifyEvent at h
  split at h
  · cases h
  · split at h
    · cases h
    · split at h
      · cases h
        decide
      · split at h
        · cases h
          decide
        · split at h <;> cases h

theorem dispatch_fault {s s' : Sys} (h : s.fault ≠ some .assertFailed)
    (hstep : dispatch s = some s') : s'.fault ≠ some .assertFailed := by
  unfold dispatch at hstep
  split at hstep
  · rename_i p step steps hsome
    cases hstep
    rw [handling_fault]
    cases step with
    | free d => exact freeBufs_fault h
    | _ => exact h
  · cases hstep
    rwa [handling_fault]
  · split at hstep <;> cases hstep
    rwa [handling_fault]

/-- The other events do not assert anything about requests. -/
theorem eventStep_fault {e : Event} {s s' : Sys} (h : s.fault ≠ some .assertFailed)
    (he : ∀ i rsp, e ≠ .gattCb i rsp) (hstep : eventStep e s = some s') :
    s'.fault ≠ some .assertFailed := by
  cases e with
  | gattCb i rsp => exact absurd rfl (he i rsp)
  | connected handle ota identity =>
    simp only [eventStep, gapConnected] at hstep
    split at hstep
    · cases hstep
    · split at hstep <;> cases hstep
      simp only [connectEvent]
      split
      · exact h
      · exact setDev_fault (f := fun dev => { dev with status := -1, connId := (handle.toNat : Int) }) h
  | connectFailed status =>
    simp only [eventStep, gapConnectFailed, Option.ite_none_right_eq_some, Option.some.injEq] at hstep
    obtain ⟨-, rfl⟩ := hstep
    exact h
  | disconnected handle reason =>
    simp only [eventStep, gapDisconnected] at hstep
    split at hstep
    · cases hstep
    · split at hstep <;> cases hstep
      simp only [disconnectEvent]
      split
      · exact h
      · split
        · exact setDev_fault
            (f := fun dev => { dev with connected := false, status := reason, connId := -1 }) h
        · exact setDev_fault h
  | advertised report =>
    simp only [eventStep, Option.ite_none_right_eq_some, Option.some.injEq] at hstep
    obtain ⟨-, rfl⟩ := hstep
    exact h
  | encChange handle status =>
    simp only [eventStep, gapEncChange, Option.ite_none_right_eq_some, Option.some.injEq] at hstep
    obtain ⟨-, rfl⟩ := hstep
    exact h
  | repeatPairing handle =>
    simp only [eventStep, gapRepeatPairing] at hstep
    split at hstep <;> cases hstep
    exact h
  | notifyRx handle attr data mem =>
    obtain rfl | ⟨fault, dev, hnotify, rfl⟩ | ⟨_, _, -, -, -, -, rfl⟩ := gapNotifyRx_cases hstep
    · exact h
    · exact fun hfault => notifyEvent_error hnotify (Option.some.inj hfault)
    · exact h
  | mtuExchanged handle =>
    simp only [eventStep, gapMtuExchanged, Option.ite_none_right_eq_some, Option.some.injEq] at hstep
    obtain ⟨-, rfl⟩ := hstep
    exact h
  | dispatch => exact dispatch_fault h hstep
  | tick _ | startPairing | selectDevice _ | bonded _ _ =>
    cases hstep
    exact h

/-- **An admitted event keeps the asserts good.** -/
theorem Asserted.event {e : Event} {s s' : Sys} (h : Asserted s)
    (hg : discoveryAnswered.env e s = true) (hstep : eventStep e s = some s') : Asserted s' := by
  by_cases he : ∃ i rsp, e = .gattCb i rsp
  · obtain ⟨i, rsp, rfl⟩ := he
    exact h.gattCb hg hstep
  have he' : ∀ i rsp, e ≠ .gattCb i rsp := fun i rsp heq => he ⟨i, rsp, heq⟩
  have hcore : s'.nimble.core.status = s.nimble.core.status := by rw [(eventStep_core hstep he').1]
  have hgatt : s'.waits.gatt = s.waits.gatt := by
    have hwaits := eventStep_waits hstep
    generalize s'.waits = w at hwaits
    cases hwaits with
    | gattCb i rsp _ _ => exact absurd rfl (he' i rsp)
    | connection _ | other _ => rfl
  refine ⟨hcore.trans h.status, fun conn handle value arg hmem => ?_, eventStep_fault h.fault he' hstep⟩
  have hmem' : .write conn handle value arg ∈ s'.waits.gatt := hmem
  rw [hgatt] at hmem'
  exact h.writes conn handle value arg hmem'

variable {cfg : KbdConfig} {bonds : List (Bda × UInt8)} {c : HostConfig}

/-- **No assert fails as long as no discovery request ends with an error status.** -/
theorem asserted (h : Reach host discoveryAnswered (boot cfg bonds) c) : Asserted c.state :=
  reach_keeps h ⟨rfl, (fun _ _ _ _ hmem => by cases hmem), (by simp [boot])⟩
    (fun o ch _ hinv _ _ _ _ => hinv.exec o ch) fun _ _ _ hinv _ hg hstep => hinv.event hg hstep

/-! ## After a failing step -/

/-- A call that goes on from here can only return `NULL`. -/
def Stage.lost : Stage → Bool
  | .none | .failed _ _ => true
  | _ => false

theorem Stage.lost.advance {st : Stage} {step : LinkStep} (h : st.lost = true) :
    st.advance step = st := by
  cases st with
  | none | failed _ _ => rfl
  | _ => cases h

/-- **Within the call, the operations leave it so.** -/
theorem lost_exec {s : Sys} {o : Op} {c : Choice} (h : s.ctl.stage.lost = true)
    (hborder : o.border = false) (hat : o.At s.ctl) : (o.exec c s).ctl.stage.lost = true := by
  have hstage : (o.exec c s).ctl.stage = s.view.nextStage o c := by
    rw [exec_ctl, View.exec_stage]
  have hadvance : ∀ step, s.view.ctl.stage.advance step = s.view.ctl.stage :=
    fun step => Stage.lost.advance h
  rw [hstage]
  cases o with
  | openCall _ _ | reconnectCall _ | openReturns _ | reconnectReturns _ => cases hborder
  | devMalloc _ _ => rw [hat.2.1] at h; cases h
  | gapConnect _ _ | readConnId _ _ | postOpen _ _ => rw [hat.1] at h; cases h
  | setConnected _ _ =>
    obtain ⟨step, hlinked, -⟩ := hat.1
    rw [hlinked] at h
    cases h
  | devFree _ => rfl
  | securityInitiate _ | discAllSvcs _ | mallocReportMaps _ | mallocProtocolMode _ | mallocReport =>
    simp only [View.nextStage, hadvance, ite_self]
    exact h
  | takeSec _ _ _ | svcsDone =>
    simp only [View.nextStage, hadvance]
    exact h
  | _ => exact h

variable {g : Guard Op Choice Sys Event} {c₁ c₂ : HostConfig} {m : Move Choice Event}

/-- From there on the call returns `NULL`. -/
theorem returnsNull_of_lost {r : Option DevId} (hreach : Reach host .free (boot cfg bonds) c₁)
    (hlost : c₁.state.ctl.stage.lost = true) (h : Along host (InCall g) c₁ c₂)
    (hreturn : AtReturn c₂ r) : r = none := by
  have hlost' : c₂.state.ctl.stage.lost = true := by
    refine h.invariant (J := fun c => Reach host .free (boot cfg bonds) c)
      (P := fun c => c.state.ctl.stage.lost = true) (fun _ => hreach.trans_along) hlost ?_
    intro m c c' hreach hlost hm hstep
    rcases m with ch | e
    · rcases System.step_main_cases hstep with ⟨l, -, -, rfl⟩ | ⟨o, k, htask, hlive, -, rfl⟩
      · exact hlost
      · exact lost_exec hlost (hm.2 ch o k rfl htask) (reach_op_at hreach (live_iff.mp hlive) htask)
    · obtain ⟨-, -, henv⟩ := System.step_env_cases hstep
      rw [eventStep_ctl henv]
      exact hlost
  obtain ⟨hlive, hreturn⟩ := hreturn
  have hat := hreach.trans_along h
  cases r with
  | none => rfl
  | some d =>
    rcases hreturn with ⟨k, htask⟩ | ⟨k, htask⟩
    · rw [(reach_op_at hat hlive htask).1] at hlost'
      cases hlost'
    · rw [(reach_op_at hat hlive htask).1] at hlost'
      cases hlost'

/-- **Where requests are answered, what fails is the connection.** -/
theorem lost_of_failing (h : Reach host .free (boot cfg bonds) c₁)
    (hg : fulfilled.admits m c₁ = true) (hfails : Failing m c₁) (hstep : host.step m c₁ = some c₂) :
    c₂.state.ctl.stage.lost = true := by
  rcases m with ch | e
  · obtain ⟨o, k, htask, hfails⟩ := hfails
    rcases c₁ with ⟨t, s⟩
    cases htask
    rcases System.step_main_cases hstep with ⟨l, htask, -⟩ | ⟨o', k', htask, -, -, rfl⟩
    · cases htask
    cases htask
    have hstage : (o.exec ch s).ctl.stage = s.view.nextStage o ch := by rw [exec_ctl, View.exec_stage]
    change (o.exec ch s).ctl.stage.lost = true
    rw [hstage]
    have hg' : fulfilled.main o ch s = true := hg
    cases o with
    | devMalloc _ _ =>
      simp only [View.nextStage, if_neg (bne_iff_ne.mp hfails)]
      rfl
    | gapConnect kind d =>
      obtain ⟨dev, hdev, hrefused⟩ := (Option.any_eq_true _ _).mp hfails
      have hrefused' : connectAccepted ch s dev.bda = false := by simpa using hrefused
      simp [View.nextStage, key?_view, hdev, Dev.key, accepts_view, hrefused', Stage.lost]
    | readConnId kind d =>
      obtain ⟨dev, hdev, hnone⟩ := (Option.any_eq_true _ _).mp hfails
      have hnone' : ¬0 ≤ dev.connId := by simpa using hnone
      simp [View.nextStage, key?_view, hdev, Dev.key, hnone', Stage.lost]
    | mallocReportMaps _ | mallocProtocolMode _ | mallocReport | discAllSvcs _ | discAllChrs _ _ _
    | discAllDscs _ _ _ | readLong _ _ _ | writeFlat _ _ _ =>
      exact absurd (beq_iff_eq.mp hg') (bne_iff_ne.mp hfails)
    | _ => cases hfails
  · have hg' : fulfilled.env e c₁.state = true := hg
    cases e with
    | gattCb i rsp =>
      cases rsp with
      | error _ => cases hg'
      | _ => cases hfails
    | _ => cases hfails

/-! ## The result -/

theorem discoveryAnswered_of_fulfilled (e : Event) (s : Sys) (h : fulfilled.env e s = true) :
    discoveryAnswered.env e s = true := by
  cases e with
  | gattCb i rsp =>
    cases rsp with
    | error _ => cases h
    | _ => rfl
  | _ => rfl

theorem answered_of_fulfilled (o : Op) (ch : Choice) (s : Sys) (h : fulfilled.main o ch s = true) :
    answered.main o ch s = true := by
  cases o with
  | discAllSvcs _ | discAllChrs _ _ _ | discAllDscs _ _ _ | writeFlat _ _ _ => exact h
  | _ => rfl

theorem answered_env_of_fulfilled (e : Event) (s : Sys) (h : fulfilled.env e s = true) :
    answered.env e s = true := by
  cases e with
  | gattCb i rsp =>
    simp only [answered]
    cases rsp with
    | error _ => cases h
    | done =>
      simp only [fulfilled] at h
      cases hreq : s.radio.gatt[i]? with
      | none => rfl
      | some req =>
        rw [hreq] at h
        cases req with
        | read _ _ => exact h
        | _ => rfl
    | _ => split <;> first | rfl | simp_all
  | _ => rfl

/-- **Discovery never aborts**, as long as no discovery request ends with an error status. Where no
GATT request is refused or ends with one and discovery has memory, a step that fails makes its call
return `NULL`, and no call waits for nothing. -/
theorem neverAborts :
    (Reach host discoveryAnswered (boot cfg bonds) c → c.state.fault ≠ some .assertFailed) ∧
      (Reach host fulfilled (boot cfg bonds) c → NeverAborts fulfilled c) := by
  refine ⟨fun h => (asserted h).fault, fun h => ⟨?_, ?_, ?_⟩⟩
  · exact (asserted (h.mono (fun _ _ _ _ => rfl) discoveryAnswered_of_fulfilled)).fault
  · intro m c₁ c₂ r hg hfails hstep hrun hreturn
    have hadm : Guard.admits .free m c = true := by
      rcases m with ch | e
      · rcases c with ⟨_ | _, _⟩ <;> rfl
      · rfl
    have hlost := lost_of_failing h.free hg hfails hstep
    exact returnsNull_of_lost (h.free.step hadm hstep) hlost hrun hreturn
  · exact (waiterServed_of_answered (h.mono answered_of_fulfilled answered_env_of_fulfilled)).mono
      answered_env_of_fulfilled

/-! ## Runs -/

/-- A keyboard is discovered and opened, its link drops, and the connection of the reconnect fails:
the kbd task is about to look at it. -/
def unconnectedRun : List (Move Choice Event) :=
  scanRun 7 ++ selectRun ++ linkRun 7 ++ keyboardRun [1] ++ mains 4 ++
  [.env (.bonded 7 0), .env (.disconnected 5 0)] ++ List.replicate 3 (.env .dispatch) ++ mains 9 ++
  [.env (.tick 100)] ++ mains 19 ++ [.env (.connectFailed 13)] ++ mains 1

/-- The kbd task is about to look at a connection that does not exist. -/
def unconnected (c : HostConfig) : Bool :=
  match c.task with
  | .op o _ => o.fails {} c.state
  | .ret _ => false

/-- The device has a report, and the next step fails: its call will return `NULL`. -/
theorem neverAborts_unconnected : ∃ c, Reach host fulfilled (boot {} []) c ∧
    (c.state.hidh.devices.all fun dev => dev.reports.length == 1) = true ∧ Failing (.main {}) c ∧
    c.state.fault ≠ some .assertFailed ∧ NeverAborts fulfilled c := by
  obtain ⟨c, hrun, hstate⟩ := exists_run fulfilled unconnectedRun (boot {} []) (fun c =>
    c.state.hidh.devices.all (fun dev => dev.reports.length == 1) && unconnected c)
    (by decide +kernel)
  obtain ⟨hdevices, hfails⟩ := Bool.and_eq_true_iff.mp hstate
  have hreach : Reach host fulfilled (boot {} []) c := .of_run hrun
  refine ⟨c, hreach, hdevices, ?_, neverAborts.1 (hreach.mono (fun _ _ _ _ => rfl)
    discoveryAnswered_of_fulfilled), neverAborts.2 hreach⟩
  unfold unconnected at hfails
  split at hfails
  · exact ⟨_, _, ‹_›, hfails⟩
  · cases hfails

/-- The link is lost while the services are discovered: the request ends with an error status, and
the assert behind it fails. -/
theorem not_neverAborts_lost : ∃ c, Reach host .free (boot {} []) c ∧ ¬NeverAborts .free c := by
  let run := scanRun 7 ++ selectRun ++ linkRun 7 ++ mains 1 ++
    [.env (.disconnected 5 8), .env (.gattCb 0 (.error 7))] ++ mains 2
  obtain ⟨c, hrun, hfault⟩ := exists_run .free run (boot {} [])
    (fun c => c.state.fault == some .assertFailed) (by decide +kernel)
  exact ⟨c, .of_run hrun, fun h => h.asserts (beq_iff_eq.mp hfault)⟩

end BleKbdHost.Host
