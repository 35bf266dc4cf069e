import BleKbdHost.Host.Placement

/-!
# What a step leaves alone

For each part of the view, which operations and events change it and how. The claims about runs use
these facts instead of going through all operations again. The event task is seen as one list of
steps that are still to be done, its agenda.
-/

namespace BleKbdHost.Host

open Hid Keys Conc

namespace View

/-! ## Operations -/

/-- What an operation adds to the trace. -/
def noted (o : Op) (c : Choice) (v : View) : Option Obs :=
  match o with
  | .takeConnected => some (.decided v.kbd.connectedSem)
  | .receiveCmd _ _ => v.kbd.cmdQueue.items.head?.map KbdCmd.obs
  | .setState st => some (.state st)
  | .onStatus st line1 line2 => if v.kbd.cfg.onStatus then some (.status st line1 line2) else none
  | .emitKey ch => if v.kbd.cfg.onKey then some (.key ch) else none
  | .onScanUpdated devs => if v.kbd.cfg.onScanUpdated then some (.scanUpdated devs) else none
  | .clearPrevKeys => some .prevKeysCleared
  | .storeClear => some .storeClear
  | .resetScan => some .scanReset
  | .openCall site bda => some (.openCall site bda (v.byBda bda).isSome)
  | .reconnectCall d => some (.reconnectCall d)
  | .devMalloc bda _ => if c.rc = 0 then some (.deviceAdded v.nextDev bda) else none
  | .devFree d => if (v.key? d).isSome then some (.deviceFreed d) else none
  | .securityInitiate d => if c.rc = 0 then none else some (.secured d true)
  | .takeSec d _ _ => some (.secured d false)
  | .gapTerminate d => some (.terminate d (c.rc == 0))
  | .postOpen _ d => some (.posted ⟨v.nextSeq, .open d 0⟩)
  | .openReturns r | .reconnectReturns r => some (.returned r)
  | _ => none

theorem exec_trace (o : Op) (c : Choice) (v : View) :
    (v.exec o c).trace = (v.noted o c).toList ++ v.trace := by
  cases o with
  | awaitDisconnect _ _ | peekCmd _ | emitKey _ | devMalloc _ _ | reconnectReturns _ =>
    simp only [exec, noted]
    split <;> rfl
  | onStatus _ _ _ | onScanUpdated _ | securityInitiate _ =>
    simp only [exec, noted, setPhase, setStage]
    split <;> rfl
  | devFree d =>
    simp only [exec, noted, free, setStage]
    split <;> rfl
  | gapConnect kind d =>
    simp only [exec, noted]
    split
    · rfl
    · split <;> rfl
  | readConnId kind d =>
    simp only [exec, noted]
    split <;> rfl
  | _ => rfl

end View

/-- Which operation can have recorded it. -/
def Obs.NotedBy (o : Op) (v : View) : Obs → Prop
  | .decided ok => o = .takeConnected ∧ v.kbd.connectedSem = ok
  | .repair => (∃ since ticks, o = .receiveCmd since ticks) ∧
      v.kbd.cmdQueue.items.head? = some .startPairing
  | .selection param => (∃ since ticks, o = .receiveCmd since ticks) ∧
      v.kbd.cmdQueue.items.head? = some (.selectDevice param)
  | .storeClear => o = .storeClear
  | .scanReset => o = .resetScan
  | .prevKeysCleared => o = .clearPrevKeys
  | .state st => o = .setState st
  | .status st line1 line2 => o = .onStatus st line1 line2
  | .scanUpdated devs => o = .onScanUpdated devs
  | .openCall site bda _ => o = .openCall site bda
  | .reconnectCall d => o = .reconnectCall d
  | .returned r => o = .openReturns r ∨ o = .reconnectReturns r
  | .terminate d _ => o = .gapTerminate d
  | .secured d refused => if refused then o = .securityInitiate d else
      ∃ since ticks, o = .takeSec d since ticks
  | .posted p => ∃ kind d, o = .postOpen kind d ∧ p = ⟨v.nextSeq, .open d 0⟩
  | .startPairing _ | .selectDevice _ _ | .advertised _ | .linkUp _ _ | .linkDown _
  | .encChange _ _ | .compared _ _ | .handled _ => False
  | _ => True

namespace View

theorem noted_origin {o : Op} {c : Choice} {v : View} {obs : Obs} (h : v.noted o c = some obs) :
    obs.NotedBy o v := by
  cases o <;>
    simp only [noted, Option.ite_none_right_eq_some, Option.ite_none_left_eq_some, Option.some.injEq,
      Option.map_eq_some_iff, reduceCtorEq] at h
  case receiveCmd since ticks =>
    obtain ⟨cmd, hhead, rfl⟩ := h
    cases cmd with
    | startPairing => exact ⟨⟨since, ticks, rfl⟩, hhead⟩
    | selectDevice param => exact ⟨⟨since, ticks, rfl⟩, hhead⟩
  case emitKey | devMalloc | devFree =>
    obtain ⟨-, rfl⟩ := h
    trivial
  case onStatus | onScanUpdated | securityInitiate =>
    obtain ⟨-, rfl⟩ := h
    exact rfl
  case takeSec d since ticks =>
    subst h
    exact ⟨since, ticks, rfl⟩
  case takeConnected =>
    subst h
    exact ⟨rfl, rfl⟩
  case openReturns =>
    subst h
    exact .inl rfl
  case reconnectReturns =>
    subst h
    exact .inr rfl
  case postOpen kind d =>
    subst h
    exact ⟨kind, d, rfl, rfl⟩
  all_goals
    subst h
    exact rfl

/-- Only `xQueueReceive` takes from the command queue. -/
theorem exec_cmdQueue (o : Op) (c : Choice) (v : View) :
    (v.exec o c).kbd.cmdQueue =
      match o with
      | .receiveCmd _ _ => v.kbd.cmdQueue.tail
      | _ => v.kbd.cmdQueue := by
  cases o with
  | awaitDisconnect _ _ | peekCmd _ | emitKey _ | devMalloc _ _ | reconnectReturns _ =>
    simp only [exec]
    split <;> rfl
  | gapConnect kind d =>
    simp only [exec]
    split
    · rfl
    · split <;> rfl
  | readConnId kind d =>
    simp only [exec]
    split <;> rfl
  | _ => rfl

/-- A semaphore after an operation. -/
def nextSem (o : Op) (v : View) (sem : Sem) : Bool :=
  match o with
  | .take taken _ _ => v.kbd.sem sem && decide (sem ≠ taken)
  | .give given => v.kbd.sem sem || decide (sem = given)
  | .takeConnected => v.kbd.sem sem && decide (sem ≠ .connected)
  | .awaitDisconnect _ _ | .awaitClosed _ _ => v.kbd.sem sem && decide (sem ≠ .disconnected)
  | _ => v.kbd.sem sem

theorem exec_sem (o : Op) (c : Choice) (v : View) (sem : Sem) :
    (v.exec o c).kbd.sem sem = v.nextSem o sem := by
  cases o with
  | take moved _ _ | give moved => cases moved <;> cases sem <;> simp [exec, nextSem, Kbd.sem]
  | takeConnected | awaitClosed _ _ => cases sem <;> simp [exec, nextSem, Kbd.sem]
  | awaitDisconnect _ _ =>
    simp only [exec, nextSem]
    split <;> cases sem <;> simp [Kbd.sem]
  | peekCmd _ | emitKey _ | devMalloc _ _ | reconnectReturns _ =>
    simp only [exec]
    split <;> cases sem <;> rfl
  | gapConnect kind d =>
    simp only [exec]
    split
    · cases sem <;> rfl
    · split <;> cases sem <;> rfl
  | readConnId kind d =>
    simp only [exec]
    split <;> cases sem <;> rfl
  | _ => cases sem <;> rfl

/-- The phase that an operation leads to. -/
def nextPhase (o : Op) (v : View) : Phase :=
  match o with
  | .take sem _ _ =>
    if sem = .openDone ∧ v.kbd.openDoneSem = true then v.ctl.phase.answer else v.ctl.phase
  | .beforeDeadline site deadline => if v.ticks < deadline then v.ctl.phase else .expired site
  | .takeConnected => if v.kbd.connectedSem then .accepted else v.ctl.phase.refuse
  | .awaitDisconnect _ _ => if v.kbd.disconnectedSem then .dropped else v.ctl.phase
  | .readHidhDev => .closing ((v.kbd.hidhDev.map .found).getD .done)
  | .closeCall d => if (v.key? d).isSome then v.ctl.phase else .closing .asked
  | .gapTerminate _ => .closing .asked
  | .awaitClosed _ _ => .closing .done
  | .receiveCmd _ _ => v.ctl.phase.receive v.kbd.cmdQueue.items.head?
  | .peekCmd site =>
    if v.kbd.cmdQueue.items.head? = some .startPairing then .repairing site else v.ctl.phase
  | .setState st => v.ctl.phase.announce st
  | .onStatus _ _ _ => v.ctl.phase.announced
  | .copyScan => .copied v.kbd.scanDevs.devs
  | .onScanUpdated _ => .scanning
  | .checkSelection param =>
    if v.kbd.validSelection param then .picked param.toNat else .scanning
  | .copySelected index => .chosen (v.kbd.scanDev index).addr
  | .storeClear => v.ctl.phase.clearBonds
  | .clearHidhDev => .pairing .forgotten
  | .resetScan => v.ctl.phase.clearScan
  | .attemptFailed => .reconnecting
  | .openCall site _ => site.phase
  | .reconnectReturns r => if r.isSome then .accepted else v.ctl.phase
  | _ => v.ctl.phase

theorem exec_phase (o : Op) (c : Choice) (v : View) : (v.exec o c).ctl.phase = v.nextPhase o := by
  cases o with
  | awaitDisconnect _ _ | peekCmd _ | emitKey _ | devMalloc _ _ | reconnectReturns _ =>
    simp only [exec, nextPhase]
    split <;> rfl
  | gapConnect kind d =>
    simp only [exec]
    split
    · rfl
    · split <;> rfl
  | readConnId kind d =>
    simp only [exec]
    split <;> rfl
  | _ => rfl

/-- How the main task moves between its phases. -/
inductive PhaseStep (v : View) : Op → Phase → Phase → Prop
  | stays {o : Op} (q : Phase) : PhaseStep v o q q
  | setReconnecting {q : Phase} (h : q = .start ∨ q = .reconnecting ∨ q = .dropped) :
    PhaseStep v (.setState .reconnecting) q (.announcing .reconnecting)
  | setScanning : PhaseStep v (.setState .scanning) (.pairing .emptied) (.announcing .scanning)
  | setConnecting (addr : Bda) :
    PhaseStep v (.setState .connecting) (.chosen addr) (.announcing (.selected addr))
  | setConnected : PhaseStep v (.setState .connected) .accepted (.announcing .connected)
  | announced {st : KbdState} {line1 line2 : Line} (next : Phase)
    (h : (Phase.announcing next).shows = some st) :
    PhaseStep v (.onStatus st line1 line2) (.announcing next) next
  | requested {since ticks : UInt32} (h : v.kbd.cmdQueue.items.head? = some .startPairing) :
    PhaseStep v (.receiveCmd since ticks) .reconnecting .requested
  | bonded (bda : Bda) : PhaseStep v (.openCall .bonded bda) .reconnecting .bonded
  | reconnected (d : DevId) : PhaseStep v (.reconnectReturns (some d)) .reconnecting .accepted
  | answered {since ticks : UInt32} (site : OpenSite) (h : v.kbd.openDoneSem = true) :
    PhaseStep v (.take .openDone since ticks) site.phase (.answered site)
  | expired {deadline : UInt32} (site : OpenSite) (h : deadline ≤ v.ticks) :
    PhaseStep v (.beforeDeadline site deadline) site.phase (.expired site)
  | accepted {q : Phase} (site : OpenSite) (h : q = .expired site ∨ q = .answered site)
    (hsem : v.kbd.connectedSem = true) : PhaseStep v .takeConnected q .accepted
  | refused {q : Phase} (site : OpenSite) (h : q = .expired site ∨ q = .answered site)
    (hsem : v.kbd.connectedSem = false) : PhaseStep v .takeConnected q (.refused site)
  | repairing (site : PollSite) (h : v.kbd.cmdQueue.items.head? = some .startPairing) :
    PhaseStep v (.peekCmd site) site.phase (.repairing site)
  | found {d : DevId} (h : v.kbd.hidhDev = some d) :
    PhaseStep v .readHidhDev (.repairing .connected) (.closing (.found d))
  | unknown (h : v.kbd.hidhDev = none) :
    PhaseStep v .readHidhDev (.repairing .connected) (.closing .done)
  | unlisted {d : DevId} (h : v.key? d = none) :
    PhaseStep v (.closeCall d) (.closing (.found d)) (.closing .asked)
  | asked (d : DevId) : PhaseStep v (.gapTerminate d) (.closing (.found d)) (.closing .asked)
  | waited (since ticks : UInt32) :
    PhaseStep v (.awaitClosed since ticks) (.closing .asked) (.closing .done)
  | failed {q : Phase} (h : q = .refused .bonded ∨ q = .repairing .bonded) :
    PhaseStep v .attemptFailed q .reconnecting
  | cleared {q : Phase} (h : q = .start ∨ q = .reconnecting ∨ q = .requested ∨
      q = .refused .selected ∨ q = .repairing .connecting ∨ q = .closing .done) :
    PhaseStep v .storeClear q (.pairing .cleared)
  | forgotten : PhaseStep v .clearHidhDev (.pairing .cleared) (.pairing .forgotten)
  | emptied : PhaseStep v .resetScan (.pairing .forgotten) (.pairing .emptied)
  | copied : PhaseStep v .copyScan .scanning (.copied v.kbd.scanDevs.devs)
  | updated (devs : List ScanDev) : PhaseStep v (.onScanUpdated devs) (.copied devs) .scanning
  | picking {since ticks : UInt32} (param : Int)
    (h : v.kbd.cmdQueue.items.head? = some (.selectDevice param)) :
    PhaseStep v (.receiveCmd since ticks) .scanning (.picking param)
  | picked (param : Int) (h : v.kbd.validSelection param = true) :
    PhaseStep v (.checkSelection param) (.picking param) (.picked param.toNat)
  | ignored (param : Int) (h : v.kbd.validSelection param = false) :
    PhaseStep v (.checkSelection param) (.picking param) .scanning
  | chosen (index : Nat) :
    PhaseStep v (.copySelected index) (.picked index) (.chosen (v.kbd.scanDev index).addr)
  | connecting (bda : Bda) : PhaseStep v (.openCall .selected bda) (.selected bda) .connecting
  | dropped {since ticks : UInt32} (h : v.kbd.disconnectedSem = true) :
    PhaseStep v (.awaitDisconnect since ticks) .connected .dropped

/-- **An operation at its place moves the main task by one such step.** -/
theorem phaseStep {o : Op} {v : View} (hat : o.At v.ctl) :
    PhaseStep v o v.ctl.phase (v.nextPhase o) := by
  cases o with
  | setState st =>
    simp only [nextPhase]
    cases st with
    | idle => exact hat.elim
    | reconnecting => exact .setReconnecting hat.1
    | scanning => rw [hat]; exact .setScanning
    | connected => rw [hat]; exact .setConnected
    | connecting =>
      obtain ⟨⟨addr, hph⟩, -⟩ := hat
      rw [hph]
      exact .setConnecting addr
  | onStatus st _ _ =>
    have hshows := hat.1
    simp only [nextPhase]
    revert hshows
    cases v.ctl.phase with
    | announcing next => exact .announced next
    | _ => exact fun _ => .stays _
  | receiveCmd _ _ =>
    simp only [nextPhase]
    rcases hat.1 with hph | hph | ⟨site, -, hph⟩ <;> rw [hph]
    · rcases hhead : v.kbd.cmdQueue.items.head? with _ | _ | _
      · exact .stays _
      · exact .requested hhead
      · exact .stays _
    · rcases hhead : v.kbd.cmdQueue.items.head? with _ | _ | param
      · exact .stays _
      · exact .stays _
      · exact .picking param hhead
    · exact .stays _
  | openCall site bda =>
    rw [hat]
    cases site with
    | bonded => exact .bonded bda
    | selected => exact .connecting bda
  | reconnectReturns r =>
    cases r with
    | none => exact .stays _
    | some d =>
      rw [hat.2.2]
      exact .reconnected d
  | take sem since ticks =>
    simp only [nextPhase]
    split
    · rename_i h
      obtain ⟨rfl, hsem⟩ := h
      cases v.ctl.phase with
      | bonded => exact .answered .bonded hsem
      | connecting => exact .answered .selected hsem
      | _ => exact .stays _
    · exact .stays _
  | takeConnected =>
    simp only [nextPhase]
    obtain ⟨⟨site, hph⟩, -⟩ := hat
    split
    · rename_i hsem
      exact .accepted site hph hsem
    · rename_i hsem
      have hrefuse : v.ctl.phase.refuse = .refused site := by
        rcases hph with hph | hph <;> rw [hph] <;> rfl
      rw [hrefuse]
      exact .refused site hph (Bool.not_eq_true _ ▸ hsem)
  | peekCmd site =>
    simp only [nextPhase]
    split
    · rename_i hhead
      rw [hat]
      exact .repairing site hhead
    · exact .stays _
  | beforeDeadline site deadline =>
    simp only [nextPhase]
    split
    · exact .stays _
    · rename_i hover
      rw [hat]
      exact .expired site (UInt32.not_lt.mp hover)
  | readHidhDev =>
    simp only [nextPhase]
    rw [hat]
    cases hdev : v.kbd.hidhDev with
    | none => exact .unknown hdev
    | some d => exact .found hdev
  | closeCall d =>
    simp only [nextPhase]
    split
    · exact .stays _
    · rename_i hnone
      rw [hat]
      exact .unlisted (by simpa using hnone)
  | gapTerminate d =>
    rw [hat]
    exact .asked d
  | awaitClosed since ticks =>
    rw [hat]
    exact .waited since ticks
  | attemptFailed =>
    rcases hat.1 with hph | hph
    · rw [hph]
      exact .stays _
    · exact .failed hph
  | storeClear =>
    simp only [nextPhase]
    rcases hat.1 with hph | hph
    · rw [hph]
      exact .stays _
    · have hclear : v.ctl.phase.clearBonds = .pairing .cleared := by
        rcases hph with hph | hph | hph | hph | hph | hph <;> rw [hph] <;> rfl
      rw [hclear]
      exact .cleared hph
  | clearHidhDev => rw [hat]; exact .forgotten
  | resetScan =>
    simp only [nextPhase]
    rcases hat.1 with hph | hph <;> rw [hph]
    · exact .stays _
    · exact .emptied
  | copyScan => rw [hat]; exact .copied
  | onScanUpdated devs => rw [hat]; exact .updated devs
  | checkSelection param =>
    simp only [nextPhase]
    rw [hat]
    split
    · rename_i hvalid
      exact .picked param hvalid
    · rename_i hvalid
      exact .ignored param (Bool.not_eq_true _ ▸ hvalid)
  | copySelected index => rw [hat]; exact .chosen index
  | awaitDisconnect _ _ =>
    simp only [nextPhase]
    split
    · rename_i hsem
      rw [hat]
      exact .dropped hsem
    · exact .stays _
  | _ => exact .stays _

/-- Apart from `s_hidh_dev = NULL` itself, only these phases lead to one of them. -/
theorem PhaseStep.unpaired {o : Op} {v : View} {q r : Phase} (h : PhaseStep v o q r)
    (hclear : o ≠ .clearHidhDev) (hr : r.unpaired = true) : q.unpaired = true := by
  cases h with
  | stays => exact hr
  | forgotten => exact absurd rfl hclear
  | answered site => cases site <;> cases hr
  | announced => exact hr
  | setScanning | setConnecting _ | emptied | copied | updated _ | picking _ _ | picked _ _
  | ignored _ _ | chosen _ => rfl
  | _ => cases hr

/-- Only `s_hidh_dev` is closed. -/
theorem PhaseStep.found_cases {o : Op} {v : View} {q : Phase} {d : DevId}
    (h : PhaseStep v o q (.closing (.found d))) :
    q = .closing (.found d) ∨ v.kbd.hidhDev = some d := by
  generalize hr : Phase.closing (.found d) = r at h
  cases h with
  | stays => exact .inl rfl
  | announced next hshows =>
    subst hr
    cases hshows
  | found hdev =>
    cases hr
    exact .inr hdev
  | _ => cases hr

/-- Whether a callback is awaited after an operation. -/
def nextAwaiting (o : Op) (c : Choice) (v : View) : Bool :=
  match o with
  | .gapConnect _ d => (v.key? d).any (v.accepts c ·.bda) || v.ctl.awaiting
  | .waitCb => false
  | .discAllSvcs _ | .discAllChrs _ _ _ | .discAllDscs _ _ _ | .writeFlat _ _ _ => true
  | .readLong _ _ _ => c.rc == 0
  | _ => v.ctl.awaiting

theorem exec_awaiting (o : Op) (c : Choice) (v : View) :
    (v.exec o c).ctl.awaiting = v.nextAwaiting o c := by
  cases o with
  | awaitDisconnect _ _ | peekCmd _ | emitKey _ | devMalloc _ _ | reconnectReturns _ =>
    simp only [exec, nextAwaiting]
    split <;> rfl
  | gapConnect kind d =>
    simp only [exec, nextAwaiting]
    split
    · rename_i hkey
      simp [hkey]
    · rename_i key hkey
      split <;> rename_i haccept <;> simp [hkey, haccept]
  | readConnId kind d =>
    simp only [exec, nextAwaiting]
    split <;> rfl
  | _ => rfl

end View

/-- The operations that move a transport call to another stage. -/
def Op.connects : Op → Bool
  | .openCall _ _ | .reconnectCall _ | .devMalloc _ _ | .devFree _ | .gapConnect _ _
  | .readConnId _ _ | .setConnected _ _ | .postOpen _ _ | .openReturns _ | .reconnectReturns _ =>
    true
  | _ => false

theorem Stage.Within.attempted? {st st' : Stage} (h : st'.Within st) :
    st'.attempted? = st.attempted? := by
  rcases h with rfl | ⟨step, rfl⟩
  · rfl
  · cases st <;> rfl

theorem Stage.Within.opening? {st st' : Stage} (h : st'.Within st) : st'.opening? = st.opening? := by
  rcases h with rfl | ⟨step, rfl⟩
  · rfl
  · cases st with
    | linked kind d _ => cases kind <;> rfl
    | _ => rfl

theorem Stage.Within.none {st st' : Stage} (h : st'.Within st) (hst : st = .none) :
    st' = .none := by
  rcases h with rfl | ⟨step, rfl⟩
  · exact hst
  · rw [hst]
    rfl

theorem Stage.Within.opened {st st' : Stage} (h : st'.Within st) {kind : CallKind} {d : DevId} :
    st' = .opened kind d ↔ st = .opened kind d := by
  rcases h with rfl | ⟨step, rfl⟩
  · exact .rfl
  · cases st with
    | linked _ _ _ => exact ⟨nofun, nofun⟩
    | _ => exact .rfl

theorem Stage.Within.called {st st' : Stage} (h : st'.Within st) {bda : Bda}
    (hst : st' = .called bda) : st = .called bda := by
  rcases h with rfl | ⟨step, rfl⟩
  · exact hst
  · cases st <;> first | exact hst | cases hst

namespace View

/-- The stage that an operation leads to. -/
def nextStage (o : Op) (c : Choice) (v : View) : Stage :=
  match o with
  | .openCall _ bda => if (v.byBda bda).isSome then .none else .called bda
  | .reconnectCall d => .begun .reconnect d
  | .devMalloc _ _ => if c.rc = 0 then .begun .open v.nextDev else .none
  | .gapConnect kind d =>
    match v.key? d with
    | none => v.ctl.stage
    | some key => if v.accepts c key.bda then .connecting kind d else .failed kind d
  | .readConnId kind d =>
    match v.key? d with
    | none => v.ctl.stage
    | some key => if 0 ≤ key.connId then .linked kind d .fresh else .failed kind d
  | .securityInitiate _ => if c.rc = 0 then v.ctl.stage else v.ctl.stage.advance .secured
  | .takeSec _ _ _ => v.ctl.stage.advance .secured
  | .discAllSvcs _ | .mallocReportMaps _ | .mallocProtocolMode _ | .mallocReport =>
    if c.rc = 0 then v.ctl.stage else v.ctl.stage.advance .abandoned
  | .svcsDone => v.ctl.stage.advance .discovered
  | .setConnected kind d => .marked kind d
  | .postOpen kind d => .opened kind d
  | .devFree _ | .openReturns _ | .reconnectReturns _ => .none
  | _ => v.ctl.stage

theorem exec_stage (o : Op) (c : Choice) (v : View) : (v.exec o c).ctl.stage = v.nextStage o c := by
  cases o with
  | awaitDisconnect _ _ | peekCmd _ | emitKey _ | devMalloc _ _ | reconnectReturns _ =>
    simp only [exec, nextStage]
    split <;> rfl
  | gapConnect kind d =>
    simp only [exec, nextStage]
    cases v.key? d with
    | none => rfl
    | some key => by_cases haccept : v.accepts c key.bda = true <;> simp [haccept]
  | readConnId kind d =>
    simp only [exec, nextStage]
    cases v.key? d <;> rfl
  | _ => rfl

/-- The other operations at most take a call further with its connection. -/
theorem nextStage_within {o : Op} (c : Choice) (v : View) (ho : o.connects = false) :
    (v.nextStage o c).Within v.ctl.stage := by
  cases o with
  | securityInitiate _ | discAllSvcs _ | mallocReportMaps _ | mallocProtocolMode _ | mallocReport =>
    simp only [nextStage]
    split
    · exact .inl rfl
    · exact .inr ⟨_, rfl⟩
  | takeSec _ _ _ | svcsDone => exact .inr ⟨_, rfl⟩
  | openCall _ _ | reconnectCall _ | devMalloc _ _ | devFree _ | gapConnect _ _ | readConnId _ _
  | setConnected _ _ | postOpen _ _ | openReturns _ | reconnectReturns _ => cases ho
  | _ => exact .inl rfl

/-- The device list after an operation. -/
def nextKeys (o : Op) (c : Choice) (v : View) : List DevKey :=
  match o with
  | .devMalloc bda _ =>
    if c.rc = 0 then v.keys ++ [({ id := v.nextDev, bda := bda } : DevKey)] else v.keys
  | .devFree d => v.keys.filter (·.id != d)
  | .setConnected _ d =>
    v.keys.map fun key => if key.id = d then { key with connected := true } else key
  | _ => v.keys

theorem exec_keys (o : Op) (c : Choice) (v : View) : (v.exec o c).keys = v.nextKeys o c := by
  cases o with
  | awaitDisconnect _ _ | peekCmd _ | emitKey _ | devMalloc _ _ | reconnectReturns _ =>
    simp only [exec, nextKeys]
    split <;> rfl
  | gapConnect kind d =>
    simp only [exec]
    split
    · rfl
    · split <;> rfl
  | readConnId kind d =>
    simp only [exec]
    split <;> rfl
  | _ => rfl

/-- The main task makes no links itself. -/
theorem exec_links (o : Op) (c : Choice) (v : View) : (v.exec o c).links = v.links := by
  cases o with
  | awaitDisconnect _ _ | peekCmd _ | emitKey _ | devMalloc _ _ | reconnectReturns _ =>
    simp only [exec]
    split <;> rfl
  | gapConnect kind d =>
    simp only [exec]
    split
    · rfl
    · split <;> rfl
  | readConnId kind d =>
    simp only [exec]
    split <;> rfl
  | _ => rfl

/-- The connection attempt under way after an operation. -/
def nextConnecting (o : Op) (c : Choice) (v : View) : Option Bda :=
  match o with
  | .gapConnect _ d =>
    if (v.key? d).any (v.accepts c ·.bda) then (v.key? d).map (·.bda) else v.connecting
  | _ => v.connecting

theorem exec_connecting (o : Op) (c : Choice) (v : View) :
    (v.exec o c).connecting = v.nextConnecting o c := by
  cases o with
  | awaitDisconnect _ _ | peekCmd _ | emitKey _ | devMalloc _ _ | reconnectReturns _ =>
    simp only [exec]
    split <;> rfl
  | gapConnect kind d =>
    simp only [exec, nextConnecting]
    split
    · rename_i hkey
      simp [hkey]
    · rename_i key hkey
      split <;> rename_i haccept <;> simp [hkey, haccept]
  | readConnId kind d =>
    simp only [exec]
    split <;> rfl
  | _ => rfl

/-- The listed devices. -/
def ids (v : View) : List DevId := v.keys.map (·.id)

/-- The listed devices with their addresses. -/
def names (v : View) : List (DevId × Bda) := v.keys.map fun key => (key.id, key.bda)

theorem ids_eq (v : View) : v.ids = v.names.map Prod.fst := by
  rw [ids, names, List.map_map]
  rfl

/-- The addresses of the listed devices. -/
def bdas (v : View) : List Bda := v.keys.map (·.bda)

theorem bdas_eq (v : View) : v.bdas = v.names.map Prod.snd := by
  rw [bdas, names, List.map_map]
  rfl

theorem mem_ids_iff {v : View} {d : DevId} : d ∈ v.ids ↔ (v.key? d).isSome = true := by
  simp [ids, key?, List.find?_isSome]

/-- Writing to a device does not change which ones there are. -/
theorem names_map {keys : List DevKey} {p : DevKey → Prop} [DecidablePred p] {f : DevKey → DevKey}
    (h : ∀ key, ((f key).id, (f key).bda) = (key.id, key.bda)) :
    ((keys.map fun key => if p key then f key else key).map fun key => (key.id, key.bda)) =
      keys.map fun key => (key.id, key.bda) := by
  rw [List.map_map]
  apply List.map_congr_left
  intro key _
  simp only [Function.comp]
  split
  · exact h key
  · rfl

/-- The devices that are listed after an operation. -/
def nextNames (o : Op) (c : Choice) (v : View) : List (DevId × Bda) :=
  match o with
  | .devMalloc bda _ => if c.rc = 0 then v.names ++ [(v.nextDev, bda)] else v.names
  | .devFree d => v.names.filter (·.1 != d)
  | _ => v.names

theorem exec_names (o : Op) (c : Choice) (v : View) : (v.exec o c).names = v.nextNames o c := by
  rw [names, exec_keys]
  cases o with
  | devMalloc bda addrType =>
    simp only [nextKeys, nextNames]
    split
    · simp [names]
    · rfl
  | devFree d =>
    simp only [nextKeys, nextNames, names, List.filter_map]
    rfl
  | setConnected kind d => exact names_map fun _ => rfl
  | _ => rfl

def nextIds (o : Op) (c : Choice) (v : View) : List DevId :=
  match o with
  | .devMalloc _ _ => if c.rc = 0 then v.ids ++ [v.nextDev] else v.ids
  | .devFree d => v.ids.filter (· != d)
  | _ => v.ids

theorem exec_ids (o : Op) (c : Choice) (v : View) : (v.exec o c).ids = v.nextIds o c := by
  rw [ids_eq, exec_names]
  cases o with
  | devMalloc bda addrType =>
    simp only [nextNames, nextIds, ids_eq]
    split <;> simp
  | devFree d =>
    simp only [nextNames, nextIds, ids_eq, List.filter_map]
    rfl
  | _ => exact (ids_eq v).symm

theorem exec_nextDev (o : Op) (c : Choice) (v : View) :
    (v.exec o c).nextDev =
      match o with
      | .devMalloc _ _ => if c.rc = 0 then v.nextDev + 1 else v.nextDev
      | _ => v.nextDev := by
  cases o with
  | awaitDisconnect _ _ | peekCmd _ | emitKey _ | devMalloc _ _ | reconnectReturns _ =>
    simp only [exec]
    split <;> rfl
  | gapConnect kind d =>
    simp only [exec]
    split
    · rfl
    · split <;> rfl
  | readConnId kind d =>
    simp only [exec]
    split <;> rfl
  | _ => rfl

/-- The main task only takes the security semaphore. -/
theorem exec_secSem (o : Op) (c : Choice) (v : View) :
    (v.exec o c).secSem =
      match o with
      | .drainSec | .takeSec _ _ _ => false
      | _ => v.secSem := by
  cases o with
  | awaitDisconnect _ _ | peekCmd _ | emitKey _ | devMalloc _ _ | reconnectReturns _ =>
    simp only [exec]
    split <;> rfl
  | gapConnect kind d =>
    simp only [exec]
    split
    · rfl
    · split <;> rfl
  | readConnId kind d =>
    simp only [exec]
    split <;> rfl
  | _ => rfl

/-- The main task only clears `s_hidh_dev`. -/
theorem exec_hidhDev (o : Op) (c : Choice) (v : View) :
    (v.exec o c).kbd.hidhDev =
      match o with
      | .clearHidhDev => none
      | _ => v.kbd.hidhDev := by
  cases o with
  | awaitDisconnect _ _ | peekCmd _ | emitKey _ | devMalloc _ _ | reconnectReturns _ =>
    simp only [exec]
    split <;> rfl
  | gapConnect kind d =>
    simp only [exec]
    split
    · rfl
    · split <;> rfl
  | readConnId kind d =>
    simp only [exec]
    split <;> rfl
  | _ => rfl

/-! ## Events -/

theorem setHandling_kbd (v : View) (p : Posted) (steps : List HidhStep) :
    (v.setHandling p steps).kbd = v.kbd := by
  cases steps <;> rfl

theorem linkDown_kbd (v : View) (link : Link) (reason : Int) :
    (v.linkDown link reason).kbd = v.kbd := by
  unfold linkDown
  simp only
  split
  · rfl
  · split <;> rfl

/-- The steps of an event. -/
def work (p : Posted) : List (Posted × HidhStep) := (hidhSteps p.event).map (Prod.mk p)

/-- What the event task still has to do, step by step: the rest of the event it is working on, then
the queued ones. -/
def agenda (v : View) : List (Posted × HidhStep) :=
  (v.handling.map fun (p, steps) => steps.map (Prod.mk p)).getD [] ++
    v.eventQueue.items.flatMap work

theorem agenda_setHandling (v : View) (p : Posted) (steps : List HidhStep) :
    (v.setHandling p steps).agenda =
      steps.map (Prod.mk p) ++ v.eventQueue.items.flatMap work := by
  cases steps <;> rfl

theorem agenda_post {v : View} (hroom : v.eventQueue.hasRoom = true) (event : HidhEvent) :
    (v.post event).agenda = v.agenda ++ work ⟨v.nextSeq, event⟩ := by
  simp [agenda, work, BoundedQueue.items_send_of_hasRoom hroom]

/-- Only `postOpen` posts. -/
theorem exec_events {o : Op} (c : Choice) (v : View) (hpost : ∀ kind d, o ≠ .postOpen kind d) :
    (v.exec o c).handling = v.handling ∧ (v.exec o c).eventQueue = v.eventQueue ∧
      (v.exec o c).nextSeq = v.nextSeq := by
  cases o with
  | postOpen kind d => exact absurd rfl (hpost kind d)
  | awaitDisconnect _ _ | peekCmd _ | emitKey _ | devMalloc _ _ | reconnectReturns _ =>
    simp only [exec]
    split <;> exact ⟨rfl, rfl, rfl⟩
  | gapConnect kind d =>
    simp only [exec]
    split
    · exact ⟨rfl, rfl, rfl⟩
    · split <;> exact ⟨rfl, rfl, rfl⟩
  | readConnId kind d =>
    simp only [exec]
    split <;> exact ⟨rfl, rfl, rfl⟩
  | _ => exact ⟨rfl, rfl, rfl⟩

/-- The agenda after an operation: only `postOpen` adds to it. -/
def nextAgenda (o : Op) (v : View) : List (Posted × HidhStep) :=
  match o with
  | .postOpen _ d => v.agenda ++ work ⟨v.nextSeq, .open d 0⟩
  | _ => v.agenda

theorem exec_agenda (o : Op) (c : Choice) (v : View)
    (hready : ∀ kind d, o = .postOpen kind d → v.eventQueue.hasRoom = true) :
    (v.exec o c).agenda = v.nextAgenda o := by
  have hstay : ∀ o, (∀ kind d, o ≠ .postOpen kind d) → (v.exec o c).agenda = v.agenda := by
    intro o hpost
    obtain ⟨hhandling, hqueue, -⟩ := exec_events c v hpost
    rw [agenda, hhandling, hqueue, agenda]
  cases o with
  | postOpen kind d => exact agenda_post (hready kind d rfl) _
  | _ => exact hstay _ nofun

/-- **The event task works off its agenda.** It performs the first step, or only turns to the next
event. -/
theorem Effect.dispatch {v v' : View} (h : Effect .dispatch v v') :
    (∃ p step rest, v.handling = some (p, step :: rest) ∧ v.agenda = (p, step) :: v'.agenda ∧
      v' = (v.stepExec step).setHandling p rest) ∨
    (v'.agenda = v.agenda ∧ ∃ p queue rest,
      v' = { v with eventQueue := queue }.setHandling p rest) := by
  cases h with
  | quiet _ h => simp [inner] at h
  | popped _ p ps hnone hitems =>
    refine .inr ⟨?_, p, v.eventQueue.tail, hidhSteps p.event, rfl⟩
    rw [agenda_setHandling]
    simp [agenda, work, hnone, hitems]
  | stepped _ p step rest hsome =>
    refine .inl ⟨p, step, rest, hsome, ?_, rfl⟩
    rw [agenda_setHandling]
    have hqueue : (v.stepExec step).eventQueue = v.eventQueue := by cases step <;> rfl
    simp [agenda, hsome, hqueue]
  | settled _ p hsome =>
    refine .inr ⟨?_, p, v.eventQueue, [], rfl⟩
    rw [agenda_setHandling]
    simp [agenda, hsome]

/-- The other events at most post an event of their own, which opens nothing. -/
theorem Effect.agenda_append {e : Event} {v v' : View} (h : Effect e v v') (he : e ≠ .dispatch) :
    v'.agenda = v.agenda ∨ ∃ event, v'.agenda = v.agenda ++ work ⟨v.nextSeq, event⟩ ∧
      ∀ d status, event ≠ .open d status := by
  cases h with
  | disconnected _ link reason hfind hroom =>
    unfold linkDown
    simp only
    cases hkey : v.byConnId link.handle with
    | none => exact .inl rfl
    | some key =>
      simp only
      split
      · rename_i hconn
        exact .inr ⟨_, agenda_post (hroom key hkey hconn) _, nofun⟩
      · exact .inl rfl
  | notified _ handle attr data event key hkey hdev hopen hclose hroom =>
    exact .inr ⟨event, agenda_post hroom event, hopen⟩
  | popped | stepped | settled => exact absurd rfl he
  | _ => exact .inl rfl

end View

/-- Happenings that the host task and the event task record. -/
def Obs.ofTasks : Obs → Bool
  | .key _ | .compared _ _ | .advertised _ | .deviceFreed _ | .linkUp _ _ | .linkDown _
  | .encChange _ _ | .posted _ | .handled _ => true
  | _ => false

/-- Those among them that a step of the event task records. -/
def Obs.ofStep : Obs → Bool
  | .key _ | .compared _ _ | .deviceFreed _ => true
  | _ => false

theorem Obs.ofTasks_of_ofStep {o : Obs} (h : o.ofStep = true) : o.ofTasks = true := by
  cases o <;> first | rfl | cases h

namespace View

theorem setHandling_trace (v : View) (p : Posted) (steps : List HidhStep) :
    (v.setHandling p steps).trace = (if steps = [] then [.handled p] else []) ++ v.trace := by
  cases steps <;> rfl

theorem linkDown_trace (v : View) (link : Link) (reason : Int) :
    (v.linkDown link reason).trace =
      (if (v.byConnId link.handle).any (·.connected) then
        [.posted ⟨v.nextSeq, .close (((v.byConnId link.handle).map (·.id)).getD 0) reason⟩]
      else []) ++ .linkDown link :: v.trace := by
  unfold linkDown
  cases hkey : v.byConnId link.handle with
  | none => rfl
  | some key => cases hconn : key.connected <;> simp [hconn]

theorem stepExec_trace (v : View) (step : HidhStep) :
    ∃ l, (v.stepExec step).trace = l ++ v.trace ∧ ∀ o ∈ l, o.ofStep = true := by
  cases step with
  | compare mod code => exact ⟨[.compared mod code], rfl, by simp [Obs.ofStep]⟩
  | emit ch =>
    simp only [stepExec]
    split
    · exact ⟨[.key ch], rfl, by simp [Obs.ofStep]⟩
    · exact ⟨[], rfl, (by simp)⟩
  | free d =>
    simp only [stepExec, free]
    split
    · exact ⟨[.deviceFreed d], rfl, by simp [Obs.ofStep]⟩
    · exact ⟨[], rfl, (by simp)⟩
  | setHidhDev _ | take _ | give _ | remember _ => exact ⟨[], rfl, (by simp)⟩

/-- What the events record, apart from the calls of the application. -/
theorem Effect.trace {e : Event} {v v' : View} (h : Effect e v v') (hstart : e ≠ .startPairing)
    (hselect : ∀ index, e ≠ .selectDevice index) :
    ∃ l, v'.trace = l ++ v.trace ∧ ∀ o ∈ l, o.ofTasks = true := by
  have hhandling : ∀ (v : View) (p : Posted) (steps : List HidhStep),
      ∃ l, (v.setHandling p steps).trace = l ++ v.trace ∧ ∀ o ∈ l, o.ofTasks = true := by
    intro v p steps
    refine ⟨_, setHandling_trace v p steps, fun o ho => ?_⟩
    split at ho
    · rw [List.mem_singleton.mp ho]
      rfl
    · cases ho
  cases h with
  | quiet _ _ | ticked _ _ => exact ⟨[], rfl, nofun⟩
  | startPairing => exact absurd rfl hstart
  | selectDevice _ index => exact absurd rfl (hselect index)
  | advertised _ report => exact ⟨[.advertised report], rfl, by simp [Obs.ofTasks]⟩
  | encChange _ handle status => exact ⟨[.encChange handle status], rfl, by simp [Obs.ofTasks]⟩
  | connected _ link h hfresh => exact ⟨[.linkUp link _], rfl, by simp [Obs.ofTasks]⟩
  | connectFailed _ status h => exact ⟨[], rfl, nofun⟩
  | disconnected _ link reason hfind hroom =>
    rw [linkDown_trace]
    refine ⟨_ ++ [.linkDown link], by rw [List.append_assoc]; rfl, ?_⟩
    split <;> simp [Obs.ofTasks]
  | notified _ handle attr data event key hkey hdev hopen hclose hroom =>
    exact ⟨[.posted ⟨v.nextSeq, event⟩], rfl, by simp [Obs.ofTasks]⟩
  | popped _ p ps hnone hitems => exact hhandling ..
  | stepped _ p step steps hsome =>
    obtain ⟨l, hl, hall⟩ := stepExec_trace v step
    obtain ⟨l', hl', hall'⟩ := hhandling (v.stepExec step) p steps
    refine ⟨l' ++ l, by rw [hl', hl, List.append_assoc], fun o ho => ?_⟩
    rcases List.mem_append.mp ho with ho | ho
    · exact hall' o ho
    · exact Obs.ofTasks_of_ofStep (hall o ho)
  | settled _ p hsome => exact hhandling ..

end View

/-- Which event can have recorded it. -/
def Obs.RecordedBy (e : Event) (v : View) : Obs → Prop
  | .startPairing queued => e = .startPairing ∧ queued = v.kbd.cmdQueue.hasRoom
  | .selectDevice param queued => e = .selectDevice param ∧ queued = v.kbd.cmdQueue.hasRoom
  | .advertised d => e = .advertised d
  | .linkUp link d => e = .connected link.handle link.ota link.identity ∧
      d = ((v.byBda link.ota).or (v.byBda link.identity)).map DevKey.id
  | .linkDown link => ∃ reason, e = .disconnected link.handle reason
  | .encChange handle rc => e = .encChange handle rc
  | .posted p => p.seq = v.nextSeq ∧ ((∃ handle attr data key, e = .notifyRx handle attr data true ∧
      v.byConnId handle = some key ∧ p.event.dev = key.id) ∨
      ∃ handle reason key, e = .disconnected handle reason ∧ v.byConnId handle = some key ∧
        key.connected = true ∧ p.event = .close key.id reason)
  | .key _ | .compared _ _ | .deviceFreed _ | .handled _ => e = .dispatch
  | _ => False

namespace View

/-- What the events record. -/
theorem Effect.records {e : Event} {v v' : View} (h : Effect e v v') :
    ∃ l, v'.trace = l ++ v.trace ∧ ∀ o ∈ l, o.RecordedBy e v := by
  have hhandling : ∀ (v₀ v : View) (p : Posted) (steps : List HidhStep),
      ∃ l, (v.setHandling p steps).trace = l ++ v.trace ∧ ∀ o ∈ l, o.RecordedBy .dispatch v₀ := by
    intro v₀ v p steps
    refine ⟨_, setHandling_trace v p steps, fun o ho => ?_⟩
    split at ho
    · rw [List.mem_singleton.mp ho]
      exact rfl
    · cases ho
  have hone : ∀ {v' : View} {o : Obs}, v'.trace = o :: v.trace → o.RecordedBy e v →
      ∃ l, v'.trace = l ++ v.trace ∧ ∀ o ∈ l, o.RecordedBy e v :=
    fun htrace hby => ⟨[_], htrace, fun o ho => List.mem_singleton.mp ho ▸ hby⟩
  cases h with
  | quiet _ _ | ticked _ _ => exact ⟨[], rfl, nofun⟩
  | startPairing | selectDevice _ index => exact hone rfl ⟨rfl, rfl⟩
  | advertised _ report => exact hone rfl rfl
  | encChange _ handle status => exact hone rfl rfl
  | connected _ link h hfresh => exact hone rfl ⟨rfl, rfl⟩
  | connectFailed _ status h => exact ⟨[], rfl, nofun⟩
  | disconnected _ link reason hfind hroom =>
    rw [linkDown_trace]
    refine ⟨_ ++ [.linkDown link], by rw [List.append_assoc]; rfl, fun o ho => ?_⟩
    rcases List.mem_append.mp ho with ho | ho
    · split at ho
      · rename_i hany
        rw [List.mem_singleton.mp ho]
        obtain ⟨key, hkey, hconn⟩ := (Option.any_eq_true _ _).mp hany
        exact ⟨rfl, .inr ⟨link.handle, reason, key, rfl, hkey, hconn, by simp [hkey]⟩⟩
      · cases ho
    · rw [List.mem_singleton.mp ho]
      exact ⟨reason, rfl⟩
  | notified _ handle attr data event key hkey hdev hopen hclose hroom =>
    exact hone rfl ⟨rfl, .inl ⟨handle, attr, data, key, rfl, hkey, hdev⟩⟩
  | popped _ p ps hnone hitems => exact hhandling v ..
  | stepped _ p step steps hsome =>
    obtain ⟨l, hl, hall⟩ := stepExec_trace v step
    obtain ⟨l', hl', hall'⟩ := hhandling v (v.stepExec step) p steps
    refine ⟨l' ++ l, by rw [hl', hl, List.append_assoc], fun o ho => ?_⟩
    rcases List.mem_append.mp ho with ho | ho
    · exact hall' o ho
    · have hstep := hall o ho
      cases o <;> first | rfl | cases hstep
  | settled _ p hsome => exact hhandling v ..

theorem setHandling_keys (v : View) (p : Posted) (steps : List HidhStep) :
    (v.setHandling p steps).keys = v.keys := by
  cases steps <;> rfl

/-- Apart from the event task, no event changes which devices there are. -/
theorem Effect.names {e : Event} {v v' : View} (h : Effect e v v') (he : e ≠ .dispatch) :
    v'.names = v.names := by
  cases h with
  | connected _ link h hfresh =>
    simp only [View.names, linkUp]
    split
    · rfl
    · exact names_map fun _ => rfl
  | disconnected _ link reason hfind hroom =>
    simp only [View.names, linkDown]
    split
    · rfl
    · split <;> exact names_map fun _ => rfl
  | popped | stepped | settled => exact absurd rfl he
  | _ => rfl

theorem Effect.ids {e : Event} {v v' : View} (h : Effect e v v') (he : e ≠ .dispatch) :
    v'.ids = v.ids := by
  rw [ids_eq, ids_eq, h.names he]

theorem Effect.nextDev {e : Event} {v v' : View} (h : Effect e v v') : v'.nextDev = v.nextDev := by
  have hhandling : ∀ (v : View) (p : Posted) (steps : List HidhStep),
      (v.setHandling p steps).nextDev = v.nextDev := by
    intro v p steps
    cases steps <;> rfl
  cases h with
  | disconnected _ link reason hfind hroom =>
    simp only [linkDown]
    split
    · rfl
    · split <;> rfl
  | popped => exact hhandling ..
  | stepped _ p step steps hsome =>
    rw [hhandling]
    cases step <;> rfl
  | settled => exact hhandling ..
  | _ => rfl

/-- Apart from the event task, no event moves the connection semaphores or `s_hidh_dev`. -/
theorem Effect.kbd {e : Event} {v v' : View} (h : Effect e v v') (he : e ≠ .dispatch) :
    v'.kbd.hidhDev = v.kbd.hidhDev ∧ v'.kbd.sem = v.kbd.sem := by
  cases h with
  | disconnected _ link reason hfind hroom =>
    rw [linkDown_kbd]
    exact ⟨rfl, rfl⟩
  | popped | stepped | settled => exact absurd rfl he
  | _ => exact ⟨rfl, funext fun sem => by cases sem <;> rfl⟩

/-- Only `BLE_GAP_EVENT_ENC_CHANGE` gives the security semaphore. -/
theorem Effect.secSem {e : Event} {v v' : View} (h : Effect e v v')
    (he : ∀ handle rc, e ≠ .encChange handle rc) : v'.secSem = v.secSem := by
  have hhandling : ∀ (v : View) (p : Posted) (steps : List HidhStep),
      (v.setHandling p steps).secSem = v.secSem := by
    intro v p steps
    cases steps <;> rfl
  cases h with
  | encChange _ handle status => exact absurd rfl (he handle status)
  | disconnected _ link reason hfind hroom =>
    simp only [linkDown]
    split
    · rfl
    · split <;> rfl
  | popped => exact hhandling ..
  | stepped _ p step steps hsome =>
    rw [hhandling]
    cases step <;> rfl
  | settled => exact hhandling ..
  | _ => rfl

/-- A connection attempt ends by its result. -/
theorem Effect.connecting {e : Event} {v v' : View} (h : Effect e v v')
    (hup : ∀ handle ota identity, e ≠ .connected handle ota identity)
    (hfailed : ∀ rc, e ≠ .connectFailed rc) : v'.connecting = v.connecting := by
  have hhandling : ∀ (v : View) (p : Posted) (steps : List HidhStep),
      (v.setHandling p steps).connecting = v.connecting := by
    intro v p steps
    cases steps <;> rfl
  cases h with
  | connected _ link => exact absurd rfl (hup _ _ _)
  | connectFailed _ rc => exact absurd rfl (hfailed rc)
  | disconnected _ link reason hfind hroom =>
    simp only [linkDown]
    split
    · rfl
    · split <;> rfl
  | popped => exact hhandling ..
  | stepped _ p step steps hsome =>
    rw [hhandling]
    cases step <;> rfl
  | settled => exact hhandling ..
  | _ => rfl

/-- Only the application sends commands. -/
theorem Effect.cmdQueue {e : Event} {v v' : View} (h : Effect e v v') :
    v'.kbd.cmdQueue =
      match e with
      | .startPairing => v.kbd.cmdQueue.send .startPairing
      | .selectDevice index => v.kbd.cmdQueue.send (.selectDevice index)
      | _ => v.kbd.cmdQueue := by
  cases h with
  | quiet _ h => cases e <;> first | rfl | simp [inner] at h
  | disconnected _ link reason hfind hroom => rw [linkDown_kbd]
  | popped _ p ps hnone hitems => rw [setHandling_kbd]
  | stepped _ p step steps hsome =>
    rw [setHandling_kbd]
    cases step <;> rfl
  | settled _ p hsome => rw [setHandling_kbd]
  | _ => rfl

/-- What is due for an event belongs to its handlers, and open events are successful. -/
def WorkOf (v : View) : Prop :=
  ∀ p step, (p, step) ∈ v.agenda → step ∈ hidhSteps p.event ∧
    ∀ d status, p.event = .open d status → status = 0

theorem WorkOf.append {v v' : View} {p : Posted} (h : WorkOf v)
    (happend : v'.agenda = v.agenda ++ work p)
    (hopen : ∀ d status, p.event = .open d status → status = 0) : WorkOf v' := by
  intro q step hmem
  rw [happend] at hmem
  rcases List.mem_append.mp hmem with hmem | hmem
  · exact h q step hmem
  · obtain ⟨step', hstep', heq⟩ := List.mem_map.mp hmem
    cases heq
    exact ⟨hstep', hopen⟩

theorem WorkOf.exec {s : Sys} {o : Op} (h : WorkOf s.view) (ch : Choice)
    (hready : o.ready s = true) : WorkOf (s.view.exec o ch) := by
  have hagenda := exec_agenda o ch s.view fun kind d ho => by
    subst ho
    exact hready
  cases o with
  | postOpen kind d => exact h.append hagenda fun d' status heq => by cases heq; rfl
  | _ =>
    intro q step hmem
    rw [hagenda] at hmem
    exact h q step hmem

theorem WorkOf.effect {e : Event} {v v' : View} (h : WorkOf v) (heff : Effect e v v') :
    WorkOf v' := by
  by_cases he : e = .dispatch
  · subst he
    rcases heff.dispatch with ⟨p, step, rest, -, hagenda, -⟩ | ⟨hagenda, -⟩
    · exact fun q step hmem => h q step (hagenda ▸ List.mem_cons_of_mem _ hmem)
    · exact fun q step hmem => h q step (hagenda ▸ hmem)
  · rcases heff.agenda_append he with hsame | ⟨event, happend, hopen⟩
    · exact fun q step hmem => h q step (hsame ▸ hmem)
    · exact h.append happend fun d status heq => absurd heq (hopen d status)

theorem workOf {g : Guard Op Choice Sys Event} {cfg : KbdConfig} {bonds : List (Bda × UInt8)}
    {c : HostConfig} (h : Reach host g (boot cfg bonds) c) : WorkOf c.state.view := by
  refine reach_keeps (I := fun s => WorkOf s.view) h nofun ?_ ?_
  · intro o ch s hinv _ hready _ _
    rw [exec_view]
    exact hinv.exec ch hready
  · exact fun e s s' hinv _ _ hstep => hinv.effect (eventStep_view hstep)

/-- The events that a step can belong to. -/
def StepOf (event : HidhEvent) : HidhStep → Prop
  | .setHidhDev d => event = .open d 0
  | .give .connected | .give .openDone => ∃ d, event = .open d 0
  | .take .connected | .give .disconnected => ∃ d reason, event = .close d reason
  | .compare _ _ | .emit _ | .remember _ =>
    ∃ d mapIndex reportId data, event = .input d mapIndex reportId .keyboard data
  | .free _ | .take _ => False

theorem WorkOf.event {v : View} {p : Posted} {step : HidhStep} (h : WorkOf v)
    (hmem : (p, step) ∈ v.agenda) : StepOf p.event step := by
  obtain ⟨hstep, hopen⟩ := h p step hmem
  cases hevent : p.event with
  | «open» d status =>
    rw [hevent] at hstep
    cases hopen d status hevent
    simp only [hidhSteps, ↓reduceIte, List.mem_cons, List.not_mem_nil, or_false] at hstep
    rcases hstep with rfl | rfl | rfl
    · rfl
    · exact ⟨d, rfl⟩
    · exact ⟨d, rfl⟩
  | input d mapIndex reportId usage data =>
    rw [hevent] at hstep
    by_cases husage : usage = .keyboard
    · subst husage
      rcases mem_translateSteps (by simpa [hidhSteps] using hstep) with
        ⟨mod, code, rfl⟩ | ⟨ch, rfl⟩ | rfl <;> exact ⟨d, mapIndex, reportId, data, rfl⟩
    · simp [hidhSteps, husage] at hstep
  | close d reason =>
    rw [hevent] at hstep
    simp only [hidhSteps, List.mem_cons, List.not_mem_nil, or_false] at hstep
    rcases hstep with rfl | rfl
    · exact ⟨d, reason, rfl⟩
    · exact ⟨d, reason, rfl⟩
  | feature _ _ _ _ _ | battery _ _ =>
    rw [hevent] at hstep
    cases hstep

/-- The event task frees no device: it leaves the list alone. -/
theorem WorkOf.keys {v v' : View} (h : WorkOf v) (heff : Effect .dispatch v v') :
    v'.keys = v.keys := by
  rcases heff.dispatch with ⟨p, step, rest, -, hagenda, hv'⟩ | ⟨-, p, queue, rest, hv'⟩
  · rw [hv', setHandling_keys]
    cases step with
    | free d =>
      have hfree : StepOf p.event (.free d) := h.event (hagenda ▸ List.mem_cons_self)
      exact hfree.elim
    | _ => rfl
  · rw [hv', setHandling_keys]

end View

end BleKbdHost.Host
