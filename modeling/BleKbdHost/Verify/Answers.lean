import BleKbdHost.Conc.Trace
import BleKbdHost.Host.EventLog

/-!
# Answers to an open

Whether each call of `esp_hidh_dev_open` posts one open event, with the status of what it returns,
and whether this event ends the wait of the main task. Only the success path posts: every failure
exit returns without an event, and the wait lasts until its deadline. Besides, the deadline is over
at once where it wraps around, and a token of an earlier call ends the wait as well.
-/

namespace BleKbdHost.Host

open Hid Keys Conc

/-! ## The property -/

/-- The call that begins there. -/
def Obs.calls? : Obs → Option CallKind
  | .openCall _ _ _ => some .open
  | .reconnectCall _ => some .reconnect
  | _ => none

/-- A transport call begins or ends. -/
def Obs.bounds : Obs → Bool
  | .openCall _ _ _ | .reconnectCall _ | .returned _ => true
  | _ => false

/-- The transport call in progress. -/
def callKind? (trace : List Obs) : Option CallKind := (trace.find? Obs.bounds).bind Obs.calls?

def Obs.openEvent? : Obs → Option (DevId × Int)
  | .posted ⟨_, .open d rc⟩ => some (d, rc)
  | _ => none

/-- The open events posted since a transport call began or ended. -/
def openEvents (trace : List Obs) : List (DevId × Int) :=
  (since Obs.bounds trace).filterMap Obs.openEvent?

/-- One open event answers the call: it is successful if the call returns its device. -/
def Answers : Option DevId → List (DevId × Int) → Prop
  | some d, events => events = [(d, 0)]
  | none, events => ∃ d status, status ≠ 0 ∧ events = [(d, status)]

/-- An open returns with its answer posted, and every open event belongs to a call. -/
def AnswerRule : Obs → List Obs → Prop
  | .returned r, before => callKind? before = some .open → Answers r (openEvents before)
  | .posted p, before => (Obs.posted p).openEvent? ≠ none → callKind? before ≠ none
  | _, _ => True

/-- `s_open_done_sem` is given, or the event task is about to give it. -/
def View.Due (v : View) : Prop :=
  v.kbd.openDoneSem = true ∨ ∃ p, (p, .give .openDone) ∈ v.agenda

/-- The main task is between an open and the end of its wait. -/
def Phase.waits : Phase → Bool
  | .bonded | .connecting => true
  | _ => false

def Obs.opensCall : Obs → Bool
  | .openCall _ _ _ => true
  | _ => false

/-- What has happened since the last call of `esp_hidh_dev_open`. -/
def sinceOpen (trace : List Obs) : List Obs := since Obs.opensCall trace

/-- An open event was posted and handled. -/
def OpenHandled (l : List Obs) : Prop :=
  ∃ p d status, p.event = .open d status ∧ .posted p ∈ l ∧ .handled p ∈ l

/-- How long the main task waits for the event. -/
def OpenSite.waitMs : OpenSite → Nat
  | .bonded => 15000
  | .selected => 60000

/-- The tick counter does not wrap before the deadline of a wait of `ticks`, and the wait has not
lasted that long. -/
def InTime (now deadline ticks : UInt32) : Prop :=
  ticks ≤ deadline ∧ now - (deadline - ticks) < ticks

instance (now deadline ticks : UInt32) : Decidable (InTime now deadline ticks) :=
  inferInstanceAs (Decidable (_ ∧ _))

/-- No open fails: the address is unknown, the device is allocated, the request to connect is
accepted, and the connection is for the device. It starts without `s_open_done_sem` given, and
without an open event that is still to give it, and its wait is in time. -/
def succeeds : Guard Op Choice Sys Event where
  main o c s :=
    match o with
    | .openCall _ bda =>
      (s.getByBda bda).isNone && !s.kbd.openDoneSem &&
        s.view.agenda.all (·.2 != .give .openDone)
    | .beforeDeadline site deadline =>
      decide (InTime s.ticks deadline (pdMsToTicks s.kbd.cfg.tickRateHz site.waitMs))
    | .devMalloc _ _ => c.rc == 0
    | .gapConnect .open d => (s.dev? d).all fun dev => connectAccepted c s dev.bda
    | .readConnId .open d => (s.dev? d).all fun dev => decide (0 ≤ dev.connId)
    | _ => true
  env _ _ := true

/-! ## The invariant -/

def Stage.kind? : Stage → Option CallKind
  | .none => Option.none
  | .called _ => some .open
  | .begun kind _ | .failed kind _ | .connecting kind _ | .linked kind _ _ | .marked kind _
  | .opened kind _ => some kind

/-- What the open event of the call in progress is so far. -/
def Stage.events : Stage → List (DevId × Int)
  | .opened _ d => [(d, 0)]
  | _ => []

/-- Nothing more is to come of the open. -/
def Stage.settled : Stage → Bool
  | .none | .opened _ _ => true
  | _ => false

structure AnswerInv (v : View) : Prop where
  kind : v.ctl.stage.kind? = callKind? v.trace
  unfailed : ∀ d, v.ctl.stage ≠ .failed .open d
  events : v.ctl.stage ≠ .none → openEvents v.trace = v.ctl.stage.events
  due : v.ctl.phase.waits = true → v.ctl.stage.settled = true → v.Due
  rule : Obeys AnswerRule v.trace

theorem Stage.Within.kind? {st st' : Stage} (h : st'.Within st) : st'.kind? = st.kind? := by
  rcases h with rfl | ⟨step, rfl⟩
  · rfl
  · cases st <;> rfl

theorem Stage.Within.events {st st' : Stage} (h : st'.Within st) : st'.events = st.events := by
  rcases h with rfl | ⟨step, rfl⟩
  · rfl
  · cases st <;> rfl

theorem Stage.Within.settled {st st' : Stage} (h : st'.Within st) : st'.settled = st.settled := by
  rcases h with rfl | ⟨step, rfl⟩
  · rfl
  · cases st <;> rfl

theorem Stage.Within.failed {st st' : Stage} (h : st'.Within st) {kind : CallKind} {d : DevId}
    (hst : st' = .failed kind d) : st = .failed kind d := by
  rcases h with rfl | ⟨step, rfl⟩
  · exact hst
  · cases st <;> first | exact hst | cases hst

/-- Only a call of `esp_hidh_dev_open` leads to its wait. -/
theorem View.PhaseStep.waits {o : Op} {v : View} {q r : Phase} (h : View.PhaseStep v o q r)
    (hr : r.waits = true) :
    q = r ∨ ∃ site bda, o = .openCall site bda := by
  cases h with
  | stays => exact .inl rfl
  | bonded bda => exact .inr ⟨_, bda, rfl⟩
  | connecting bda => exact .inr ⟨_, bda, rfl⟩
  | announced next hshows =>
    cases r with
    | bonded | connecting => cases hshows
    | _ => cases hr
  | _ => cases hr

namespace AnswerInv

variable {v v' : View} {o : Op} {c : Choice}

/-- Happenings that neither bound a call nor post an open event. -/
def Quiet (l : List Obs) : Prop := ∀ obs ∈ l, obs.bounds = false ∧ obs.openEvent? = none

theorem callKind?_append {l trace : List Obs} (h : Quiet l) :
    callKind? (l ++ trace) = callKind? trace := by
  have hnone : l.find? Obs.bounds = none :=
    List.find?_eq_none.mpr fun obs hobs => by simp [(h obs hobs).1]
  rw [callKind?, List.find?_append, hnone, Option.none_or, callKind?]

theorem openEvents_append {l trace : List Obs} (h : Quiet l) :
    openEvents (l ++ trace) = openEvents trace := by
  have hnone : l.filterMap Obs.openEvent? = [] :=
    List.filterMap_eq_nil_iff.mpr fun obs hobs => (h obs hobs).2
  rw [openEvents, since_append fun obs hobs => (h obs hobs).1, List.filterMap_append, hnone,
    List.nil_append, openEvents]

theorem rule_append {l trace : List Obs} (h : Quiet l) (hrule : Obeys AnswerRule trace) :
    Obeys AnswerRule (l ++ trace) := by
  refine hrule.append fun obs hobs before => ?_
  obtain ⟨hbounds, hopens⟩ := h obs hobs
  cases obs with
  | returned r => cases hbounds
  | posted p => exact fun hne => absurd hopens hne
  | _ => trivial

/-- A step within a call, or outside of one. -/
theorem of_quiet {l : List Obs} (h : AnswerInv v) (htrace : v'.trace = l ++ v.trace)
    (hquiet : Quiet l) (hkind : v'.ctl.stage.kind? = v.ctl.stage.kind?)
    (hunfailed : ∀ d, v'.ctl.stage ≠ .failed .open d)
    (hevents : v'.ctl.stage.events = v.ctl.stage.events)
    (hdue : v'.ctl.phase.waits = true → v'.ctl.stage.settled = true → v'.Due) : AnswerInv v' where
  kind := by rw [hkind, h.kind, htrace, callKind?_append hquiet]
  unfailed := hunfailed
  events hne := by
    have hne' : v.ctl.stage ≠ .none := by
      intro hnone
      rw [hnone] at hkind
      cases hst : v'.ctl.stage with
      | none => exact hne hst
      | _ =>
        rw [hst] at hkind
        cases hkind
    rw [htrace, openEvents_append hquiet, h.events hne', hevents]
  due := hdue
  rule := by rw [htrace]; exact rule_append hquiet h.rule

/-! ### Operations -/

/-- What is due stays due, unless it is taken. -/
theorem due_exec (h : v.Due) (hready : ∀ kind d, o = .postOpen kind d → v.eventQueue.hasRoom = true)
    (htake : ∀ since ticks, o = .take .openDone since ticks → v.kbd.openDoneSem = false) :
    (v.exec o c).Due := by
  rcases h with hsem | ⟨p, hgive⟩
  · refine .inl ?_
    have hsem' : v.kbd.sem .openDone = true := hsem
    have hnext : v.nextSem o .openDone = true := by
      cases o with
      | take sem since ticks =>
        cases sem with
        | openDone =>
          rw [htake since ticks rfl] at hsem
          cases hsem
        | connected | disconnected => simp [View.nextSem, hsem']
      | give sem => simp [View.nextSem, hsem']
      | takeConnected | awaitDisconnect _ _ | awaitClosed _ _ => simp [View.nextSem, hsem']
      | _ => exact hsem'
    exact (View.exec_sem o c v .openDone).trans hnext
  · refine .inr ⟨p, ?_⟩
    rw [View.exec_agenda o c v hready]
    cases o with
    | postOpen kind d => exact List.mem_append_left _ hgive
    | _ => exact hgive

/-- The operations that begin or end a call, or post its answer. -/
def bounding : Op → Bool
  | .openCall _ _ | .reconnectCall _ | .openReturns _ | .reconnectReturns _ | .postOpen _ _ => true
  | _ => false

theorem quiet_noted (h : bounding o = false) : Quiet (v.noted o c).toList := by
  intro obs hobs
  have hnoted := View.noted_origin (Option.mem_toList.mp hobs)
  cases obs with
  | openCall site bda known =>
    obtain rfl := hnoted
    cases h
  | reconnectCall d =>
    obtain rfl := hnoted
    cases h
  | returned r => rcases hnoted with rfl | rfl <;> cases h
  | posted p =>
    obtain ⟨kind, d, rfl, -⟩ := hnoted
    cases h
  | _ => exact ⟨rfl, rfl⟩

/-- An operation within a call, or outside of one. -/
theorem exec_frame {t : Stage} (h : AnswerInv v) (hat : o.At v.ctl) (hbounding : bounding o = false)
    (hstage : v.nextStage o c = t) (hkind : t.kind? = v.ctl.stage.kind?)
    (hunfailed : ∀ d, t ≠ .failed .open d) (hevents : t.events = v.ctl.stage.events)
    (hsettled : t.settled = v.ctl.stage.settled) : AnswerInv (v.exec o c) := by
  have hstage' : (v.exec o c).ctl.stage = t := (View.exec_stage o c v).trans hstage
  refine h.of_quiet (View.exec_trace o c v) (quiet_noted hbounding) ?_ ?_ ?_ fun hwaits hst => ?_
  · rw [hstage', hkind]
  · rw [hstage']
    exact hunfailed
  · rw [hstage', hevents]
  · rw [hstage', hsettled] at hst
    have hstep := View.phaseStep (v := v) hat
    rw [View.exec_phase] at hwaits
    rcases hstep.waits hwaits with heq | ⟨site, bda, rfl⟩
    · rw [← heq] at hwaits
      refine due_exec (h.due hwaits hst) (fun kind d ho => ?_) fun since ticks ho => ?_
      · subst ho
        cases hbounding
      · subst ho
        -- a token that is taken ends the wait
        by_contra hsem
        have hanswer : v.ctl.phase = v.ctl.phase.answer := by
          simpa [View.nextPhase, Bool.not_eq_false _ ▸ hsem] using heq
        cases hph : v.ctl.phase <;> rw [hph] at hwaits hanswer <;> cases hwaits <;> cases hanswer
    · cases hbounding

/-- A call begins. -/
theorem begin {obs : Obs} {kind : CallKind} (h : AnswerInv v) (htrace : v'.trace = obs :: v.trace)
    (hcalls : obs.calls? = some kind) (hkind : v'.ctl.stage.kind? = some kind)
    (hunfailed : ∀ d, v'.ctl.stage ≠ .failed .open d) (hevents : v'.ctl.stage.events = [])
    (hsettled : v'.ctl.stage.settled = false) : AnswerInv v' := by
  have hbounds : obs.bounds = true := by
    cases obs <;> first | rfl | cases hcalls
  constructor
  · rw [hkind, htrace, callKind?, List.find?_cons_of_pos hbounds]
    exact hcalls.symm
  · exact hunfailed
  · rw [hevents, htrace, openEvents, since_cons_of_pos hbounds]
    exact fun _ => rfl
  · rw [hsettled]
    exact fun _ => nofun
  · rw [htrace]
    refine obeys_cons.mpr ⟨?_, h.rule⟩
    cases obs with
    | openCall _ _ _ | reconnectCall _ => trivial
    | _ => cases hcalls

/-- The open event of a call is posted. -/
theorem postOpen {kind : CallKind} {d : DevId} (h : AnswerInv v)
    (hroom : v.eventQueue.hasRoom = true) (hstage : v.ctl.stage = .marked kind d) :
    AnswerInv (v.exec (.postOpen kind d) c) := by
  have hcall : callKind? v.trace = some kind := by rw [← h.kind, hstage]; rfl
  have htrace : (v.exec (.postOpen kind d) c).trace = .posted ⟨v.nextSeq, .open d 0⟩ :: v.trace := rfl
  have hnone : openEvents v.trace = [] := by
    rw [h.events (by simp [hstage]), hstage]
    rfl
  constructor
  · exact hcall.symm
  · exact fun _ h => by cases h
  · intro _
    exact congrArg ((d, 0) :: ·) hnone
  · refine fun _ _ => .inr ⟨⟨v.nextSeq, .open d 0⟩, ?_⟩
    rw [View.exec_agenda _ _ _ fun _ _ _ => hroom]
    exact List.mem_append_right _ (by simp [View.work, hidhSteps])
  · refine obeys_cons.mpr ⟨fun _ => ?_, h.rule⟩
    rw [hcall]
    simp

/-- A call returns. -/
theorem returns {r : Option DevId} (h : AnswerInv v) (htrace : v'.trace = .returned r :: v.trace)
    (hstage : v'.ctl.stage = .none)
    (hdue : v'.ctl.phase.waits = true → v'.Due)
    (hrule : callKind? v.trace = some .open → v.ctl.stage = .opened .open (r.getD 0) ∧ r.isSome) :
    AnswerInv v' := by
  constructor
  · rw [hstage, htrace]
    rfl
  · rw [hstage]
    exact nofun
  · exact fun hne => absurd hstage hne
  · exact fun hwaits _ => hdue hwaits
  · rw [htrace]
    refine obeys_cons.mpr ⟨fun hcall => ?_, h.rule⟩
    obtain ⟨hopened, hsome⟩ := hrule hcall
    obtain ⟨d, rfl⟩ := Option.isSome_iff_exists.mp hsome
    refine (h.events ?_).trans ?_ <;> rw [hopened]
    · exact nofun
    · rfl

/-- **An operation at its place, in a run whose opens succeed, answers the calls.** -/
theorem exec {s : Sys} (h : AnswerInv s.view) (hready : o.ready s = true)
    (hg : succeeds.main o c s = true) (hat : o.At s.ctl) : AnswerInv (s.view.exec o c) := by
  have hmove : ∀ (o : Op) (t : Stage), o.At s.ctl → bounding o = false →
      s.view.nextStage o c = t → t.kind? = s.view.ctl.stage.kind? → (∀ d, t ≠ .failed .open d) →
      t.events = s.view.ctl.stage.events → t.settled = s.view.ctl.stage.settled →
      AnswerInv (s.view.exec o c) :=
    fun o t hat hbounding hstage hkind hunfailed hevents hsettled =>
      h.exec_frame hat hbounding hstage hkind hunfailed hevents hsettled
  have hstay : ∀ o : Op, o.At s.ctl → bounding o = false →
      (s.view.nextStage o c).Within s.view.ctl.stage → AnswerInv (s.view.exec o c) :=
    fun o hat hbounding hwithin => hmove o _ hat hbounding rfl hwithin.kind?
      (fun d hst => h.unfailed d (hwithin.failed hst)) hwithin.events hwithin.settled
  cases o with
  | openCall site bda =>
    have hnone : s.getByBda bda = none := by
      simp only [succeeds, Bool.and_eq_true, Option.isNone_iff_eq_none] at hg
      exact hg.1.1
    have hnew : s.view.byBda bda = none := by rw [byBda_view, hnone, Option.map_none]
    have hstage : (s.view.exec (.openCall site bda) c).ctl.stage = .called bda := by
      rw [View.exec_stage]
      simp [View.nextStage, hnew]
    refine h.begin (View.exec_trace ..) rfl ?_ ?_ ?_ ?_ <;> rw [hstage]
    · rfl
    · simp
    · rfl
    · rfl
  | reconnectCall d =>
    have hstage : (s.view.exec (.reconnectCall d) c).ctl.stage = .begun .reconnect d := rfl
    refine h.begin (View.exec_trace ..) rfl ?_ ?_ ?_ ?_ <;> rw [hstage]
    · rfl
    · simp
    · rfl
    · rfl
  | postOpen kind d => exact h.postOpen hready hat.1
  | openReturns r =>
    have hphase := View.exec_phase (.openReturns r) c s.view
    refine h.returns (View.exec_trace ..) (View.exec_stage ..) (fun hwaits => ?_) fun hcall => ?_
    · have hsettled : s.view.ctl.stage.settled = true := by
        cases r with
        | none => rw [show s.view.ctl.stage = .none from hat.1]; rfl
        | some d => rw [show s.view.ctl.stage = .opened .open d from hat.1]; rfl
      exact due_exec (h.due (by rwa [hphase] at hwaits) hsettled) (by simp) (by simp)
    · cases r with
      | none =>
        have hkind := h.kind
        rw [show s.view.ctl.stage = .none from hat.1, hcall] at hkind
        cases hkind
      | some d => exact ⟨hat.1, rfl⟩
  | reconnectReturns r =>
    have hph : s.view.ctl.phase = .reconnecting := by
      cases r <;> exact hat.2.2
    have hkind : s.view.ctl.stage.kind? = some .reconnect := by
      cases r with
      | none =>
        obtain ⟨d, hst | hst⟩ := hat.1 <;> rw [show s.view.ctl.stage = _ from hst] <;> rfl
      | some d => rw [show s.view.ctl.stage = .opened .reconnect d from hat.1]; rfl
    refine h.returns (View.exec_trace ..) (View.exec_stage ..) (fun hwaits => ?_) fun hcall => ?_
    · rw [View.exec_phase] at hwaits
      cases r with
      | none =>
        rw [View.nextPhase, hph] at hwaits
        cases hwaits
      | some d => cases hwaits
    · rw [h.kind, hcall] at hkind
      cases hkind
  | devMalloc bda addrType =>
    have hcalled : s.view.ctl.stage = .called bda := hat.2.1
    have hrc : c.rc = 0 := by simpa [succeeds] using hg
    refine hmove _ (.begun .open s.view.nextDev) hat rfl (if_pos hrc) ?_ (by simp) ?_ ?_ <;>
      rw [hcalled] <;> rfl
  | devFree d => exact absurd hat.1 (h.unfailed d)
  | gapConnect kind d =>
    have hbegun : s.view.ctl.stage = .begun kind d := hat.1
    cases hdev : s.dev? d with
    | none => exact hstay _ hat rfl (.inl (by simp [View.nextStage, hdev]))
    | some dev =>
      have hkey : s.view.key? d = some dev.key := by rw [key?_view, hdev]; rfl
      refine hmove _ (if connectAccepted c s dev.bda then .connecting kind d else .failed kind d)
        hat rfl (by simp only [View.nextStage, hkey]; rfl) ?_ (fun d' hd' => ?_) ?_ ?_
      · rw [hbegun]
        split <;> rfl
      · cases kind with
        | «open» =>
          have haccept : connectAccepted c s dev.bda = true := by simpa [succeeds, hdev] using hg
          rw [if_pos haccept] at hd'
          cases hd'
        | reconnect => split at hd' <;> cases hd'
      · rw [hbegun]
        split <;> rfl
      · rw [hbegun]
        split <;> rfl
  | readConnId kind d =>
    have hconnecting : s.view.ctl.stage = .connecting kind d := hat.1
    cases hdev : s.dev? d with
    | none => exact hstay _ hat rfl (.inl (by simp [View.nextStage, hdev]))
    | some dev =>
      refine hmove _ (if 0 ≤ dev.connId then .linked kind d .fresh else .failed kind d)
        hat rfl (by simp [View.nextStage, hdev, Dev.key]) ?_ (fun d' hd' => ?_) ?_ ?_
      · rw [hconnecting]
        split <;> rfl
      · cases kind with
        | «open» =>
          have hlinked : 0 ≤ dev.connId := by simpa [succeeds, hdev] using hg
          rw [if_pos hlinked] at hd'
          cases hd'
        | reconnect => split at hd' <;> cases hd'
      · rw [hconnecting]
        split <;> rfl
      · rw [hconnecting]
        split <;> rfl
  | setConnected kind d =>
    obtain ⟨step, hlinked, -⟩ := hat.1
    have hlinked' : s.view.ctl.stage = .linked kind d step := hlinked
    refine hmove _ (.marked kind d) hat rfl rfl ?_ (by simp) ?_ ?_ <;> rw [hlinked'] <;> rfl
  | _ => exact hstay _ hat rfl (View.nextStage_within c _ rfl)

/-! ### Events -/

/-- The event task gives what is due. -/
theorem due_effect {e : Event} (h : v.Due) (hwork : View.WorkOf v) (heff : View.Effect e v v') :
    v'.Due := by
  by_cases he : e = .dispatch
  · subst he
    rcases heff.dispatch with ⟨p, step, rest, -, hagenda, rfl⟩ | ⟨hagenda, p, queue, rest, rfl⟩
    · have hmem : (p, step) ∈ v.agenda := hagenda ▸ List.mem_cons_self
      have hstep := hwork.event hmem
      rcases h with hsem | ⟨q, hgive⟩
      · refine .inl ?_
        rw [View.setHandling_kbd]
        cases step with
        | take sem =>
          cases sem with
          | connected => exact hsem
          | disconnected | openDone => exact hstep.elim
        | give sem =>
          cases sem with
          | openDone => rfl
          | connected | disconnected => exact hsem
        | setHidhDev _ | compare _ _ | emit _ | remember _ | free _ => exact hsem
      · rw [hagenda] at hgive
        rcases List.mem_cons.mp hgive with heq | hgive
        · cases heq
          refine .inl ?_
          rw [View.setHandling_kbd]
          rfl
        · exact .inr ⟨q, hgive⟩
    · rw [View.Due, hagenda, View.setHandling_kbd]
      exact h
  · rcases h with hsem | ⟨q, hgive⟩
    · exact .inl ((congrFun (heff.kbd he).2 .openDone).trans hsem)
    · refine .inr ⟨q, ?_⟩
      rcases heff.agenda_append he with hsame | ⟨event, happend, -⟩
      · rw [hsame]
        exact hgive
      · rw [happend]
        exact List.mem_append_left _ hgive

/-- No event bounds a call or posts an open event. -/
theorem effect {e : Event} (h : AnswerInv v) (hwork : View.WorkOf v) (heff : View.Effect e v v') :
    AnswerInv v' := by
  obtain ⟨l, htrace, hquiet⟩ : ∃ l, v'.trace = l ++ v.trace ∧ Quiet l := by
    by_cases he : e = .dispatch
    · subst he
      obtain ⟨-, l, htrace, hbeside, hposted, -⟩ := heff.handles
      refine ⟨l, htrace, fun obs hobs => ?_⟩
      have hb := hbeside obs hobs
      cases obs with
      | posted p => exact absurd hobs (hposted p)
      | openCall _ _ _ | reconnectCall _ | returned _ => cases hb
      | _ => exact ⟨rfl, rfl⟩
    · obtain ⟨l, event?, hlogs, hbeside, hcause⟩ := heff.logs he
      refine ⟨l, hlogs.trace, fun obs hobs => ?_⟩
      have hb := hbeside obs hobs
      cases obs with
      | posted p =>
        obtain ⟨event, hsome, rfl⟩ := Option.map_eq_some_iff.mp ((hlogs.posted p).mp hobs)
        refine ⟨rfl, ?_⟩
        cases event with
        | «open» d rc =>
          rcases hcause _ hsome with hnone | ⟨_, _, _, -, -, -, heq⟩
          · simpa [HidhEvent.linkUp?] using hnone d
          · cases heq
        | _ => rfl
      | openCall _ _ _ | reconnectCall _ | returned _ => cases hb
      | _ => exact ⟨rfl, rfl⟩
  have hctl := heff.ctl
  refine h.of_quiet htrace hquiet ?_ ?_ ?_ ?_ <;> rw [hctl]
  · exact h.unfailed
  · exact fun hwaits hsettled => due_effect (h.due hwaits hsettled) hwork heff

end AnswerInv

theorem ticks_lt_of_inTime {now deadline ticks : UInt32} (h : InTime now deadline ticks) :
    now < deadline := by
  obtain ⟨hle, hlt⟩ := h
  have hstart : (deadline - ticks).toNat = deadline.toNat - ticks.toNat := UInt32.toNat_sub_of_le _ _ hle
  by_contra hover
  have hover' : deadline ≤ now := UInt32.not_lt.mp hover
  rw [UInt32.le_iff_toNat_le] at hle hover'
  have hsince : (now - (deadline - ticks)).toNat = now.toNat - (deadline - ticks).toNat := by
    refine UInt32.toNat_sub_of_le _ _ (UInt32.le_iff_toNat_le.mpr ?_)
    omega
  rw [UInt32.lt_iff_toNat_lt] at hlt
  omega

/-- What is given, and what is about to be given, is of this call. -/
structure OwnWait (v : View) : Prop where
  gives : v.ctl.phase.waits = true → ∀ p, (p, .give .openDone) ∈ v.agenda →
    .posted p ∈ sinceOpen v.trace
  token : v.ctl.phase.waits = true → v.kbd.openDoneSem = true → OpenHandled (sinceOpen v.trace)
  answered : ∀ site, v.ctl.phase = .answered site → OpenHandled (sinceOpen v.trace)
  inTime : ∀ site, v.ctl.phase ≠ .expired site

theorem OpenHandled.mono {l l' : List Obs} (h : OpenHandled l) (hl : l ⊆ l') : OpenHandled l' := by
  obtain ⟨p, d, status, hp, hposted, hhandled⟩ := h
  exact ⟨p, d, status, hp, hl hposted, hl hhandled⟩

theorem sinceOpen_subset {l trace : List Obs} (h : ∀ o ∈ l, o.opensCall = false) :
    sinceOpen trace ⊆ sinceOpen (l ++ trace) := by
  rw [sinceOpen, sinceOpen, since_append h]
  exact List.subset_append_right _ _

/-- Which phases come from one in which the wait is over. -/
theorem View.PhaseStep.answered_cases {o : Op} {v : View} {q : Phase} {site : OpenSite}
    (h : View.PhaseStep v o q (.answered site)) :
    q = .answered site ∨ q.waits = true ∧ v.kbd.openDoneSem = true := by
  generalize hr : Phase.answered site = r at h
  cases h with
  | stays => exact .inl rfl
  | announced next hshows =>
    subst hr
    cases hshows
  | answered site' hsem => exact .inr ⟨by cases site' <;> rfl, hsem⟩
  | _ => cases hr

theorem View.PhaseStep.expired_cases {o : Op} {v : View} {q : Phase} {site : OpenSite}
    (h : View.PhaseStep v o q (.expired site)) :
    q = .expired site ∨ ∃ deadline, o = .beforeDeadline site deadline ∧ deadline ≤ v.ticks := by
  generalize hr : Phase.expired site = r at h
  cases h with
  | stays => exact .inl rfl
  | announced next hshows =>
    subst hr
    cases hshows
  | expired site' hover =>
    cases hr
    exact .inr ⟨_, rfl, hover⟩
  | _ => cases hr

namespace OwnWait

variable {v v' : View} {o : Op} {c : Choice}

theorem boot (cfg : KbdConfig) (bonds : List (Bda × UInt8)) :
    OwnWait (Host.boot cfg bonds).state.view where
  gives := nofun
  token := nofun
  answered := nofun
  inTime := nofun

/-- A call begins, with nothing given. -/
theorem openCall {site : OpenSite} {bda : Bda} (hsem : v.kbd.openDoneSem = false)
    (hgives : ∀ p, (p, .give .openDone) ∉ v.agenda) :
    OwnWait (v.exec (.openCall site bda) c) := by
  have hagenda : (v.exec (.openCall site bda) c).agenda = v.agenda :=
    View.exec_agenda _ _ _ (by simp)
  have hphase : (v.exec (.openCall site bda) c).ctl.phase = site.phase := View.exec_phase ..
  constructor
  · intro _ p hgive
    exact absurd (hagenda ▸ hgive) (hgives p)
  · intro _ htoken
    have htoken' : v.kbd.openDoneSem = true := htoken
    rw [hsem] at htoken'
    cases htoken'
  · rw [hphase]
    cases site <;> exact nofun
  · rw [hphase]
    cases site <;> exact nofun

/-- **Any other operation leaves what is given to this call.** -/
theorem exec_other (h : OwnWait v) (hready : ∀ kind d, o = .postOpen kind d → v.eventQueue.hasRoom = true)
    (hat : o.At v.ctl) (hcall : ∀ site bda, o ≠ .openCall site bda)
    (hdeadline : ∀ site deadline, o = .beforeDeadline site deadline → v.ticks < deadline) :
    OwnWait (v.exec o c) := by
  have hstep := View.phaseStep hat
  have hsub : sinceOpen v.trace ⊆ sinceOpen (v.exec o c).trace := by
    rw [View.exec_trace]
    refine sinceOpen_subset fun obs hobs => ?_
    have hnoted := View.noted_origin (Option.mem_toList.mp hobs)
    cases obs with
    | openCall site bda known => exact absurd hnoted (hcall site bda)
    | _ => rfl
  have hwaits : (v.exec o c).ctl.phase.waits = true → v.ctl.phase.waits = true := by
    rw [View.exec_phase]
    intro hph
    rcases hstep.waits hph with heq | ⟨site, bda, ho⟩
    · rwa [heq]
    · exact absurd ho (hcall site bda)
  constructor
  · intro hph p hgive
    rw [View.exec_agenda o c v hready] at hgive
    cases o with
    | postOpen kind d =>
      rcases List.mem_append.mp hgive with hold | hnew
      · exact hsub (h.gives (hwaits hph) p hold)
      · obtain ⟨step, -, heq⟩ := List.mem_map.mp hnew
        cases heq
        rw [View.exec_trace, sinceOpen, since_append (by simp [View.noted, Obs.opensCall])]
        exact List.mem_append_left _ List.mem_cons_self
    | _ => exact hsub (h.gives (hwaits hph) p hgive)
  · intro hph htoken
    have hnext : v.nextSem o .openDone = true := (View.exec_sem o c v .openDone).symm.trans htoken
    refine (h.token (hwaits hph) ?_).mono hsub
    cases o with
    | give sem =>
      have hphase : v.ctl.phase = .accepted := congrArg Ctl.phase hat
      have hwait := hwaits hph
      rw [hphase] at hwait
      cases hwait
    | take _ _ _ | takeConnected | awaitDisconnect _ _ | awaitClosed _ _ =>
      exact (Bool.and_eq_true_iff.mp hnext).1
    | _ => exact hnext
  · intro site hph
    rw [View.exec_phase] at hph
    rcases (hph ▸ hstep).answered_cases with hold | ⟨hwait, hsem⟩
    · exact (h.answered site hold).mono hsub
    · exact (h.token hwait hsem).mono hsub
  · intro site hph
    rw [View.exec_phase] at hph
    rcases (hph ▸ hstep).expired_cases with hold | ⟨deadline, ho, hover⟩
    · exact h.inTime site hold
    · exact UInt32.not_lt.mpr hover (hdeadline site deadline ho)

theorem exec {s : Sys} (h : OwnWait s.view) (hready : o.ready s = true)
    (hg : succeeds.main o c s = true) (hat : o.At s.ctl) : OwnWait (s.view.exec o c) := by
  cases o with
  | openCall site bda =>
    simp only [succeeds, Bool.and_eq_true, Bool.not_eq_true', List.all_eq_true] at hg
    exact openCall hg.1.2 fun p hgive => by simpa using hg.2 _ hgive
  | beforeDeadline site deadline =>
    refine h.exec_other nofun hat nofun fun site' deadline' ho => ?_
    cases ho
    exact ticks_lt_of_inTime (of_decide_eq_true hg)
  | postOpen kind d => exact h.exec_other (fun _ _ _ => hready) hat nofun nofun
  | _ => exact h.exec_other nofun hat nofun nofun

/-- **The event task gives what this call's event is for.** -/
theorem effect {e : Event} (h : OwnWait v) (hwork : View.WorkOf v) (hlog : EventLog v)
    (heff : View.Effect e v v') : OwnWait v' := by
  have hctl := heff.ctl
  obtain ⟨l, htrace, hrecords⟩ := heff.records
  have hsub : sinceOpen v.trace ⊆ sinceOpen v'.trace := by
    rw [htrace]
    refine sinceOpen_subset fun obs hobs => ?_
    have hby := hrecords obs hobs
    cases obs with
    | openCall _ _ _ => exact hby.elim
    | _ => rfl
  refine ⟨?_, ?_, fun site hph => (h.answered site (hctl ▸ hph)).mono hsub,
    fun site hph => h.inTime site (hctl ▸ hph)⟩ <;> rw [hctl] <;> intro hph
  · intro p hgive
    refine hsub (h.gives hph p ?_)
    by_cases he : e = .dispatch
    · subst he
      rcases heff.dispatch with ⟨q, step, rest, -, hagenda, -⟩ | ⟨hagenda, -⟩
      · exact hagenda ▸ List.mem_cons_of_mem _ hgive
      · exact hagenda ▸ hgive
    · rcases heff.agenda_append he with hsame | ⟨event, happend, hopen⟩
      · exact hsame ▸ hgive
      · rw [happend] at hgive
        refine (List.mem_append.mp hgive).resolve_right fun hnew => ?_
        obtain ⟨step, hstep, heq⟩ := List.mem_map.mp hnew
        cases heq
        cases event with
        | «open» d status => exact hopen d status rfl
        | input _ _ _ usage _ => by_cases husage : usage = .keyboard <;> simp [hidhSteps, husage] at hstep
        | _ => simp [hidhSteps] at hstep
  · intro htoken
    by_cases he : e = .dispatch
    · subst he
      rcases heff.dispatch with ⟨p, step, rest, hhandling, hagenda, rfl⟩ | ⟨-, p, queue, rest, rfl⟩
      · by_cases hgive : step = .give .openDone
        · subst hgive
          have hmem : (p, .give .openDone) ∈ v.agenda := hagenda ▸ List.mem_cons_self
          obtain ⟨d, hopen⟩ : ∃ d, p.event = .open d 0 := hwork.event hmem
          have hsuffix := hlog.steps p _ hhandling
          have hrest : rest = [] := by
            rw [hopen] at hsuffix
            simpa [hidhSteps, List.suffix_cons_iff] using hsuffix
          subst hrest
          refine ⟨p, d, 0, hopen, hsub (h.gives hph p hmem), ?_⟩
          exact List.mem_cons_self
        · refine (h.token hph ?_).mono hsub
          rw [View.setHandling_kbd] at htoken
          cases step with
          | give sem =>
            cases sem with
            | openDone => exact absurd rfl hgive
            | connected | disconnected => exact htoken
          | take sem =>
            cases sem with
            | openDone => cases htoken
            | connected | disconnected => exact htoken
          | _ => exact htoken
      · rw [View.setHandling_kbd] at htoken
        exact (h.token hph htoken).mono hsub
    · exact (h.token hph ((congrFun (heff.kbd he).2 .openDone).symm.trans htoken)).mono hsub

end OwnWait

end BleKbdHost.Host
