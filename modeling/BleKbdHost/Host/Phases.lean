import BleKbdHost.Host.Frame

/-!
# States and phases

Which state `s_state` holds in which phase of the main task.
-/

namespace BleKbdHost.Host

open Hid Keys Conc

/-- The state that goes with a phase: none in `do_pair`, which comes from several, and after an
attempt of either kind. -/
def Phase.state? : Phase → Option KbdState
  | .start => some .idle
  | .reconnecting | .requested | .bonded | .answered .bonded | .expired .bonded | .refused .bonded
  | .repairing .bonded => some .reconnecting
  | .scanning | .copied _ | .picking _ | .picked _ | .chosen _ => some .scanning
  | .selected _ | .connecting | .answered .selected | .expired .selected | .refused .selected
  | .repairing .connecting => some .connecting
  | .connected | .dropped | .repairing .connected | .closing _ => some .connected
  | .announcing next => next.state?
  | .pairing _ | .accepted => none

namespace View

variable {o : Op} {v : View} {st : KbdState}

/-- Only `set_state` writes the state. -/
theorem exec_state (o : Op) (c : Choice) (v : View) :
    (v.exec o c).kbd.state =
      match o with
      | .setState st => st
      | _ => v.kbd.state := by
  cases o with
  | awaitDisconnect _ _ | peekCmd _ | emitKey _ | devMalloc _ _ | reconnectReturns _ =>
    simp only [exec]
    split <;> rfl
  | gapConnect kind d =>
    simp only [exec]
    split
    · rfl
    · split <;> rfl
  | readConnId kind d =>
    simp only [exec]
    split <;> rfl
  | _ => rfl

theorem Effect.state {e : Event} {v v' : View} (h : Effect e v v') :
    v'.kbd.state = v.kbd.state := by
  cases h with
  | disconnected _ link reason hfind hroom => rw [linkDown_kbd]
  | popped _ p ps hnone hitems => rw [setHandling_kbd]
  | stepped _ p step steps hsome =>
    rw [setHandling_kbd]
    cases step <;> rfl
  | settled _ p hsome => rw [setHandling_kbd]
  | _ => rfl

/-- The main task only clears `force_repair`. -/
theorem exec_cfg (o : Op) (c : Choice) (v : View) :
    (v.exec o c).kbd.cfg =
      match o with
      | .clearForceRepair => { v.kbd.cfg with forceRepair := false }
      | _ => v.kbd.cfg := by
  cases o with
  | awaitDisconnect _ _ | peekCmd _ | emitKey _ | devMalloc _ _ | reconnectReturns _ =>
    simp only [exec]
    split <;> rfl
  | gapConnect kind d =>
    simp only [exec]
    split
    · rfl
    · split <;> rfl
  | readConnId kind d =>
    simp only [exec]
    split <;> rfl
  | _ => rfl

theorem exec_onStatus (o : Op) (c : Choice) (v : View) :
    (v.exec o c).kbd.cfg.onStatus = v.kbd.cfg.onStatus := by
  rw [exec_cfg]
  split <;> rfl

theorem Effect.cfg {e : Event} {v v' : View} (h : Effect e v v') : v'.kbd.cfg = v.kbd.cfg := by
  cases h with
  | disconnected _ link reason hfind hroom => rw [linkDown_kbd]
  | popped _ p ps hnone hitems => rw [setHandling_kbd]
  | stepped _ p step steps hsome =>
    rw [setHandling_kbd]
    cases step <;> rfl
  | settled _ p hsome => rw [setHandling_kbd]
  | _ => rfl

/-- Only `set_state` begins an announcement, and only its callback ends it. -/
theorem PhaseStep.announcing {q r : Phase} (h : PhaseStep v o q r) (hset : ∀ st, o ≠ .setState st)
    (hstatus : ∀ st line1 line2, o ≠ .onStatus st line1 line2) :
    q = r ∨ (∀ next, q ≠ .announcing next) ∧ ∀ next, r ≠ .announcing next := by
  cases h with
  | stays => exact .inl rfl
  | setReconnecting | setScanning | setConnecting | setConnected => exact absurd rfl (hset _)
  | announced => exact absurd rfl (hstatus _ _ _)
  | answered site | expired site | repairing site => cases site <;> exact .inr ⟨nofun, nofun⟩
  | accepted site h | refused site h | failed h =>
    rcases h with rfl | rfl <;> exact .inr ⟨nofun, nofun⟩
  | cleared h =>
    rcases h with rfl | rfl | rfl | rfl | rfl | rfl <;> exact .inr ⟨nofun, nofun⟩
  | _ => exact .inr ⟨nofun, nofun⟩

/-- A step that does not set the state leads to a phase of a state from one of that state. -/
theorem PhaseStep.state? {q r : Phase} (h : PhaseStep v o q r) (hset : ∀ st, o ≠ .setState st)
    (hr : r.state? = some st) : q.state? = some st := by
  cases h with
  | setReconnecting | setScanning | setConnecting | setConnected => exact absurd rfl (hset _)
  | failed h => rcases h with rfl | rfl <;> exact hr
  | answered site | expired site | repairing site => cases site <;> exact hr
  | refused site h => rcases h with rfl | rfl <;> cases site <;> exact hr
  | stays | announced | requested | bonded | copied | updated _ | picking _ _ | picked _ _
  | ignored _ _ | chosen _ | connecting _ | dropped | found _ | unknown _ | unlisted _ | asked _
  | waited _ _ => exact hr
  | _ => cases hr

/-- Only the end of an attempt leads to an accepted one. -/
theorem PhaseStep.accepted_cases {q : Phase} (h : PhaseStep v o q .accepted) :
    q = .accepted ∨ q.state? = some .reconnecting ∨ q.state? = some .connecting := by
  generalize hr : Phase.accepted = r at h
  cases h with
  | stays => exact .inl rfl
  | announced next hshows =>
    subst hr
    cases hshows
  | reconnected d => exact .inr (.inl rfl)
  | accepted site h => rcases h with rfl | rfl <;> cases site <;> simp [Phase.state?]
  | _ => cases hr

end View

/-- The state is that of the phase, and an accepted attempt was one to reconnect or to connect. -/
structure StateOfPhase (v : View) : Prop where
  state : ∀ st, v.ctl.phase.state? = some st → v.kbd.state = st
  accepted : v.ctl.phase = .accepted →
    v.kbd.state = .reconnecting ∨ v.kbd.state = .connecting

namespace StateOfPhase

variable {s : Sys} {o : Op} {v v' : View}

/-- **An operation keeps state and phase together.** -/
theorem exec {c : Choice} (h : StateOfPhase s.view) (hat : o.At s.ctl) :
    StateOfPhase (s.view.exec o c) := by
  have hstep := View.phaseStep (v := s.view) hat
  by_cases hset : ∃ st, o = .setState st
  · obtain ⟨st, rfl⟩ := hset
    have hshows : (s.view.nextPhase (.setState st)).state? = some st ∧
        s.view.nextPhase (.setState st) ≠ .accepted := by
      cases st with
      | idle => exact hat.elim
      | reconnecting | scanning | connected => exact ⟨rfl, fun h => by cases h⟩
      | connecting =>
        obtain ⟨⟨addr, hph⟩, -⟩ := hat
        have hphase : s.view.ctl.phase = .chosen addr := hph
        simp only [View.nextPhase, hphase]
        exact ⟨rfl, fun h => by cases h⟩
    constructor
    · intro st' hst'
      rw [View.exec_phase, hshows.1] at hst'
      rw [View.exec_state]
      exact Option.some.inj hst'
    · intro hph
      rw [View.exec_phase] at hph
      exact absurd hph hshows.2
  · have hset' : ∀ st, o ≠ .setState st := fun st ho => hset ⟨st, ho⟩
    have hstate : (s.view.exec o c).kbd.state = s.view.kbd.state := by
      rw [View.exec_state]
      cases o with
      | setState st => exact absurd rfl (hset' st)
      | _ => rfl
    constructor
    · intro st hst
      rw [View.exec_phase] at hst
      rw [hstate]
      exact h.state st (hstep.state? hset' hst)
    · intro hph
      rw [View.exec_phase] at hph
      rw [hstate]
      rcases (hph ▸ hstep).accepted_cases with hacc | hst | hst
      · exact h.accepted hacc
      · exact .inl (h.state _ hst)
      · exact .inr (h.state _ hst)

theorem effect {e : Event} (h : StateOfPhase v) (heff : View.Effect e v v') : StateOfPhase v' := by
  constructor
  · rw [heff.ctl, heff.state]
    exact h.state
  · rw [heff.ctl, heff.state]
    exact h.accepted

end StateOfPhase

theorem stateOfPhase {g : Guard Op Choice Sys Event} {cfg : KbdConfig} {bonds : List (Bda × UInt8)}
    {c : HostConfig} (h : Reach host g (boot cfg bonds) c) : StateOfPhase c.state.view := by
  refine reach_keeps (I := fun s => StateOfPhase s.view) h ?_ ?_ ?_
  · exact ⟨fun st hst => Option.some.inj hst, nofun⟩
  · intro o ch s hinv _ _ _ hat
    rw [exec_view]
    exact hinv.exec hat
  · exact fun e s s' hinv _ _ hstep => hinv.effect (eventStep_view hstep)

/-! ## Transport calls -/

/-- The phases in which a transport call may be in progress. -/
def Phase.calling : Phase → Bool
  | .reconnecting | .bonded | .connecting => true
  | _ => false

/-- In the other phases none is. -/
def IdleOutside (v : View) : Prop :=
  v.ctl.phase.calling = false → v.ctl.stage = .none ∧ v.ctl.awaiting = false

/-- Between transport calls, an operation that begins none stays there. -/
theorem View.exec_idle {v : View} {o : Op} {c : Choice} (hat : o.At v.ctl)
    (hopen : ∀ site bda, o ≠ .openCall site bda) (hreconnect : ∀ d, o ≠ .reconnectCall d)
    (hstage : v.ctl.stage = .none) (hawait : v.ctl.awaiting = false) :
    (v.exec o c).ctl.stage = .none ∧ (v.exec o c).ctl.awaiting = false := by
  rw [View.exec_stage, View.exec_awaiting]
  cases o with
  | openCall site bda => exact absurd rfl (hopen site bda)
  | reconnectCall d => exact absurd rfl (hreconnect d)
  | waitCb =>
    have hwait : v.ctl.awaiting = true := hat
    rw [hawait] at hwait
    cases hwait
  | openReturns _ | reconnectReturns _ => exact ⟨rfl, hawait⟩
  | devMalloc _ _ =>
    rw [hat.2.1] at hstage
    cases hstage
  | devFree _ | gapConnect _ _ | readConnId _ _ | postOpen _ _ | discAllSvcs _ | discAllChrs _ _ _
  | discAllDscs _ _ _ | readLong _ _ _ | mallocReportMaps _ | mallocProtocolMode _ =>
    rw [hat.1] at hstage
    cases hstage
  | securityInitiate _ | takeSec _ _ _ =>
    obtain ⟨⟨kind, hlinked⟩, -⟩ := hat
    rw [hlinked] at hstage
    cases hstage
  | setConnected _ _ =>
    obtain ⟨⟨step, hlinked, -⟩, -⟩ := hat
    rw [hlinked] at hstage
    cases hstage
  | mallocReport | svcsDone =>
    obtain ⟨⟨d, hlinked⟩, -⟩ := hat
    rw [hlinked] at hstage
    cases hstage
  | writeFlat _ _ _ =>
    obtain ⟨⟨kind, d, hlinked⟩, -⟩ := hat
    rw [hlinked] at hstage
    cases kind <;> cases hstage
  | _ => exact ⟨hstage, hawait⟩

/-- A phase with calls is left between calls, or by the return of one. -/
theorem View.PhaseStep.idle {o : Op} {v : View} {q r : Phase} (h : View.PhaseStep v o q r)
    (hq : q.calling = true) (hr : r.calling = false) (hat : o.At v.ctl) :
    v.ctl.stage = .none ∧ v.ctl.awaiting = false ∨ ∃ d, o = .reconnectReturns d := by
  cases h with
  | stays =>
    rw [hq] at hr
    cases hr
  | reconnected d => exact .inr ⟨_, rfl⟩
  | setReconnecting | requested | accepted | refused | cleared => exact .inl hat.2
  | answered => exact .inl hat
  | repairing site | expired site =>
    have hctl : v.ctl = rest site.phase := hat
    rw [hctl]
    exact .inl ⟨rfl, rfl⟩
  | bonded | failed | connecting => cases hr
  | _ => cases hq

theorem IdleOutside.exec {v : View} {o : Op} {c : Choice} (h : IdleOutside v) (hat : o.At v.ctl) :
    IdleOutside (v.exec o c) := by
  intro hphase
  rw [View.exec_phase] at hphase
  by_cases hopen : ∃ site bda, o = .openCall site bda
  · obtain ⟨site, bda, rfl⟩ := hopen
    cases site <;> cases hphase
  by_cases hreconnect : ∃ d, o = .reconnectCall d
  · obtain ⟨d, rfl⟩ := hreconnect
    have hctl : v.ctl = rest .reconnecting := hat
    simp only [View.nextPhase, hctl] at hphase
    cases hphase
  have hstay := View.exec_idle (c := c) hat (fun site bda ho => hopen ⟨site, bda, ho⟩)
    fun d ho => hreconnect ⟨d, ho⟩
  cases hbefore : v.ctl.phase.calling with
  | false =>
    obtain ⟨hstage, hawait⟩ := h hbefore
    exact hstay hstage hawait
  | true =>
    rcases (View.phaseStep hat).idle hbefore hphase hat with ⟨hstage, hawait⟩ | ⟨d, rfl⟩
    · exact hstay hstage hawait
    · refine ⟨by rw [View.exec_stage]; rfl, ?_⟩
      rw [View.exec_awaiting]
      exact hat.awaiting_eq_false (by simp)

theorem idleOutside {g : Guard Op Choice Sys Event} {cfg : KbdConfig} {bonds : List (Bda × UInt8)}
    {c : HostConfig} (h : Reach host g (boot cfg bonds) c) : IdleOutside c.state.view := by
  refine reach_keeps (I := fun s => IdleOutside s.view) h (fun _ => ⟨rfl, rfl⟩) ?_ ?_
  · intro o ch s hinv _ _ _ hat
    rw [exec_view]
    exact hinv.exec hat
  · intro e s s' hinv _ _ hstep
    unfold IdleOutside
    rw [(eventStep_view hstep).ctl]
    exact hinv

end BleKbdHost.Host
