import BleKbdHost.Conc.Trace
import BleKbdHost.Host.EventLog
import BleKbdHost.Host.Phases

/-!
# Leaving CONNECTED

Whether the main task gives a connection up only for a close event of its own device, posted after
the device was opened. It goes by `s_disconnected_sem`, which any close event gives and which is not
drained when CONNECTED is entered: what an earlier connection left there ends the next one.
-/

namespace BleKbdHost.Host

open Hid Keys Conc

/-! ## The property -/

def Obs.state? : Obs → Option KbdState
  | .state st => some st
  | _ => none

/-- The state that was set last. -/
def lastState? (trace : List Obs) : Option KbdState := trace.findSome? Obs.state?

def Obs.returned? : Obs → Option (Option DevId)
  | .returned r => some r
  | _ => none

/-- The device of the current connection: what the last transport call returned. -/
def current? (trace : List Obs) : Option DevId := (trace.findSome? Obs.returned?).join

/-- Posted before the event with the given number, if an open event of the device. -/
def Obs.opensBefore (d : DevId) (n : Nat) : Obs → Bool
  | .posted q => q.event != .open d 0 || decide (q.seq < n)
  | _ => true

/-- A close event of the current device, posted after all its successful open events. -/
def ownClose (p : Posted) (trace : List Obs) : Bool :=
  match p.event with
  | .close d _ => current? trace == some d && trace.all (Obs.opensBefore d p.seq)
  | _ => false

/-- Such an event was handled. -/
def OwnClosed (trace : List Obs) : Prop := ∃ p, .handled p ∈ trace ∧ ownClose p trace = true

/-- CONNECTED is left for RECONNECTING only after the connection was closed. -/
def DropRule : Obs → List Obs → Prop
  | .state .reconnecting, before => lastState? before = some .connected → OwnClosed before
  | _, _ => True

/-! ## The condition -/

/-- The main task is in the connected phase. -/
def Phase.live : Phase → Bool
  | .announcing .connected | .connected => true
  | _ => false

/-- When CONNECTED is set, `s_disconnected_sem` is not available and no event that is to give it is
left to handle, unless from the connection itself; in the connected phase only its own device is
disconnected. -/
def undisturbed : Guard Op Choice Sys Event where
  main o _ s :=
    match o with
    | .setState .connected =>
      (!s.kbd.disconnectedSem ||
        s.trace.any fun o => match o with | .handled p => ownClose p s.trace | _ => false) &&
      s.view.agenda.all fun (p, step) => step != .give .disconnected || ownClose p s.trace
    | _ => true
  env e s :=
    match e with
    | .disconnected handle _ =>
      match s.getByConnId handle with
      | some dev => !s.ctl.phase.live || !dev.connected || current? s.trace == some dev.id
      | none => true
    | _ => true

/-! ## Growing traces -/

/-- Neither the end of a call nor an open event. -/
def Obs.keepsCurrent : Obs → Bool
  | .returned _ | .posted ⟨_, .open _ _⟩ => false
  | _ => true

theorem current?_append {l trace : List Obs} (hl : ∀ o ∈ l, o.keepsCurrent = true) :
    current? (l ++ trace) = current? trace := by
  have hnone : l.findSome? Obs.returned? = none := by
    refine List.findSome?_eq_none_iff.mpr fun o ho => ?_
    have hkeeps := hl o ho
    cases o with
    | returned r => cases hkeeps
    | _ => rfl
  rw [current?, List.findSome?_append, hnone, Option.none_or, current?]

theorem ownClose_append {l trace : List Obs} (hl : ∀ o ∈ l, o.keepsCurrent = true) (p : Posted) :
    ownClose p (l ++ trace) = ownClose p trace := by
  unfold ownClose
  split
  · rename_i d reason hevent
    have hall : l.all (Obs.opensBefore d p.seq) = true := by
      refine List.all_eq_true.mpr fun o ho => ?_
      have hkeeps := hl o ho
      cases o with
      | posted q =>
        obtain ⟨seq, event⟩ := q
        cases event with
        | «open» _ _ => cases hkeeps
        | _ => simp [Obs.opensBefore]
      | _ => rfl
    rw [current?_append hl, List.all_append, hall, Bool.true_and]
  · rfl

theorem OwnClosed.append {l trace : List Obs} (h : OwnClosed trace)
    (hl : ∀ o ∈ l, o.keepsCurrent = true) : OwnClosed (l ++ trace) := by
  obtain ⟨p, hmem, hown⟩ := h
  exact ⟨p, List.mem_append_right _ hmem, by rwa [ownClose_append hl]⟩

theorem lastState?_append {l trace : List Obs} (hl : ∀ o ∈ l, o.state? = none) :
    lastState? (l ++ trace) = lastState? trace := by
  rw [lastState?, List.findSome?_append, List.findSome?_eq_none_iff.mpr hl, Option.none_or,
    lastState?]

/-! ## The invariant -/

structure DropInv (v : View) : Prop where
  recorded : ∀ st, lastState? v.trace = some st → v.kbd.state = st
  token : v.ctl.phase.live = true → v.kbd.disconnectedSem = true → OwnClosed v.trace
  pending : v.ctl.phase.live = true → ∀ p, (p, .give .disconnected) ∈ v.agenda →
    ownClose p v.trace = true
  dropped : v.ctl.phase = .dropped → OwnClosed v.trace
  rule : Obeys DropRule v.trace

/-- The connected phase is entered by setting CONNECTED. -/
theorem View.PhaseStep.live {o : Op} {v : View} {q r : Phase} (h : View.PhaseStep v o q r)
    (hset : o ≠ .setState .connected) (hr : r.live = true) : q.live = true := by
  cases h with
  | stays => exact hr
  | setConnected => exact absurd rfl hset
  | announced next hshows => cases r <;> first | rfl | cases hr | cases hshows
  | bonded | connecting => cases hr
  | _ => cases hr

/-- It is left by `s_disconnected_sem`. -/
theorem View.PhaseStep.dropped_cases {o : Op} {v : View} {q : Phase} (h : View.PhaseStep v o q .dropped) :
    q = .dropped ∨ q = .connected ∧ v.kbd.disconnectedSem = true := by
  generalize hr : Phase.dropped = r at h
  cases h with
  | stays => exact .inl rfl
  | dropped hsem => exact .inr ⟨rfl, hsem⟩
  | announced next hshows =>
    subst hr
    cases hshows
  | _ => cases hr

theorem Phase.calling_of_live {q : Phase} (h : q.live = true) : q.calling = false := by
  unfold Phase.live at h
  split at h <;> first | rfl | cases h

namespace DropInv

variable {s : Sys} {v v' : View} {o : Op} {c : Choice}

/-! ### Operations -/

/-- Between transport calls no operation changes the current device or opens one. -/
theorem noted_keepsCurrent (hidle : IdleOutside v) (hphase : v.ctl.phase.calling = false)
    (hat : o.At v.ctl) : ∀ obs ∈ (v.noted o c).toList, obs.keepsCurrent = true := by
  intro obs hobs
  have hnoted := View.noted_origin (Option.mem_toList.mp hobs)
  cases obs with
  | returned r =>
    have hcalling : v.ctl.phase.calling = true := by
      rcases hnoted with rfl | rfl <;> cases r
      · rcases hat.2.2 with hph | hph <;> rw [hph] <;> rfl
      · rcases hat.2.2 with hph | hph <;> rw [hph] <;> rfl
      · rw [hat.2.2]
        rfl
      · rw [hat.2.2]
        rfl
    rw [hphase] at hcalling
    cases hcalling
  | posted p =>
    obtain ⟨kind, d, rfl, -⟩ := hnoted
    have hstage := (hidle hphase).1
    rw [hat.1] at hstage
    cases hstage
  | _ => rfl

/-- Setting a state: CONNECTED where nothing is left of earlier connections, and RECONNECTING from
the connected phase where its connection was closed. -/
theorem setState {st : KbdState} (h : DropInv s.view) (hstate : StateOfPhase s.view)
    (hg : undisturbed.main (.setState st) c s = true) (hat : (Op.setState st).At s.ctl) :
    DropInv (s.view.exec (.setState st) c) := by
  have hkeeps : ∀ o ∈ [Obs.state st], o.keepsCurrent = true := by simp [Obs.keepsCurrent]
  have hphase : (s.view.exec (.setState st) c).ctl.phase = s.view.ctl.phase.announce st := rfl
  have hlive : (s.view.ctl.phase.announce st).live = true → st = .connected := by
    intro hlive
    cases st with
    | connected => rfl
    | idle => exact hat.elim
    | reconnecting | scanning => cases hlive
    | connecting =>
      obtain ⟨⟨addr, hph⟩, -⟩ := hat
      have hph' : s.view.ctl.phase = .chosen addr := hph
      rw [hph'] at hlive
      cases hlive
  constructor
  · intro st' hst'
    exact Option.some.inj hst'
  · rw [hphase]
    intro hl hsem
    cases hlive hl
    obtain ⟨htoken, -⟩ := Bool.and_eq_true_iff.mp hg
    have hsem' : s.kbd.disconnectedSem = true := hsem
    rw [hsem', Bool.not_true, Bool.false_or] at htoken
    obtain ⟨obs, hobs, hown⟩ := List.any_eq_true.mp htoken
    split at hown
    · rename_i p
      exact OwnClosed.append (l := [_]) ⟨p, hobs, hown⟩ hkeeps
    · cases hown
  · rw [hphase]
    intro hl p hmem
    cases hlive hl
    obtain ⟨-, hagenda⟩ := Bool.and_eq_true_iff.mp hg
    have hall := List.all_eq_true.mp hagenda _ hmem
    have hown : ownClose p s.trace = true := by simpa using hall
    exact (ownClose_append (l := [_]) hkeeps p).trans hown
  · rw [hphase]
    intro hdropped
    cases st with
    | idle => exact hat.elim
    | reconnecting | scanning | connected => cases hdropped
    | connecting =>
      obtain ⟨⟨addr, hph⟩, -⟩ := hat
      have hph' : s.view.ctl.phase = .chosen addr := hph
      rw [hph'] at hdropped
      cases hdropped
  · refine obeys_cons.mpr ⟨?_, h.rule⟩
    cases st with
    | reconnecting =>
      intro hlast
      have hconn : s.view.kbd.state = .connected := h.recorded _ hlast
      rcases hat.1 with hph | hph | hph
      · have hidle := hstate.state .idle (by rw [show s.view.ctl.phase = .start from hph]; rfl)
        rw [hconn] at hidle
        cases hidle
      · have hrec := hstate.state .reconnecting
          (by rw [show s.view.ctl.phase = .reconnecting from hph]; rfl)
        rw [hconn] at hrec
        cases hrec
      · exact h.dropped hph
    | _ => trivial

/-- Any other operation leaves what is known of the connection in place. -/
theorem exec_frame (h : DropInv v) (hidle : IdleOutside v) (hset : ∀ st, o ≠ .setState st)
    (hat : o.At v.ctl) : DropInv (v.exec o c) := by
  have hstep := View.phaseStep hat
  rw [← View.exec_phase o c v] at hstep
  have hnoted : ∀ obs ∈ (v.noted o c).toList, obs.state? = none := by
    intro obs hobs
    have hby := View.noted_origin (Option.mem_toList.mp hobs)
    cases obs with
    | state st => exact absurd hby (hset st)
    | _ => rfl
  have hstate : (v.exec o c).kbd.state = v.kbd.state := by
    rw [View.exec_state]
    cases o with
    | setState st => exact absurd rfl (hset st)
    | _ => rfl
  have hkeeps := fun hphase => noted_keepsCurrent (c := c) hidle hphase hat
  have htrace := View.exec_trace o c v
  constructor
  · rw [htrace, lastState?_append hnoted, hstate]
    exact h.recorded
  · intro hlive hsem
    have hlive' := hstep.live (hset _) hlive
    rw [htrace]
    refine (h.token hlive' ?_).append (hkeeps (Phase.calling_of_live hlive'))
    have hsem' : (v.exec o c).kbd.sem .disconnected = true := hsem
    rw [View.exec_sem] at hsem'
    cases o with
    | give sem =>
      have hctl : v.ctl = rest .accepted := hat
      rw [hctl] at hlive'
      cases hlive'
    | take _ _ _ | takeConnected | awaitDisconnect _ _ | awaitClosed _ _ =>
      exact (Bool.and_eq_true_iff.mp hsem').1
    | _ => exact hsem'
  · intro hlive p hmem
    have hlive' := hstep.live (hset _) hlive
    have hcalling := Phase.calling_of_live hlive'
    have hpost : ∀ kind d, o ≠ .postOpen kind d := by
      rintro kind d rfl
      have hstage := (hidle hcalling).1
      rw [hat.1] at hstage
      cases hstage
    rw [View.exec_agenda o c v fun kind d ho => absurd ho (hpost kind d)] at hmem
    rw [htrace, ownClose_append (hkeeps hcalling)]
    apply h.pending hlive'
    cases o with
    | postOpen kind d => exact absurd rfl (hpost kind d)
    | _ => exact hmem
  · intro hdropped
    rw [hdropped] at hstep
    rw [htrace]
    rcases hstep.dropped_cases with hph | ⟨hph, hsem⟩
    · exact (h.dropped hph).append (hkeeps (by rw [hph]; rfl))
    · exact (h.token (by rw [hph]; rfl) hsem).append (hkeeps (by rw [hph]; rfl))
  · rw [htrace]
    refine h.rule.append fun obs hobs before => ?_
    have hno := hnoted obs hobs
    cases obs with
    | state st => cases hno
    | _ => trivial

/-- **An admitted operation.** -/
theorem exec (h : DropInv s.view) (hidle : IdleOutside s.view) (hstate : StateOfPhase s.view)
    (hg : undisturbed.main o c s = true) (hat : o.At s.ctl) : DropInv (s.view.exec o c) := by
  by_cases hset : ∃ st, o = .setState st
  · obtain ⟨st, rfl⟩ := hset
    exact h.setState hstate hg hat
  · exact h.exec_frame hidle (fun st ho => hset ⟨st, ho⟩) hat

/-! ### Events -/

/-- The event task gives `s_disconnected_sem` for a close event of the connection. -/
theorem dispatch (h : DropInv v) (hlog : EventLog v) (heff : View.Effect .dispatch v v') :
    DropInv v' := by
  obtain ⟨l, htrace, hby⟩ := heff.records
  have hquiet : ∀ obs ∈ l, obs.state? = none ∧ obs.keepsCurrent = true := by
    intro obs hobs
    have hrec := hby obs hobs
    cases obs with
    | state _ | returned _ => exact hrec.elim
    | posted p =>
      obtain ⟨-, ⟨_, _, _, _, he, -⟩ | ⟨_, _, _, he, -⟩⟩ := hrec <;> cases he
    | _ => exact ⟨rfl, rfl⟩
  have hkeeps := fun obs hobs => (hquiet obs hobs).2
  have hagenda : ∀ entry ∈ v'.agenda, entry ∈ v.agenda := by
    rcases heff.dispatch with ⟨p, step, rest, -, hcons, -⟩ | ⟨hsame, -⟩
    · exact fun entry hmem => hcons ▸ List.mem_cons_of_mem _ hmem
    · exact fun entry hmem => hsame ▸ hmem
  constructor
  · rw [htrace, lastState?_append fun obs hobs => (hquiet obs hobs).1, heff.state]
    exact h.recorded
  · rw [heff.ctl]
    intro hlive hsem
    by_cases hbefore : v.kbd.disconnectedSem = true
    · rw [htrace]
      exact (h.token hlive hbefore).append hkeeps
    rcases heff.dispatch with ⟨p, step, rest, hhandling, hcons, rfl⟩ | ⟨-, p, queue, rest, rfl⟩
    · rw [View.setHandling_kbd] at hsem
      -- the step that gives it is the last one of its event
      have hgive : step = .give .disconnected := by
        cases step with
        | take sem => cases sem <;> first | exact absurd hsem hbefore | cases hsem
        | give sem => cases sem <;> first | rfl | exact absurd hsem hbefore
        | _ => exact absurd hsem hbefore
      subst hgive
      have hown := h.pending hlive p (hcons ▸ List.mem_cons_self)
      have hrest : rest = [] := by
        have hsuffix := hlog.steps p _ hhandling
        unfold ownClose at hown
        split at hown
        · rename_i d reason hevent
          rw [hevent] at hsuffix
          rcases List.suffix_cons_iff.mp hsuffix with heq | hsuffix
          · cases heq
          · rcases List.suffix_cons_iff.mp hsuffix with heq | hsuffix
            · exact (List.cons.inj heq).2
            · cases List.suffix_nil.mp hsuffix
        · cases hown
      subst hrest
      refine ⟨p, List.mem_cons_self, ?_⟩
      rw [htrace, ownClose_append hkeeps]
      exact hown
    · rw [View.setHandling_kbd] at hsem
      exact absurd hsem hbefore
  · rw [heff.ctl, htrace]
    intro hlive p hmem
    rw [ownClose_append hkeeps]
    exact h.pending hlive p (hagenda _ hmem)
  · rw [heff.ctl, htrace]
    exact fun hdropped => (h.dropped hdropped).append hkeeps
  · rw [htrace]
    refine h.rule.append fun obs hobs before => ?_
    have hno := (hquiet obs hobs).1
    cases obs with
    | state st => cases hno
    | _ => trivial

/-- **An admitted event.** -/
theorem effect {e : Event} (h : DropInv v) (hlog : EventLog v) (heff : View.Effect e v v')
    (hg : ∀ handle reason key, e = .disconnected handle reason → v.byConnId handle = some key →
      v.ctl.phase.live = true → key.connected = true → current? v.trace = some key.id) :
    DropInv v' := by
  by_cases he : e = .dispatch
  · subst he
    exact h.dispatch hlog heff
  obtain ⟨l, htrace, hby⟩ := heff.records
  have hquiet : ∀ obs ∈ l, obs.state? = none ∧ obs.keepsCurrent = true := by
    intro obs hobs
    have hrec := hby obs hobs
    cases obs with
    | state _ | returned _ => exact hrec.elim
    | posted p =>
      obtain ⟨l', event?, hlogs, -, hposts⟩ := heff.logs he
      have hp : v.posting event? = some p := by
        have hmem : .posted p ∈ v'.trace := htrace ▸ List.mem_append_left _ hobs
        rcases hlogs.posted_iff.mp hmem with hnew | hold
        · exact hnew
        · exact absurd (hlog.posted p hold) (by rw [hrec.1]; exact Nat.lt_irrefl _)
      obtain ⟨event, hsome, rfl⟩ := Option.map_eq_some_iff.mp hp
      refine ⟨rfl, ?_⟩
      rcases hposts event hsome with hother | ⟨_, _, _, -, -, -, rfl⟩
      · cases event with
        | «open» d rc =>
          have hnone := hother d
          simp [HidhEvent.linkUp?] at hnone
        | _ => rfl
      · rfl
    | _ => exact ⟨rfl, rfl⟩
  have hkeeps := fun obs hobs => (hquiet obs hobs).2
  have hsem : v'.kbd.disconnectedSem = v.kbd.disconnectedSem :=
    congrFun (heff.kbd he).2 .disconnected
  constructor
  · rw [htrace, lastState?_append fun obs hobs => (hquiet obs hobs).1, heff.state]
    exact h.recorded
  · rw [heff.ctl, hsem, htrace]
    exact fun hlive hgiven => (h.token hlive hgiven).append hkeeps
  · rw [heff.ctl]
    intro hlive p hmem
    have hold : (p, .give .disconnected) ∈ v.agenda → ownClose p v'.trace = true := by
      intro hold
      rw [htrace, ownClose_append hkeeps]
      exact h.pending hlive p hold
    obtain ⟨l', event?, hlogs, -, hposts⟩ := heff.logs he
    rw [hlogs.agenda] at hmem
    rcases List.mem_append.mp hmem with hmem | hmem
    · exact hold hmem
    obtain ⟨q, hq, hwork⟩ := List.mem_flatMap.mp hmem
    obtain ⟨event, hevent, rfl⟩ := Option.map_eq_some_iff.mp (Option.mem_toList.mp hq)
    obtain ⟨step, hstep, heq⟩ := List.mem_map.mp hwork
    cases heq
    rcases hposts event hevent with hother | ⟨handle, reason, key, rfl, hkey, hconn, rfl⟩
    · cases event with
      | «open» d rc | close d rc =>
        have hnone := hother d
        simp [HidhEvent.linkUp?] at hnone
      | input _ _ _ usage _ =>
        simp only [hidhSteps] at hstep
        split at hstep <;> simp at hstep
      | feature _ _ _ _ _ | battery _ _ => cases hstep
    · rw [htrace, ownClose_append hkeeps]
      have hcurrent := hg handle reason key rfl hkey hlive hconn
      simp only [ownClose, hcurrent, BEq.rfl, Bool.true_and, List.all_eq_true]
      intro obs hobs
      cases obs with
      | posted q =>
        have hlt := hlog.posted q hobs
        simp [Obs.opensBefore, hlt]
      | _ => rfl
  · rw [heff.ctl, htrace]
    exact fun hdropped => (h.dropped hdropped).append hkeeps
  · rw [htrace]
    refine h.rule.append fun obs hobs before => ?_
    have hno := (hquiet obs hobs).1
    cases obs with
    | state st => cases hno
    | _ => trivial

end DropInv

theorem dropInv {cfg : KbdConfig} {bonds : List (Bda × UInt8)} {c : HostConfig}
    (h : Reach host undisturbed (boot cfg bonds) c) : DropInv c.state.view := by
  refine reach_keeps_of_known
    (J := fun s => IdleOutside s.view ∧ StateOfPhase s.view ∧ EventLog s.view)
    (I := fun s => DropInv s.view) h
    (fun _ hreach => ⟨idleOutside hreach, stateOfPhase hreach, eventLog hreach⟩) ?_ ?_ ?_
  · exact ⟨nofun, nofun, nofun, nofun, obeys_nil⟩
  · rintro o ch s ⟨hidle, hstate, -⟩ hinv _ _ hg hat
    rw [exec_view]
    exact hinv.exec hidle hstate hg hat
  · rintro e s s' ⟨-, -, hlog⟩ hinv _ hg hstep
    refine hinv.effect hlog (eventStep_view hstep) ?_
    rintro handle reason key rfl hkey hlive hconn
    rw [byConnId_view] at hkey
    obtain ⟨dev, hdev, rfl⟩ := Option.map_eq_some_iff.mp hkey
    have hlive' : s.ctl.phase.live = true := hlive
    have hconn' : dev.connected = true := hconn
    simp only [undisturbed, hdev, hlive', hconn', Bool.not_true, Bool.false_or, beq_iff_eq] at hg
    exact hg

/-! ## The result -/

/-- **A connection is given up only for a close event of its own**, posted after its device was
opened. In every run in which nothing of an earlier connection is left when CONNECTED is set, and in
which only the device of the connection is disconnected while it lasts. -/
theorem dropsOwn_of_undisturbed {cfg : KbdConfig} {bonds : List (Bda × UInt8)} {c : HostConfig}
    (h : Reach host undisturbed (boot cfg bonds) c) : Obeys DropRule c.state.trace :=
  (dropInv h).rule

/-! ## Runs -/

/-- Link 5 goes down, and the event task handles the close event of its device. -/
def closeRun : List (Move Choice Event) :=
  [.env (.disconnected 5 0)] ++ List.replicate 3 (.env .dispatch)

/-- A connection is closed and given up. -/
theorem dropsOwn_closed : ∃ c, host.run undisturbed
    (scanRun 7 ++ selectRun ++ linkRun 7 ++ openRun ++ mains 3 ++ closeRun ++ mains 6) (boot {} []) =
      some c ∧ .state .reconnecting ∈ c.state.trace ∧ Obeys DropRule c.state.trace := by
  obtain ⟨c, hrun, hdropped⟩ := exists_run undisturbed
    (scanRun 7 ++ selectRun ++ linkRun 7 ++ openRun ++ mains 3 ++ closeRun ++ mains 6) (boot {} [])
    (fun c => c.state.trace.contains (.state .reconnecting)) (by decide +kernel)
  exact ⟨c, hrun, List.contains_iff_mem.mp hdropped, dropsOwn_of_undisturbed (Reach.of_run hrun)⟩

/-- A re-pair request closes the connection of device 0, whose close event comes after the wait for
it; its token ends the connection of device 1 as soon as that is entered. -/
theorem not_dropsOwn_late :
    ∃ c, Reach host .free (boot {} []) c ∧ ¬Obeys DropRule c.state.trace := by
  let run := scanRun 7 ++ selectRun ++ linkRun 7 ++ openRun ++ repairRun [.env (.tick 200)] ++
    closeRun ++ rescanRun 8 ++ reselectRun ++ linkRun 8 ++ openRun ++ mains 9
  obtain ⟨c, hrun, hdropped⟩ := exists_run .free run (boot {} [])
    (fun c => c.state.trace.head? == some (.state .reconnecting) &&
      (lastState? c.state.trace.tail == some .connected && c.state.trace.tail.all fun o =>
        match o with | .handled p => !ownClose p c.state.trace.tail | _ => true))
    (by decide +kernel)
  refine ⟨c, .of_run hrun, fun hobeys => ?_⟩
  simp only [Bool.and_eq_true, beq_iff_eq] at hdropped
  obtain ⟨hhead, hlast, hnone⟩ := hdropped
  have hcons : .state .reconnecting :: c.state.trace.tail <:+ c.state.trace := by
    obtain ⟨rest, htrace⟩ := List.head?_eq_some_iff.mp hhead
    rw [htrace]
    exact List.suffix_rfl
  obtain ⟨p, hmem, hown⟩ : OwnClosed c.state.trace.tail := hobeys _ _ hcons hlast
  have hnot := List.all_eq_true.mp hnone _ hmem
  simp only [hown] at hnot
  cases hnot

end BleKbdHost.Host
