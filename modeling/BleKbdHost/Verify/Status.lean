import BleKbdHost.Conc.Trace
import BleKbdHost.Host.EventLog
import BleKbdHost.Host.Phases

/-!
# Reported and queried state

Whether `ble_kbd_host_get_state` agrees with the last status callback, and whether the reported
states follow the state diagram. All sites but one report a state that is set: "Connection failed"
reports SCANNING a second before it is, while the state still is CONNECTING.
-/

namespace BleKbdHost.Host

open Hid Keys Conc

/-! ## The property -/

def Obs.status? : Obs → Option KbdState
  | .status st _ _ => some st
  | _ => none

/-- The states passed to `on_status`, oldest first. -/
def statuses (trace : List Obs) : List KbdState := (trace.filterMap Obs.status?).reverse

/-- The main task is inside `set_state`: it has set the state and not called back yet. -/
def Sys.inSetState (s : Sys) : Bool :=
  match s.ctl.phase with
  | .announcing _ => true
  | _ => false

/-- The arrows of the state diagram, with the returns to SCANNING. -/
def Diagram : KbdState → KbdState → Prop
  | .reconnecting, st => st = .connected ∨ st = .scanning
  | .scanning, st => st = .connecting
  | .connecting, st => st = .connected ∨ st = .scanning
  | .connected, st => st = .reconnecting ∨ st = .scanning
  | .idle, _ => False

/-- Where the diagram is entered. -/
def Entrance (st : KbdState) : Prop := st = .reconnecting ∨ st = .scanning

structure StatusAgrees (s : Sys) : Prop where
  current : s.inSetState = false → ∀ st ∈ (statuses s.trace).getLast?, bleKbdHostGetState s = st
  entrance : ∀ st ∈ (statuses s.trace).head?, Entrance st
  path : ((statuses s.trace).destutter (· ≠ ·)).IsChain Diagram

/-! ## The condition -/

/-- Every attempt to connect to a selected device finds `s_connected_sem` given after its wait. -/
def connects : Guard Op Choice Sys Event where
  main o _ s :=
    match o with
    | .takeConnected => s.kbd.state != .connecting || s.kbd.connectedSem
    | _ => true
  env _ _ := true

/-! ## Status lists -/

theorem statuses_append {l trace : List Obs} (h : ∀ o ∈ l, o.status? = none) :
    statuses (l ++ trace) = statuses trace := by
  rw [statuses, List.filterMap_append, List.filterMap_eq_nil_iff.mpr h, List.nil_append, statuses]

theorem statuses_status (st : KbdState) (line1 line2 : Line) (trace : List Obs) :
    statuses (.status st line1 line2 :: trace) = statuses trace ++ [st] := by
  simp [statuses, Obs.status?]

/-- What is reported next may follow what was reported. -/
structure Continues (reported : List KbdState) (st : KbdState) : Prop where
  entrance : reported = [] → Entrance st
  step : ∀ last ∈ reported.getLast?, last = st ∨ Diagram last st

/-- The reports follow the diagram, where they do not repeat themselves. -/
structure Follows (reported : List KbdState) : Prop where
  entrance : ∀ st ∈ reported.head?, Entrance st
  path : reported.IsChain fun a b => a = b ∨ Diagram a b

theorem Follows.append {reported : List KbdState} {st : KbdState} (h : Follows reported)
    (hst : Continues reported st) : Follows (reported ++ [st]) where
  entrance first hfirst := by
    cases reported with
    | nil =>
      obtain rfl : st = first := by simpa using hfirst
      exact hst.entrance rfl
    | cons head rest => exact h.entrance first hfirst
  path := by
    refine List.isChain_append.mpr ⟨h.path, List.isChain_singleton st, fun a ha b hb => ?_⟩
    obtain rfl : st = b := by simpa using hb
    exact hst.step a ha

/-- What was last reported in a state; nothing is reported before the first one is set. -/
def KbdState.reported : KbdState → Option KbdState
  | .idle => none
  | st => some st

theorem Continues.of_state {reported : List KbdState} {old st : KbdState}
    (hlast : reported.getLast? = old.reported)
    (h : old = st ∨ Diagram old st ∨ (old = .idle ∧ Entrance st)) (hst : st ≠ .idle) :
    Continues reported st where
  entrance hnil := by
    rw [hnil] at hlast
    cases old with
    | idle =>
      rcases h with rfl | h | ⟨-, h⟩
      · exact absurd rfl hst
      · exact h.elim
      · exact h
    | _ => cases hlast
  step last hmem := by
    rw [hlast] at hmem
    cases old with
    | idle => cases hmem
    | _ =>
      obtain rfl := Option.some.inj hmem
      exact h.imp_right fun h => h.resolve_right nofun

/-! ## The invariant -/

/-- Only the test of `s_connected_sem` after the wait for a selected device refuses it. -/
theorem View.PhaseStep.refused_cases {o : Op} {v : View} {q : Phase}
    (h : View.PhaseStep v o q (.refused .selected)) :
    q = .refused .selected ∨ o = .takeConnected ∧ q.state? = some .connecting ∧
      v.kbd.connectedSem = false := by
  generalize hr : Phase.refused .selected = r at h
  cases h with
  | stays => exact .inl rfl
  | announced next hshows =>
    subst hr
    cases hshows
  | refused site h hsem =>
    cases hr
    rcases h with rfl | rfl <;> exact .inr ⟨rfl, rfl, hsem⟩
  | _ => cases hr

structure StatusInv (v : View) : Prop where
  installed : v.kbd.cfg.onStatus = true
  current : (∀ next, v.ctl.phase ≠ .announcing next) →
    (statuses v.trace).getLast? = v.kbd.state.reported
  announced : ∀ next, v.ctl.phase = .announcing next → Continues (statuses v.trace) v.kbd.state
  unrefused : v.ctl.phase ≠ .refused .selected
  follows : Follows (statuses v.trace)

namespace StatusInv

variable {s : Sys} {o : Op} {c : Choice} {v v' : View}

/-- The state that is set may follow the one before. -/
theorem continues_setState {st : KbdState} (h : StatusInv v) (hstate : StateOfPhase v)
    (hat : (Op.setState st).At v.ctl) : Continues (statuses v.trace) st := by
  have hcur : ∀ {q}, v.ctl.phase = q → (∀ next, q ≠ .announcing next) →
      (statuses v.trace).getLast? = v.kbd.state.reported := fun hq hnext => h.current (hq ▸ hnext)
  have hold : ∀ {q old}, v.ctl.phase = q → q.state? = some old → v.kbd.state = old :=
    fun hq hst => hstate.state _ (hq ▸ hst)
  cases st with
  | idle => exact hat.elim
  | reconnecting =>
    obtain ⟨hph | hph | hph, -⟩ := hat
    · exact .of_state (hcur hph nofun) (.inr (.inr ⟨hold hph rfl, .inl rfl⟩)) nofun
    · exact .of_state (hcur hph nofun) (.inl (hold hph rfl)) nofun
    · refine .of_state (hcur hph nofun) (.inr (.inl ?_)) nofun
      rw [hold hph rfl]
      exact .inl rfl
  | scanning =>
    refine .of_state (hcur (congrArg Ctl.phase hat) nofun) ?_ nofun
    cases v.kbd.state with
    | scanning => exact .inl rfl
    | idle => exact .inr (.inr ⟨rfl, .inr rfl⟩)
    | reconnecting | connecting | connected => exact .inr (.inl (.inr rfl))
  | connecting =>
    obtain ⟨⟨addr, hph⟩, -⟩ := hat
    refine .of_state (hcur hph nofun) (.inr (.inl ?_)) nofun
    rw [hold hph rfl]
    exact rfl
  | connected =>
    have hph : v.ctl.phase = .accepted := congrArg Ctl.phase hat
    refine .of_state (hcur hph nofun) (.inr (.inl ?_)) nofun
    rcases hstate.accepted hph with hst | hst <;> rw [hst] <;> exact .inl rfl

/-- Setting the state: its report is due. -/
theorem setState {st : KbdState} (h : StatusInv v) (hstate : StateOfPhase v)
    (hat : (Op.setState st).At v.ctl) : StatusInv (v.exec (.setState st) c) := by
  have hstatuses : statuses (v.exec (.setState st) c).trace = statuses v.trace :=
    statuses_append (l := [Obs.state st]) (by simp [Obs.status?])
  have hphase : ∃ next, (v.exec (.setState st) c).ctl.phase = .announcing next := by
    rw [View.exec_phase]
    cases st with
    | idle => exact hat.elim
    | reconnecting | scanning | connected => exact ⟨_, rfl⟩
    | connecting =>
      obtain ⟨⟨addr, hph⟩, -⟩ := hat
      exact ⟨.selected addr, by simp [View.nextPhase, hph, Phase.announce]⟩
  obtain ⟨next, hnext⟩ := hphase
  constructor
  · exact h.installed
  · exact fun hne => absurd hnext (hne next)
  · intro _ _
    rw [hstatuses]
    exact h.continues_setState hstate hat
  · rw [hnext]
    simp
  · rw [hstatuses]
    exact h.follows

/-- A status callback reports the current state. -/
theorem onStatus {st : KbdState} (h : StatusInv v) (hstate : StateOfPhase v)
    (line1 line2 : Line) (hat : (Op.onStatus st line1 line2).At v.ctl) :
    StatusInv (v.exec (.onStatus st line1 line2) c) := by
  have hstatuses : statuses (v.exec (.onStatus st line1 line2) c).trace =
      statuses v.trace ++ [st] := by
    rw [View.exec_trace, View.noted, if_pos h.installed]
    exact statuses_status st line1 line2 v.trace
  have hsame : (v.exec (.onStatus st line1 line2) c).kbd.state = v.kbd.state := View.exec_state ..
  have hphase : (v.exec (.onStatus st line1 line2) c).ctl.phase = v.ctl.phase.announced :=
    View.exec_phase ..
  have hshows := hat.1
  -- inside `set_state`, or the prompt of the scan loop
  have hreport : v.kbd.state = st ∧ Continues (statuses v.trace) st ∧
      v.ctl.phase.announced ≠ .refused .selected ∧ st ≠ .idle ∧
      ∀ next, v.ctl.phase.announced ≠ .announcing next := by
    have hnamed : ∀ next, v.ctl.phase = .announcing next → next.state? = some st → v.kbd.state = st ∧
        Continues (statuses v.trace) st := by
      intro next hph hst
      have hkbd := hstate.state st (by rw [hph]; exact hst)
      exact ⟨hkbd, hkbd ▸ h.announced next hph⟩
    cases hph : v.ctl.phase with
    | announcing next =>
      rw [hph] at hshows
      cases next with
      | reconnecting | scanning | selected _ | connected =>
        obtain rfl := Option.some.inj hshows
        obtain ⟨hkbd, hcont⟩ := hnamed _ hph rfl
        refine ⟨hkbd, hcont, fun h => ?_, fun h => ?_, fun _ h => ?_⟩ <;> cases h
      | _ => cases hshows
    | scanning =>
      rw [hph] at hshows
      obtain rfl := Option.some.inj hshows
      have hkbd := hstate.state .scanning (by rw [hph]; rfl)
      refine ⟨hkbd, .of_state (h.current (by simp [hph])) (.inl hkbd) (by simp),
        (fun h => by cases h), (by simp), (fun _ h => by cases h)⟩
    | refused site =>
      cases site with
      | selected => exact absurd hph h.unrefused
      | bonded =>
        rw [hph] at hshows
        cases hshows
    | _ =>
      rw [hph] at hshows
      cases hshows
  obtain ⟨hkbd, hcont, hconnects, hidle, hnext⟩ := hreport
  constructor
  · exact h.installed
  · intro _
    rw [hstatuses, hsame, hkbd, List.getLast?_append, List.getLast?_singleton]
    cases st <;> first | rfl | exact absurd rfl hidle
  · intro next hph
    rw [hphase] at hph
    exact absurd hph (hnext next)
  · rw [hphase]
    exact hconnects
  · rw [hstatuses]
    exact h.follows.append hcont

/-- Any other operation reports nothing; a refused connection would be one to a selected device. -/
theorem exec_frame (h : StatusInv v) (hstate : StateOfPhase v) (hat : o.At v.ctl)
    (hset : ∀ st, o ≠ .setState st) (hstatus : ∀ st line1 line2, o ≠ .onStatus st line1 line2)
    (hg : o = .takeConnected → v.kbd.state ≠ .connecting ∨ v.kbd.connectedSem = true) :
    StatusInv (v.exec o c) := by
  have hstatuses : statuses (v.exec o c).trace = statuses v.trace := by
    rw [View.exec_trace]
    refine statuses_append fun obs hobs => ?_
    have hnoted := View.noted_origin (Option.mem_toList.mp hobs)
    cases obs with
    | status st line1 line2 => exact absurd hnoted (hstatus st line1 line2)
    | _ => rfl
  have hsame : (v.exec o c).kbd.state = v.kbd.state := by
    rw [View.exec_state]
    cases o with
    | setState st => exact absurd rfl (hset st)
    | _ => rfl
  have hstep := View.phaseStep hat
  rw [← View.exec_phase o c v] at hstep
  constructor
  · rw [View.exec_onStatus]
    exact h.installed
  · intro hnext
    rw [hstatuses, hsame]
    rcases hstep.announcing hset hstatus with heq | ⟨hbefore, -⟩
    · exact h.current (heq ▸ hnext)
    · exact h.current hbefore
  · intro next hph
    rw [hstatuses, hsame]
    rcases hstep.announcing hset hstatus with heq | ⟨-, hafter⟩
    · exact h.announced next (heq ▸ hph)
    · exact absurd hph (hafter next)
  · intro hph
    rw [hph] at hstep
    have hrefused := hstep.refused_cases
    rcases hrefused with heq | ⟨rfl, hfrom, hsem⟩
    · exact h.unrefused heq
    · have hkbd := hstate.state .connecting hfrom
      rcases hg rfl with hne | hgiven
      · exact hne hkbd
      · rw [hsem] at hgiven
        cases hgiven
  · rw [hstatuses]
    exact h.follows

/-- **An admitted operation keeps reports and state together.** -/
theorem exec (h : StatusInv s.view) (hstate : StateOfPhase s.view)
    (hg : connects.main o c s = true) (hat : o.At s.ctl) : StatusInv (s.view.exec o c) := by
  by_cases hset : ∃ st, o = .setState st
  · obtain ⟨st, rfl⟩ := hset
    exact h.setState hstate hat
  by_cases hstatus : ∃ st line1 line2, o = .onStatus st line1 line2
  · obtain ⟨st, line1, line2, rfl⟩ := hstatus
    exact h.onStatus hstate line1 line2 hat
  refine h.exec_frame hstate hat (fun st ho => hset ⟨st, ho⟩)
    (fun st line1 line2 ho => hstatus ⟨st, line1, line2, ho⟩) fun ho => ?_
  subst ho
  have hconnects : s.kbd.state ≠ .connecting ∨ s.kbd.connectedSem = true := by
    simpa [connects] using hg
  exact hconnects

/-- Nothing beside the main task reports a status or sets the state. -/
theorem effect {e : Event} (h : StatusInv v) (heff : View.Effect e v v') : StatusInv v' := by
  have hstatuses : statuses v'.trace = statuses v.trace := by
    by_cases he : e = .dispatch
    · subst he
      obtain ⟨-, l, hl, hbeside, -⟩ := heff.handles
      rw [hl]
      refine statuses_append fun obs hobs => ?_
      have hb := hbeside obs hobs
      cases obs <;> first | rfl | cases hb
    · obtain ⟨l, event?, hlogs, hbeside, -⟩ := heff.logs he
      rw [hlogs.trace]
      refine statuses_append fun obs hobs => ?_
      have hb := hbeside obs hobs
      cases obs <;> first | rfl | cases hb
  constructor
  · rw [heff.cfg]
    exact h.installed
  · rw [heff.ctl, heff.state, hstatuses]
    exact h.current
  · rw [heff.ctl, heff.state, hstatuses]
    exact h.announced
  · rw [heff.ctl]
    exact h.unrefused
  · rw [hstatuses]
    exact h.follows

end StatusInv

theorem statusInv {cfg : KbdConfig} {bonds : List (Bda × UInt8)} {c : HostConfig}
    (hcfg : cfg.onStatus = true) (h : Reach host connects (boot cfg bonds) c) :
    StatusInv c.state.view := by
  refine reach_keeps_of_known (J := fun s => StateOfPhase s.view) (I := fun s => StatusInv s.view) h
    (fun _ => stateOfPhase) ?_ ?_ ?_
  · exact ⟨hcfg, fun _ => rfl, nofun, nofun, ⟨nofun, List.isChain_nil⟩⟩
  · intro o ch s hstate hinv _ _ hg hat
    rw [exec_view]
    exact hinv.exec hstate hg hat
  · exact fun e s s' _ hinv _ _ hstep => hinv.effect (eventStep_view hstep)

/-! ## The result -/

/-- **Reports, state and diagram agree.** In every run with a status callback in which every attempt
to connect to a selected device succeeds. -/
theorem statusAgrees_of_connects {cfg : KbdConfig} {bonds : List (Bda × UInt8)} {c : HostConfig}
    (hcfg : cfg.onStatus = true) (h : Reach host connects (boot cfg bonds) c) :
    StatusAgrees c.state := by
  have hinv := statusInv hcfg h
  refine ⟨fun hset st hst => ?_, hinv.follows.entrance, isChain_destutter_of_eq_or hinv.follows.path⟩
  have hnext : ∀ next, c.state.view.ctl.phase ≠ .announcing next := by
    intro next hph
    have hph' : c.state.ctl.phase = .announcing next := hph
    simp [Sys.inSetState, hph'] at hset
  have hlast : (statuses c.state.trace).getLast? = c.state.kbd.state.reported := hinv.current hnext
  rw [hlast] at hst
  unfold bleKbdHostGetState
  cases hkbd : c.state.kbd.state <;> rw [hkbd] at hst <;> cases hst <;> rfl

/-! ## Runs -/

/-- A selected device is opened. -/
theorem statusAgrees_connected : ∃ c, host.run connects
    (scanRun 7 ++ selectRun ++ linkRun 7 ++ openRun ++ mains 2) (boot {} []) = some c ∧
      statuses c.state.trace = [.scanning, .connecting, .connected] ∧ StatusAgrees c.state := by
  obtain ⟨c, hrun, hreported⟩ := exists_run connects
    (scanRun 7 ++ selectRun ++ linkRun 7 ++ openRun ++ mains 2) (boot {} [])
    (fun c => statuses c.state.trace == [.scanning, .connecting, .connected]) (by decide +kernel)
  exact ⟨c, hrun, beq_iff_eq.mp hreported, statusAgrees_of_connects rfl (Reach.of_run hrun)⟩

/-- The device is not allocated and nothing answers for 60 s: SCANNING is reported while the state
is CONNECTING. -/
theorem not_statusAgrees_failed : ∃ c, Reach host .free (boot {} []) c ∧ ¬StatusAgrees c.state := by
  let run := scanRun 7 ++ selectRun ++ [.main { rc := 1 }] ++ mains 3 ++ [.env (.tick 6000)] ++
    mains 5
  obtain ⟨c, hrun, hreported⟩ := exists_run .free run (boot {} [])
    (fun c => (statuses c.state.trace).getLast? == some .scanning &&
      c.state.kbd.state == .connecting && !c.state.inSetState) (by decide +kernel)
  refine ⟨c, .of_run hrun, fun hagrees => ?_⟩
  simp only [Bool.and_eq_true, beq_iff_eq, Bool.not_eq_true'] at hreported
  obtain ⟨⟨hlast, hkbd⟩, hset⟩ := hreported
  have hsame := hagrees.current hset .scanning hlast
  rw [bleKbdHostGetState, hkbd] at hsame
  cases hsame

end BleKbdHost.Host
