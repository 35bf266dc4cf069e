import BleKbdHost.Host.Places
import BleKbdHost.Verify.Progress

/-!
# One thing at a time

What the radio is asked to do never overlaps. While it scans, the main task is in the scan and in no
transport call, and nothing else is under way, as long as no end of a scan is refused, which the main
task does not look at; and at most one of a connection attempt, a GATT request that calls back and a
callback that was not taken yet exists, with the main task waiting for it.
-/

namespace BleKbdHost.Host

open Hid Keys Conc

/-- The phases in which the scan runs. -/
def Phase.scans : Phase → Bool
  | .scanning | .copied _ | .picking _ | .picked _ => true
  | _ => false

/-- Where the main task stands while the radio scans. -/
structure Ctl.Scans (c : Ctl) : Prop where
  phase : c.phase.scans = true
  stage : c.stage = .none
  awaiting : c.awaiting = false

theorem Stage.Within.eq_none {st st' : Stage} (h : st'.Within st) (hst : st = .none) :
    st' = .none := by
  subst hst
  rcases h with rfl | ⟨step, rfl⟩ <;> rfl

/-! ## The scan -/

/-- The scan after an operation. -/
def Sys.discoveringAfter (s : Sys) (c : Choice) : Op → Bool
  | .gapDisc => s.radio.discovering || c.rc == 0
  | .gapDiscCancel => if c.rc = 0 then false else s.radio.discovering
  | _ => s.radio.discovering

theorem absorb_discovering {α : Type} {s : Sys} {r : Except Fault α} {f : α → Sys}
    (h : ∀ a, (f a).radio.discovering = s.radio.discovering) :
    (s.absorb r f).radio.discovering = s.radio.discovering := by
  cases r with
  | ok a => exact h a
  | error _ => rfl

theorem exec_discovering (o : Op) (c : Choice) (s : Sys) :
    (o.exec c s).radio.discovering = s.discoveringAfter c o := by
  cases o with
  | awaitDisconnect _ _ | peekCmd _ | emitKey _ | devMalloc _ _ | reconnectReturns _
  | assertStatus | mallocReportMaps _ | mallocProtocolMode _ =>
    simp only [Op.exec]
    split <;> rfl
  | gapDisc =>
    by_cases hrc : c.rc = 0 <;> simp [Op.exec, Sys.discoveringAfter, hrc]
  | gapConnect kind d =>
    simp only [Op.exec]
    split
    · rfl
    · split <;> rfl
  | readConnId kind d =>
    simp only [Op.exec]
    split <;> rfl
  | discAllSvcs _ | discAllChrs _ _ _ | discAllDscs _ _ _ | readLong _ _ _ | writeFlat _ _ _ =>
    simp only [Op.exec, Sys.request, Sys.setAwaiting, Sys.setStage, Sys.log]
    rfl
  | readSvc _ | readChr _ | readDefHandle _ | readDsc _ | readReportMap _ _ =>
    exact absorb_discovering fun _ => rfl
  | setField d field =>
    simp only [Op.exec]
    split
    · rfl
    · exact absorb_discovering fun _ => rfl
  | freeBuf buf => cases buf <;> rfl
  | parseReportMap data =>
    cases data with
    | none => rfl
    | some buf =>
      simp only [Op.exec]
      split
      · rfl
      · exact absorb_discovering fun _ => rfl
  | _ => rfl

namespace Ctl.Scans

variable {c c' : Ctl} {o : Op} {v : View}

/-- No operation of a transport call stands there. -/
theorem stage_none (h : v.ctl.Scans) (hat : o.At v.ctl) (ch : Choice) : v.nextStage o ch = .none := by
  have hstage := h.stage
  have hphase := h.phase
  cases o with
  | openCall site bda =>
    obtain hat : v.ctl = _ := hat
    rw [hat] at hphase
    cases site <;> cases hphase
  | reconnectCall d =>
    obtain hat : v.ctl = _ := hat
    rw [hat] at hphase
    cases hphase
  | devMalloc _ _ => rw [hat.2.1] at hstage; cases hstage
  | gapConnect _ _ | readConnId _ _ | postOpen _ _ => rw [hat.1] at hstage; cases hstage
  | setConnected _ _ =>
    obtain ⟨⟨step, hlinked, -⟩, -⟩ := hat
    rw [hlinked] at hstage
    cases hstage
  | devFree _ | openReturns _ | reconnectReturns _ => rfl
  | _ => exact Stage.Within.eq_none (View.nextStage_within ch v rfl) hstage

theorem awaiting_false (h : v.ctl.Scans) (hat : o.At v.ctl) (ch : Choice) :
    v.nextAwaiting o ch = false := by
  have hstage := h.stage
  have hawait := h.awaiting
  cases o with
  | gapConnect _ _ | discAllSvcs _ | discAllChrs _ _ _ | discAllDscs _ _ _ | readLong _ _ _ =>
    rw [hat.1] at hstage
    cases hstage
  | writeFlat _ _ _ =>
    obtain ⟨⟨kind, d, hsub⟩, -⟩ := hat
    rw [hsub] at hstage
    cases kind <;> cases hstage
  | waitCb => rfl
  | _ => exact hawait

/-- The main task leaves these phases only with an entry it has copied. -/
theorem phase_stays (h : v.ctl.Scans) (hat : o.At v.ctl) (hcopied : ∀ index, o ≠ .copySelected index) :
    (v.nextPhase o).scans = true := by
  have hphase := h.phase
  have hstep := View.phaseStep hat
  generalize v.nextPhase o = q' at hstep ⊢
  generalize v.ctl.phase = q at hstep hphase
  cases hstep with
  | stays => exact hphase
  | copied | updated | picking | picked | ignored => rfl
  | chosen index => exact absurd rfl (hcopied index)
  | setReconnecting hq => rcases hq with rfl | rfl | rfl <;> cases hphase
  | cleared hq => rcases hq with rfl | rfl | rfl | rfl | rfl | rfl <;> cases hphase
  | answered site | expired site | repairing site => cases site <;> cases hphase
  | accepted site hq | refused site hq => rcases hq with rfl | rfl <;> cases hphase
  | failed hq => rcases hq with rfl | rfl <;> cases hphase
  | _ => cases hphase

theorem exec (h : v.ctl.Scans) (hat : o.At v.ctl) (hcopied : ∀ index, o ≠ .copySelected index)
    (ch : Choice) : (v.exec o ch).ctl.Scans where
  phase := by rw [View.exec_phase]; exact h.phase_stays hat hcopied
  stage := by rw [View.exec_stage]; exact h.stage_none hat ch
  awaiting := by rw [View.exec_awaiting]; exact h.awaiting_false hat ch

end Ctl.Scans

section Runs

variable {g : Guard Op Choice Sys Event} {cfg : KbdConfig} {bonds : List (Bda × UInt8)}
variable {c : HostConfig}

theorem reach_scans (hcancels : Cancels g) (h : Reach host g (boot cfg bonds) c)
    (hscan : c.state.radio.discovering = true) : c.state.ctl.Scans := by
  refine reach_keeps_placed (I := fun s => s.radio.discovering = true → s.ctl.Scans) h
    (fun hboot => (by cases hboot)) ?_ ?_ hscan
  · intro o ch s _ hinv _ _ hg hat hnext
    rw [exec_discovering] at hnext
    rw [exec_ctl]
    have hkeep : s.radio.discovering = true → (s.view.exec o ch).ctl.Scans := by
      intro hscan
      refine Ctl.Scans.exec (hinv hscan) hat.1 (fun index ho => ?_) ch
      subst ho
      have hover : s.radio.discovering = false := hat.2 hcancels
      rw [hover] at hscan
      cases hscan
    cases o with
    | gapDisc =>
      have hctl : s.view.ctl = rest .scanning := hat.2
      exact ⟨by rw [View.exec_phase]; simp [View.nextPhase, hctl, rest, Phase.scans],
        by rw [View.exec_stage]; simp [View.nextStage, hctl, rest],
        by rw [View.exec_awaiting]; simp [View.nextAwaiting, hctl, rest]⟩
    | gapDiscCancel =>
      simp only [Sys.discoveringAfter, hcancels ch s hg, if_true] at hnext
      cases hnext
    | _ => exact hkeep hnext
  · intro e s s' _ hinv _ _ hstep hnext
    rw [eventStep_discovering hstep] at hnext
    rw [eventStep_ctl hstep]
    exact hinv hnext

/-- **The radio scans alone**, where the end of a scan is never refused. -/
theorem scanAlone (hcancels : Cancels g) (h : Reach host g (boot cfg bonds) c)
    (hscan : c.state.radio.discovering = true) :
    c.state.ctl.phase.scans = true ∧ c.state.ctl.stage = .none ∧ c.state.radio.connecting = none ∧
      c.state.radio.gatt = [] ∧ c.state.nimble.cbSemaphore = false := by
  have hctl := reach_scans hcancels h hscan
  obtain ⟨hcb, hgatt, hconnecting⟩ := tokens_eq_zero (tokenBound h) hctl.awaiting
  exact ⟨hctl.phase, hctl.stage, hconnecting, hgatt, hcb⟩

/-- No end of a scan is refused. -/
def cancelled : Guard Op Choice Sys Event where
  main o c _ := o != .gapDiscCancel || c.rc == 0
  env _ _ := true

theorem cancels_cancelled : Cancels cancelled := fun c _ h => by
  simpa [cancelled] using h

/-- The scan after boot without bonds. -/
theorem scanAlone_started : ∃ c, Reach host cancelled (boot {} []) c ∧
    c.state.radio.discovering = true ∧ c.state.ctl.phase.scans = true ∧
      c.state.radio.connecting = none := by
  obtain ⟨c, hrun, hscan⟩ := exists_run cancelled (scanRun 7) (boot {} [])
    (fun c => c.state.radio.discovering) (by decide +kernel)
  have hreach : Reach host cancelled (boot {} []) c := .of_run hrun
  obtain ⟨hphase, -, hconnecting, -⟩ := scanAlone cancels_cancelled hreach hscan
  exact ⟨c, hreach, hscan, hphase, hconnecting⟩

end Runs

/-! ## Requests -/

/-- The request is one that a transport call makes at this stage: the reads of an open, or, when the
device is open, the notifications that it enables over the connection it names. -/
def GattReq.MadeAt (st : Stage) : GattReq → Prop
  | .services _ | .chrs _ _ _ | .dscs _ _ _ | .read _ _ => ∃ d, st = .linked .open d .secured
  | .write conn _ value arg => value = [1, 0] ∧ arg = conn ∧ ∃ kind d, st = subscribing kind d

/-- What is under way belongs to the transport call in progress. -/
structure Attended (s : Sys) : Prop where
  attempt : ∀ bda, s.radio.connecting = some bda →
    ∃ kind d, s.ctl.stage = .connecting kind d ∧ (d, bda) ∈ s.view.names
  requests : ∀ req ∈ s.radio.gatt, req.MadeAt s.ctl.stage

namespace Attended

variable {s s' : Sys} {o : Op} {e : Event}

theorem of_none (hgatt : s.radio.gatt = []) (hconnecting : s.radio.connecting = none) : Attended s where
  attempt bda h := by rw [hconnecting] at h; cases h
  requests req h := by rw [hgatt] at h; cases h

/-- A request, made where nothing is under way. -/
theorem request {c : Choice} {req : GattReq} (htokens : TokenBound s) (hawait : s.ctl.awaiting = false)
    (hwaits : s'.waits = s.waits.request c req) (hmade : c.rc = 0 → req.MadeAt s'.ctl.stage) :
    Attended s' := by
  obtain ⟨-, hgatt, hconnecting⟩ := tokens_eq_zero htokens hawait
  have hgatt' : s'.radio.gatt = (s.waits.request c req).gatt := congrArg Waits.gatt hwaits
  have hconnecting' : s'.radio.connecting = (s.waits.request c req).connecting :=
    congrArg Waits.connecting hwaits
  by_cases hrc : c.rc = 0
  · simp only [Waits.request, hrc, if_true, Sys.waits, hgatt, List.nil_append, hconnecting]
      at hgatt' hconnecting'
    refine ⟨fun bda h => (by rw [hconnecting'] at h; cases h), fun req' h => ?_⟩
    rw [hgatt'] at h
    rw [List.mem_singleton.mp h]
    exact hmade hrc
  · simp only [Waits.request, hrc, if_false, Sys.waits, hgatt, hconnecting] at hgatt' hconnecting'
    exact .of_none hgatt' hconnecting'

theorem exec {g : Guard Op Choice Sys Event} (htokens : TokenBound s) (c : Choice)
    (hready : o.ready s = true) (hat : PlacedAt g o s) : Attended (o.exec c s) := by
  obtain ⟨hat, hplace⟩ := hat
  have hwaits := exec_waits o c s
  have hquiet : s.ctl.awaiting = false → (o.exec c s).waits = { s.waits with cb := false } ∨
      (o.exec c s).waits = s.waits → Attended (o.exec c s) := by
    intro hawait hsame
    obtain ⟨-, hgatt, hconnecting⟩ := tokens_eq_zero htokens hawait
    rcases hsame with hsame | hsame <;>
      exact .of_none ((congrArg Waits.gatt hsame).trans hgatt)
        ((congrArg Waits.connecting hsame).trans hconnecting)
  have hstage : (o.exec c s).ctl.stage = s.view.nextStage o c := by rw [exec_ctl, View.exec_stage]
  cases o with
  | waitCb =>
    obtain ⟨hgatt, hconnecting⟩ := htokens.of_given hready
    exact .of_none hgatt hconnecting
  | drainCb => exact hquiet hat (.inl hwaits)
  | gapConnect kind d =>
    obtain ⟨-, hgatt, hconnecting⟩ := tokens_eq_zero htokens hat.2
    cases hdev : s.dev? d with
    | none => exact hquiet hat.2 (.inr (hwaits.trans (by simp [Sys.waitsAfter, hdev])))
    | some dev =>
      by_cases haccept : connectAccepted c s dev.bda = true
      · have hwaits' : ((Op.gapConnect kind d).exec c s).waits =
            { s.waits with connecting := some dev.bda } := by
          rw [hwaits]
          simp [Sys.waitsAfter, hdev, haccept]
        refine ⟨fun bda hbda => ⟨kind, d, ?_, ?_⟩, fun req hreq => ?_⟩
        · rw [hstage]
          simp [View.nextStage, hdev, Dev.key, accepts_view, haccept]
        · have hbda' := (congrArg Waits.connecting hwaits').symm.trans hbda
          cases hbda'
          have hnames : ((Op.gapConnect kind d).exec c s).view.names = s.view.names := by
            rw [exec_view, View.exec_names]
            rfl
          rw [hnames]
          have hmem := List.mem_of_find?_eq_some hdev
          have hid : dev.id = d := by simpa using List.find?_some hdev
          exact List.mem_map.mpr ⟨dev.key, List.mem_map.mpr ⟨dev, hmem, rfl⟩, by rw [← hid]; rfl⟩
        · have hnone : ((Op.gapConnect kind d).exec c s).radio.gatt = [] :=
            (congrArg Waits.gatt hwaits').trans hgatt
          rw [hnone] at hreq
          cases hreq
      · exact hquiet hat.2 (.inr (hwaits.trans (by simp [Sys.waitsAfter, hdev, haccept])))
  | discAllSvcs d =>
    refine request htokens hat.2 hwaits fun hrc => ⟨d, ?_⟩
    rw [hstage]
    simp only [View.nextStage, hrc, if_true]
    exact hat.1
  | discAllChrs d _ _ | discAllDscs d _ _ | readLong d _ _ =>
    refine request htokens hat.2 hwaits fun _ => ⟨d, ?_⟩
    rw [hstage]
    exact hat.1
  | writeFlat conn handle value =>
    refine request htokens hat.2 hwaits fun _ => ⟨hplace, rfl, ?_⟩
    rw [hstage]
    exact hat.1
  | _ => exact hquiet (hat.awaiting_eq_false (by simp)) (.inr hwaits)

theorem event (h : Attended s) (hknown : Known s) (hstep : eventStep e s = some s') : Attended s' := by
  have hview := eventStep_view hstep
  have hnames : s'.view.names = s.view.names := by
    by_cases he : e = .dispatch
    · subst he
      rw [View.names, hknown.work.keys hview, View.names]
    · exact hview.names he
  have hwaits := eventStep_waits hstep
  constructor
  · intro bda hbda
    have hold : s.radio.connecting = some bda := by
      have hbda' : s'.waits.connecting = some bda := hbda
      generalize s'.waits = w at hwaits hbda'
      cases hwaits with
      | gattCb => split at hbda' <;> exact hbda'
      | connection => cases hbda'
      | other => exact hbda'
    rw [eventStep_ctl hstep, hnames]
    exact h.attempt bda hold
  · intro req hreq
    rw [eventStep_ctl hstep]
    exact h.requests req (hwaits.gatt_subset hreq)

end Attended

/-- One thing at a time, and the main task waits for it. -/
structure OneAtATime (c : HostConfig) : Prop where
  one : c.state.waits.tokens ≤ 1
  waits : c.state.fault = none → c.state.waits.tokens ≠ 0 → ∃ k, c.task = .op .waitCb k
  attended : Attended c.state

/-- Between blocks nothing is awaited. -/
theorem awaiting_of_ret {g : Guard Op Choice Sys Event} {cfg : KbdConfig} {bonds : List (Bda × UInt8)}
    {c : HostConfig} (h : Reach host g (boot cfg bonds) c) (hlive : c.state.fault = none) {l : Label}
    (htask : c.task = .ret l) : c.state.ctl.awaiting = false := by
  have hwp := reach_placed h
  rw [htask] at hwp
  obtain ⟨q, -, hctl, -⟩ := hwp c.state .refl (live_iff.mpr hlive)
  exact congrArg Ctl.awaiting hctl

/-- **The transport has one thing under way at a time**, and it belongs to the call in progress. -/
theorem oneAtATime {g : Guard Op Choice Sys Event} {cfg : KbdConfig} {bonds : List (Bda × UInt8)}
    {c : HostConfig} (h : Reach host g (boot cfg bonds) c) : OneAtATime c := by
  have htokens := tokenBound h
  refine ⟨Nat.le_trans htokens (Bool.toNat_le _), fun hlive hsome => ?_, ?_⟩
  · have hawait : c.state.ctl.awaiting = true := by
      cases hfalse : c.state.ctl.awaiting with
      | true => rfl
      | false =>
        unfold TokenBound at htokens
        rw [hfalse] at htokens
        exact absurd (Nat.le_zero.mp htokens) hsome
    cases htask : c.task with
    | ret l =>
      rw [awaiting_of_ret h hlive htask] at hawait
      cases hawait
    | op o k =>
      by_cases ho : o = .waitCb
      · subst ho
        exact ⟨k, rfl⟩
      · rw [(reach_op_at h hlive htask).awaiting_eq_false ho] at hawait
        cases hawait
  · exact reach_keeps_placed h (.of_none rfl rfl)
      (fun o ch s hknown _ _ hready _ hat => .exec hknown.tokens ch hready hat)
      fun e s s' hknown hinv _ _ hstep => hinv.event hknown hstep

/-- The first notification of a keyboard is enabled. -/
theorem oneAtATime_subscribing : ∃ c, Reach host .free (boot {} []) c ∧
    c.state.radio.gatt.length = 1 ∧ c.state.ctl.stage = .opened .open 0 ∧ OneAtATime c := by
  let run := scanRun 7 ++ selectRun ++ linkRun 7 ++ (keyboardRun [1]).take 55
  obtain ⟨c, hrun, hstate⟩ := exists_run .free run (boot {} []) (fun c =>
    c.state.radio.gatt.length == 1 && c.state.ctl.stage == .opened .open 0) (by decide +kernel)
  obtain ⟨hgatt, hstage⟩ : c.state.radio.gatt.length = 1 ∧ c.state.ctl.stage = .opened .open 0 := by
    simpa using hstate
  have hreach : Reach host .free (boot {} []) c := .of_run hrun
  exact ⟨c, hreach, hgatt, hstage, oneAtATime hreach⟩

end BleKbdHost.Host
