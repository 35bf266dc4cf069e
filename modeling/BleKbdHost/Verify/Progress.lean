import Mathlib.Algebra.GroupWithZero.Nat
import BleKbdHost.Conc.Progress
import BleKbdHost.Host.Places
import BleKbdHost.Verify.Waiters

/-!
# Progress of the main task

The main task waits for time, for a slot of the event queue and for callbacks. Time passes, the event
task makes room, and what NimBLE has under way ends; so there is one way only to block the main task:
a wait for a callback with nothing under way, and that one is for good.
-/

namespace BleKbdHost.Host

open Hid Keys Conc

/-- The main task waits for a callback, and nothing is under way that could give the semaphore. -/
structure LostWakeup (c : HostConfig) : Prop where
  waiting : ∃ k, c.task = .op .waitCb k
  quiet : c.state.waits.tokens = 0

/-- Time, the event task and the end of what was requested; neither the user nor another peer. -/
def patient : Guard Op Choice Sys Event where
  main _ _ _ := true
  env e _ :=
    match e with
    | .tick _ | .dispatch | .gattCb _ _ | .connectFailed _ => true
    | _ => false

section

variable {g : Guard Op Choice Sys Event} {s s' : Sys} {e : Event}

theorem envStep_of (hlive : s.fault = none) (hg : g.env e s = true) (hstep : eventStep e s = some s') :
    EnvStep host g s s' :=
  ⟨e, live_iff.mpr hlive, hg, hstep⟩

theorem enabled_op {o : Op} {k : Choice → Sys → Prog Label} (hlive : s.fault = none)
    (hready : o.ready s = true) : host.enabled (.op o k) s = true :=
  Bool.and_eq_true_iff.mpr ⟨live_iff.mpr hlive, hready⟩

/-! ## Time -/

/-- The timeouts that an operation waits with. -/
def Op.timeout? : Op → Option (UInt32 × UInt32)
  | .take _ since ticks | .delay since ticks | .receiveCmd since ticks
  | .awaitDisconnect since ticks | .awaitClosed since ticks | .takeSec _ since ticks =>
    some (since, ticks)
  | _ => none

theorem Op.ready_of_elapsed {o : Op} {since ticks : UInt32} (h : o.timeout? = some (since, ticks))
    (helapsed : s.elapsed since ticks = true) : o.ready s = true := by
  cases o with
  | take | delay | receiveCmd | awaitDisconnect | awaitClosed | takeSec =>
    cases h
    simp [Op.ready, helapsed]
  | _ => cases h

theorem elapsed_tick (since ticks : UInt32) :
    ({ s with ticks := s.ticks + (since + ticks - s.ticks) } : Sys).elapsed since ticks = true := by
  have hticks : s.ticks + (since + ticks - s.ticks) - since = ticks := by grind
  simp only [Sys.elapsed, hticks, decide_eq_true_eq]
  exact UInt32.le_refl ticks

/-! ## The event task -/

/-- How many steps the queued events take, at most. -/
def queuedWork (events : List Posted) : Nat := (events.map fun p => (hidhSteps p.event).length + 2).sum

/-- How many steps the event task has left, at most. -/
def Sys.eventWork (s : Sys) : Nat :=
  queuedWork s.hidh.eventQueue.items + (s.hidh.handling.map fun h => h.2.length + 1).getD 0

theorem HidhStep.exec_eventQueue (step : HidhStep) (s : Sys) :
    (step.exec s).hidh.eventQueue = s.hidh.eventQueue := by
  cases step <;> rfl

/-- Only the release of a device may fault. -/
theorem HidhStep.exec_fault {step : HidhStep} (s : Sys) (h : ∀ d, step ≠ .free d) :
    (step.exec s).fault = s.fault := by
  cases step with
  | free d => exact absurd rfl (h d)
  | _ => rfl

theorem handling_eventWork (s : Sys) (p : Posted) (steps : List HidhStep) :
    (s.handling p steps).eventWork ≤ queuedWork s.hidh.eventQueue.items + steps.length + 1 := by
  cases steps with
  | nil => simp [Sys.handling, Sys.eventWork, Sys.note]
  | cons step steps => simp [Sys.handling, Sys.eventWork]; omega

theorem dispatch_fault_eq (hkeep : ∀ d, s.releasing d = false) (h : dispatch s = some s') :
    s'.fault = s.fault := by
  unfold dispatch at h
  split at h
  · rename_i p step steps hhandling
    cases h
    rw [handling_fault]
    refine HidhStep.exec_fault s fun d hstep => ?_
    subst hstep
    have hrel := hkeep d
    simp [Sys.releasing, hhandling] at hrel
  · cases h
    rw [handling_fault]
  · split at h
    · cases h
    · cases h
      rw [handling_fault]

/-- **A step of the event task leaves it less to do.** -/
theorem dispatch_eventWork (h : dispatch s = some s') : s'.eventWork < s.eventWork := by
  unfold dispatch at h
  split at h
  · rename_i p step steps hhandling
    cases h
    refine Nat.lt_of_le_of_lt (handling_eventWork (step.exec s) p steps) ?_
    simp only [step.exec_eventQueue, Sys.eventWork, hhandling, Option.map_some, Option.getD_some,
      List.length_cons]
    omega
  · rename_i p hhandling
    cases h
    simp [Sys.handling, Sys.note, Sys.eventWork, hhandling]
  · rename_i hhandling
    split at h
    · cases h
    · rename_i p ps hitems
      cases h
      refine Nat.lt_of_le_of_lt (handling_eventWork _ p (hidhSteps p.event)) ?_
      simp only [BoundedQueue.items_tail, hitems, List.tail_cons, Sys.eventWork, hhandling,
        Option.map_none, Option.getD_none, queuedWork, List.map_cons, List.sum_cons]
      omega

theorem dispatch_isSome (h : s.hidh.eventQueue.items ≠ []) : (dispatch s).isSome = true := by
  unfold dispatch
  split
  · rfl
  · rfl
  · split
    · rename_i hitems
      exact absurd hitems h
    · rfl

/-- The event task makes room. -/
theorem dispatch_room (hbasics : Basics s) (hlive : s.fault = none) :
    ∃ s', Interfere host patient s s' ∧ s'.fault = none ∧ s'.hidh.eventQueue.hasRoom = true := by
  have hexhaust := Interfere.exhaust (M := host) (g := patient) Sys.eventWork
    (I := fun s => Basics s ∧ s.fault = none) (P := fun s => s.hidh.eventQueue.hasRoom = true) ?_
    ⟨hbasics, hlive⟩
  · obtain ⟨s', hrun, ⟨-, hfault⟩, hroom⟩ := hexhaust
    exact ⟨s', hrun, hfault, hroom⟩
  · rintro s ⟨hbasics, hs⟩ hfull
    have hitems : s.hidh.eventQueue.items ≠ [] := fun hnil =>
      hfull (by simp [BoundedQueue.hasRoom, hnil])
    obtain ⟨s', hstep⟩ := Option.isSome_iff_exists.mp (dispatch_isSome hitems)
    have hstep' : eventStep .dispatch s = some s' := hstep
    exact ⟨s', envStep_of hs rfl hstep', ⟨hbasics.event hstep',
      (dispatch_fault_eq hbasics.not_releasing hstep).trans hs⟩, dispatch_eventWork hstep⟩

/-! ## Callbacks -/

/-- Writes are sent with their own connection as argument. -/
def OwnWrites (s : Sys) : Prop :=
  ∀ conn handle value arg, .write conn handle value arg ∈ s.radio.gatt → arg = conn

theorem ownWrites {cfg : KbdConfig} {bonds : List (Bda × UInt8)} {c : HostConfig}
    (h : Reach host g (boot cfg bonds) c) : OwnWrites c.state :=
  reach_keeps h (fun _ _ _ _ hmem => (by cases hmem))
    (fun _ _ _ hinv _ _ _ _ => exec_writes hinv) fun _ _ _ hinv _ _ hstep conn handle value arg hmem =>
      hinv conn handle value arg ((eventStep_waits hstep).gatt_subset hmem)

/-- What was requested can end, with the semaphore given. -/
theorem request_ends {req : GattReq} {reqs : List GattReq} (hlive : s.fault = none)
    (hwrites : OwnWrites s) (hgatt : s.radio.gatt = req :: reqs) :
    ∃ s', Interfere host patient s s' ∧ s'.fault = none ∧ s'.nimble.cbSemaphore = true := by
  have hone : ∀ s₁ : Sys, eventStep (.gattCb 0 .done) s = some s₁ → s₁.fault = none →
      s₁.nimble.cbSemaphore = true →
      ∃ s', Interfere host patient s s' ∧ s'.fault = none ∧ s'.nimble.cbSemaphore = true :=
    fun _ hstep hfault hcb => ⟨_, .single (envStep_of hlive rfl hstep), hfault, hcb⟩
  cases req with
  | services _ | chrs _ _ _ | dscs _ _ _ =>
    exact hone (discEnded (s.endRequest 0) 0) (by simp only [eventStep, gattCb, hgatt]; rfl)
      hlive rfl
  | write conn handle value arg =>
    have harg : arg = conn := hwrites conn handle value arg (hgatt ▸ List.mem_cons_self)
    subst harg
    have hend : onWrite (s.endRequest 0) arg arg = (s.endRequest 0).sendCb := if_pos rfl
    refine hone ((s.endRequest 0).sendCb) ?_ hlive rfl
    simp only [eventStep, gattCb, hgatt, List.getElem?_cons_zero, hend]
  | read conn handle =>
    cases hdata : s.nimble.readDataVal with
    | some buf =>
      have hend : onReadDone (s.endRequest 0) =
          { s.endRequest 0 with nimble := { s.nimble with readStatus := 0 } }.sendCb :=
        if_pos (by rw [show (s.endRequest 0).nimble.readDataVal = some buf from hdata]; rfl)
      refine hone (onReadDone (s.endRequest 0)) ?_ (by rw [hend]; exact hlive) (by rw [hend]; rfl)
      simp only [eventStep, gattCb, hgatt, List.getElem?_cons_zero]
    | none =>
      -- the read ends with data only
      have hfirst : eventStep (.gattCb 0 (.data [])) s = some (onReadData s []) := by
        simp [eventStep, gattCb, hgatt]
      have hread : (onReadData s []).nimble.readDataVal.isSome = true ∧
          (onReadData s []).fault = none ∧ (onReadData s []).radio.gatt = s.radio.gatt := by
        simp [onReadData, hdata, hlive]
      obtain ⟨hsome, hfault, hsame⟩ := hread
      have hsecond : eventStep (.gattCb 0 .done) (onReadData s []) =
          some (onReadDone ((onReadData s []).endRequest 0)) := by
        simp [eventStep, gattCb, hsame, hgatt]
      refine ⟨_, .tail (.single (envStep_of hlive rfl hfirst)) (envStep_of hfault rfl hsecond), ?_⟩
      simp [onReadDone, hsome, hfault]

/-- So can a connection attempt. -/
theorem attempt_ends (hlive : s.fault = none) (hsome : s.radio.connecting.isSome = true) :
    ∃ s', Interfere host patient s s' ∧ s'.fault = none ∧ s'.nimble.cbSemaphore = true := by
  have hstep : eventStep (.connectFailed 1) s =
      some { s with radio := { s.radio with connecting := none } }.sendCb := by
    simp only [eventStep, gapConnectFailed, hsome]
    rfl
  exact ⟨_, .single (envStep_of hlive rfl hstep), hlive, rfl⟩

/-- A callback that is under way can come. -/
theorem token_given (hlive : s.fault = none) (hwrites : OwnWrites s) (htokens : s.waits.tokens ≠ 0) :
    ∃ s', Interfere host patient s s' ∧ s'.fault = none ∧ s'.nimble.cbSemaphore = true := by
  cases hcb : s.nimble.cbSemaphore with
  | true => exact ⟨s, .refl, hlive, hcb⟩
  | false =>
    cases hgatt : s.radio.gatt with
    | cons req reqs => exact request_ends hlive hwrites hgatt
    | nil =>
      refine attempt_ends hlive ?_
      cases hsome : s.radio.connecting with
      | some peer => rfl
      | none => simp [Waits.tokens, Sys.waits, hcb, hgatt, hsome] at htokens

/-- Nothing under way stays nothing under way. -/
theorem stable_quiet : Stable host g fun s => s.waits.tokens = 0 := by
  rintro s s' ⟨e, -, -, hstep⟩ hs
  exact Nat.le_zero.mp (hs ▸ (eventStep_waits hstep).tokens_le)

theorem not_ready_of_quiet (s : Sys) (h : s.waits.tokens = 0) : host.ready .waitCb s = false := by
  cases hcb : s.nimble.cbSemaphore with
  | false => exact hcb
  | true =>
    simp only [Waits.tokens, Sys.waits, hcb, Bool.toNat_true] at h
    omega

end

/-! ## The result -/

/-- An operation can become ready, unless it waits for a callback that nothing will give. -/
theorem canMove_op {s : Sys} {o : Op} {k : Choice → Sys → Prog Label} (hlive : s.fault = none)
    (hbasics : Basics s) (hwrites : OwnWrites s)
    (htokens : o = .waitCb → s.waits.tokens ≠ 0) :
    CanMove host patient ⟨.op o k, s⟩ := by
  cases htimeout : o.timeout? with
  | some wait =>
    obtain ⟨since, ticks⟩ := wait
    refine ⟨_, .single (envStep_of (e := .tick (since + ticks - s.ticks)) hlive rfl rfl), ?_⟩
    exact enabled_op hlive (Op.ready_of_elapsed htimeout (elapsed_tick since ticks))
  | none =>
    cases o with
    | waitCb =>
      obtain ⟨s', hrun, hfault, hcb⟩ := token_given hlive hwrites (htokens rfl)
      exact ⟨s', hrun, enabled_op hfault hcb⟩
    | postOpen kind d =>
      obtain ⟨s', hrun, hfault, hroom⟩ := dispatch_room hbasics hlive
      exact ⟨s', hrun, enabled_op hfault hroom⟩
    | take | delay | receiveCmd | awaitDisconnect | awaitClosed | takeSec => cases htimeout
    | _ => exact .of_enabled (enabled_op hlive rfl)

/-- Where no wakeup is lost, the main task can move. -/
theorem canMove_of_not_lost {cfg : KbdConfig} {bonds : List (Bda × UInt8)} {c : HostConfig}
    (h : Reach host .free (boot cfg bonds) c) (hlive : c.state.fault = none) (hlost : ¬LostWakeup c) :
    CanMove host patient c := by
  rcases c with ⟨t, s⟩
  cases t with
  | ret l => exact .of_enabled (live_iff.mpr hlive)
  | op o k =>
    refine canMove_op hlive (known h).toBasics (ownWrites h) fun ho hquiet => hlost ⟨?_, hquiet⟩
    subst ho
    exact ⟨k, rfl⟩

/-- The one token of a wait stays, as long as no read ends with an error. -/
theorem stable_served : Stable host answered fun s => Served s ∧ s.ctl.awaiting = true := by
  rintro s s' ⟨e, -, hg, hstep⟩ ⟨hserved, hawait⟩
  exact ⟨hserved.event hg hstep, eventStep_ctl hstep ▸ hawait⟩

/-- **A wakeup is lost to a read that ends with an error**, and to no other event. -/
theorem not_lost_interfere {cfg : KbdConfig} {bonds : List (Bda × UInt8)} {c : HostConfig}
    (h : Reach host .free (boot cfg bonds) c) (hlive : c.state.fault = none) (hlost : ¬LostWakeup c)
    {s : Sys} (hs : Interfere host answered c.state s) : ¬LostWakeup ⟨c.task, s⟩ := by
  rintro ⟨⟨k, htask⟩, hquiet⟩
  have hawait : c.state.ctl.awaiting = true := reach_op_at h hlive htask
  have hbound := (known h).tokens
  have htokens : c.state.waits.tokens = 1 := by
    have hsome : c.state.waits.tokens ≠ 0 := fun hzero => hlost ⟨⟨k, htask⟩, hzero⟩
    unfold TokenBound at hbound
    rw [hawait, Bool.toNat_true] at hbound
    omega
  have hserved : Served c.state := ⟨by rw [htokens, hawait]; rfl, ownWrites h⟩
  obtain ⟨hserved', hawait'⟩ := stable_served.interfere hs ⟨hserved, hawait⟩
  have hone := hserved'.tokens
  rw [hawait', hquiet] at hone
  cases hone

/-- **The main task blocks only where a wakeup is lost.** Wherever a run stands, time, the event task
and the end of what was requested can bring the main task to its next step, unless it waits for a
callback with nothing under way; then it never moves again, whatever happens. Nothing that happens while
it waits takes the next step away from it, but a read that ends with an error. -/
theorem progress {cfg : KbdConfig} {bonds : List (Bda × UInt8)} {c : HostConfig}
    (h : Reach host .free (boot cfg bonds) c) (hlive : c.state.fault = none) :
    (CanMove host patient c ↔ ¬LostWakeup c) ∧
      (LostWakeup c → ∀ c', Reach host .free c c' → c'.task = c.task) ∧
      (CanMove host patient c → ∀ s, Interfere host answered c.state s → s.fault = none →
        CanMove host patient ⟨c.task, s⟩) := by
  have hmoves : CanMove host patient c → ¬LostWakeup c := by
    rcases c with ⟨t, s⟩
    rintro hmove ⟨⟨k, rfl⟩, hquiet⟩
    exact stable_quiet.not_canMove hquiet not_ready_of_quiet hmove
  refine ⟨⟨hmoves, canMove_of_not_lost h hlive⟩, ?_, fun hmove s hs hfault => ?_⟩
  · rcases c with ⟨t, s⟩
    rintro ⟨⟨k, rfl⟩, hquiet⟩ c' hreach
    exact (stable_quiet.blocked hquiet not_ready_of_quiet hreach).1
  · exact canMove_of_not_lost (h.interfere (hs.mono fun _ _ _ => rfl)) hfault
      (not_lost_interfere h hlive (hmoves hmove) hs)

theorem LostWakeup.of_unanswered {c : HostConfig} (h : unanswered c = true) : LostWakeup c := by
  simp only [unanswered, Bool.and_eq_true, Bool.not_eq_true', Option.isNone_iff_eq_none,
    List.isEmpty_iff] at h
  obtain ⟨⟨⟨⟨htask, -⟩, hcb⟩, hgatt⟩, hconnecting⟩ := h
  refine ⟨?_, by simp [Waits.tokens, Sys.waits, hcb, hgatt, hconnecting]⟩
  split at htask
  · rename_i k hop
    exact ⟨k, hop⟩
  · cases htask

/-- The request for the services is refused: the main task waits for good. -/
theorem progress_refused : ∃ c, Reach host .free (boot {} []) c ∧ c.state.fault = none ∧
    ¬CanMove host patient c ∧ ∀ c', Reach host .free c c' → c'.task = c.task := by
  let run := scanRun 7 ++ selectRun ++ linkRun 7 ++ [.main { rc := 1 }]
  obtain ⟨c, hrun, hstate⟩ := exists_run .free run (boot {} []) (fun c =>
    unanswered c && c.state.fault.isNone) (by decide +kernel)
  obtain ⟨hwaits, hlive⟩ : unanswered c = true ∧ c.state.fault = none := by simpa using hstate
  have hreach : Reach host .free (boot {} []) c := .of_run hrun
  have hlost := LostWakeup.of_unanswered hwaits
  obtain ⟨hmove, hgood, -⟩ := progress hreach hlive
  exact ⟨c, hreach, hlive, fun hcan => hmove.mp hcan hlost, hgood hlost⟩

end BleKbdHost.Host
