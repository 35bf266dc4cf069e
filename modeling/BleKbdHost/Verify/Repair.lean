import BleKbdHost.Host.Frame

/-!
# Re-pair requests

A request of `ble_kbd_host_start_pairing` goes through the four-slot command queue. The three waits
that poll it look at its head only, so a selection in front of a request blocks it, and a request
that finds no slot is gone. In runs without either, the next poll acts on a pending request.
-/

namespace BleKbdHost.Host

open Hid Keys Conc

/-! ## The property -/

/-- One round's poll of the command queue. -/
def PollSite.poll (deadline : UInt32) : PollSite → Prog Label
  | .bonded => bondedPoll deadline
  | .connecting => connectingPoll deadline
  | .connected => connectedPoll

/-- The branch that acts on a request. -/
def PollSite.repair : PollSite → Prog Label
  | .bonded => bondedRepair
  | .connecting => connectingRepair
  | .connected => connectedRepair

def Obs.isStartPairing : Obs → Bool
  | .startPairing _ => true
  | _ => false

/-- The calls of `ble_kbd_host_start_pairing`. -/
def requests (trace : List Obs) : Nat := trace.countP Obs.isStartPairing

/-- The requests that were acted on. -/
def repairs (trace : List Obs) : Nat := trace.count .repair

/-- A request has not been acted on yet. -/
def RepairPending (trace : List Obs) : Prop := repairs trace < requests trace

instance (trace : List Obs) : Decidable (RepairPending trace) := Nat.decLt ..

/-- If the main task polls while a request is pending, it acts on it. -/
def NextPollActs (c : HostConfig) : Prop :=
  ∀ site deadline ch c', c.task = PollSite.poll deadline site → RepairPending c.state.trace →
    host.step (.main ch) c = some c' → c'.task = site.repair

/-! ## The condition -/

/-- If a request is queued, one is at the head. -/
def requestLeads (items : List KbdCmd) : Bool :=
  !items.contains .startPairing || items.head? == some .startPairing

/-- The phases that poll. -/
def Phase.polls : Phase → Bool
  | .bonded | .connecting | .connected => true
  | .announcing next => next.polls
  | _ => false

/-- A request finds a free slot and, where the main task only polls, no selection in front of it; no
such phase begins with a selection in front of a request. -/
def repairable : Guard Op Choice Sys Event where
  main o _ s :=
    match o with
    | .openCall _ _ | .setState .connected => requestLeads s.kbd.cmdQueue.items
    | _ => true
  env e s :=
    match e with
    | .startPairing => s.kbd.cmdQueue.hasRoom &&
        (!s.ctl.phase.polls || requestLeads (s.kbd.cmdQueue.items ++ [.startPairing]))
    | _ => true

/-! ## The invariant -/

/-- Every request that was not acted on is queued, and polls see it. -/
structure RepairsQueued (v : View) : Prop where
  counted : v.kbd.cmdQueue.items.count .startPairing + repairs v.trace = requests v.trace
  leads : v.ctl.phase.polls = true → requestLeads v.kbd.cmdQueue.items = true

theorem requestLeads_iff {items : List KbdCmd} : requestLeads items = true ↔
    (.startPairing ∈ items → items.head? = some .startPairing) := by
  simp [requestLeads, Decidable.imp_iff_not_or]

theorem requests_append {l trace : List Obs} (h : ∀ o ∈ l, o.isStartPairing = false) :
    requests (l ++ trace) = requests trace := by
  have hzero : l.countP Obs.isStartPairing = 0 := List.countP_eq_zero.mpr fun o ho => by simp [h o ho]
  rw [requests, List.countP_append, hzero, Nat.zero_add, requests]

theorem repairs_append {l trace : List Obs} (h : .repair ∉ l) :
    repairs (l ++ trace) = repairs trace := by
  rw [repairs, List.count_append, List.count_eq_zero_of_not_mem h, Nat.zero_add, repairs]

/-- A selection behind the queued requests does not block them. -/
theorem requestLeads_send_selectDevice {q : BoundedQueue 4 KbdCmd} (index : Int)
    (h : requestLeads q.items = true) :
    requestLeads (q.send (.selectDevice index)).items = true := by
  rw [requestLeads_iff] at h ⊢
  rw [BoundedQueue.items_send]
  split
  · intro hmem
    have hmem' : .startPairing ∈ q.items := by simpa using hmem
    rw [List.head?_append, h hmem']
    rfl
  · exact h

/-- No operation records a call of the application. -/
theorem requests_exec (o : Op) (ch : Choice) (v : View) :
    requests (v.exec o ch).trace = requests v.trace := by
  rw [View.exec_trace]
  refine requests_append fun obs hobs => ?_
  have hnoted := View.noted_origin (Option.mem_toList.mp hobs)
  cases obs with
  | startPairing queued => exact hnoted.elim
  | _ => rfl

/-- Where the phase after an operation polls, the one before did, or such a phase begins. -/
theorem View.PhaseStep.polls {o : Op} {v : View} {q r : Phase} (h : View.PhaseStep v o q r)
    (hr : r.polls = true) :
    q.polls = true ∨ (∃ site bda, o = .openCall site bda) ∨ o = .setState .connected := by
  cases h with
  | stays | announced => exact .inl hr
  | bonded bda => exact .inr (.inl ⟨_, bda, rfl⟩)
  | connecting bda => exact .inr (.inl ⟨_, bda, rfl⟩)
  | setConnected => exact .inr (.inr rfl)
  | _ => cases hr

/-! ## Steps -/

/-- Taking the head of the queue counts as acting on it if it is a request. -/
theorem RepairsQueued.receive {v : View} (h : RepairsQueued v) (since ticks : UInt32) (ch : Choice)
    (hat : (Op.receiveCmd since ticks).At v.ctl) :
    RepairsQueued (v.exec (.receiveCmd since ticks) ch) where
  counted := by
    have hcount := h.counted
    rw [requests_exec, ← hcount, View.exec_trace, View.exec_cmdQueue]
    simp only [View.noted, BoundedQueue.items_tail]
    rcases v.kbd.cmdQueue.items with _ | ⟨cmd, items⟩
    · rfl
    · cases cmd with
      | startPairing =>
        simp [repairs, KbdCmd.obs]
        omega
      | selectDevice index => simp [repairs, KbdCmd.obs]
  leads := by
    rw [View.exec_phase]
    intro hpolls
    rcases (View.phaseStep hat).polls hpolls with hbefore | ⟨site, bda, heq⟩ | heq
    · rcases hat.1 with hph | hph | ⟨site, -, hph⟩ <;>
      · rw [hph] at hbefore
        cases hbefore
    · cases heq
    · cases heq

/-- **An operation keeps the requests queued and visible.** -/
theorem RepairsQueued.exec {s : Sys} {o : Op} {ch : Choice} (h : RepairsQueued s.view)
    (hg : repairable.main o ch s = true) (hat : o.At s.ctl) :
    RepairsQueued (s.view.exec o ch) := by
  by_cases hreceive : ∃ since ticks, o = .receiveCmd since ticks
  · obtain ⟨since, ticks, rfl⟩ := hreceive
    exact h.receive since ticks ch hat
  · have hqueue : (s.view.exec o ch).kbd.cmdQueue = s.view.kbd.cmdQueue := by
      rw [View.exec_cmdQueue]
      cases o with
      | receiveCmd since ticks => exact absurd ⟨since, ticks, rfl⟩ hreceive
      | _ => rfl
    constructor
    · rw [requests_exec, hqueue, View.exec_trace, repairs_append]
      · exact h.counted
      · exact fun hmem => hreceive (View.noted_origin (Option.mem_toList.mp hmem)).1
    · intro hpolls
      rw [View.exec_phase] at hpolls
      rw [hqueue]
      rcases (View.phaseStep hat).polls hpolls with hbefore | ⟨site, bda, rfl⟩ | rfl
      · exact h.leads hbefore
      · exact hg
      · exact hg

/-- **An event keeps the requests queued and visible.** -/
theorem RepairsQueued.effect {e : Event} {v v' : View} (h : RepairsQueued v)
    (heff : View.Effect e v v') (hroom : e = .startPairing → v.kbd.cmdQueue.hasRoom = true)
    (hleads : e = .startPairing → v.ctl.phase.polls = true →
      requestLeads (v.kbd.cmdQueue.items ++ [.startPairing]) = true) : RepairsQueued v' := by
  have hphase : v'.ctl.phase = v.ctl.phase := congrArg Ctl.phase heff.ctl
  by_cases hstart : e = .startPairing
  · subst hstart
    have hqueue := BoundedQueue.items_send_of_hasRoom (hroom rfl) .startPairing
    cases heff with
    | quiet _ hquiet => cases hquiet
    | startPairing _ =>
      refine ⟨?_, fun hpolls => ?_⟩
      · have hcount := h.counted
        simp only [hqueue]
        simp [requests, repairs, List.countP_cons, Obs.isStartPairing] at hcount ⊢
        omega
      · simp only [hqueue]
        exact hleads rfl hpolls
  by_cases hselect : ∃ index, e = .selectDevice index
  · obtain ⟨index, rfl⟩ := hselect
    cases heff with
    | quiet _ hquiet => cases hquiet
    | selectDevice _ _ =>
      refine ⟨?_, fun hpolls => requestLeads_send_selectDevice index (h.leads hpolls)⟩
      have hcount := h.counted
      simp only [BoundedQueue.items_send]
      split <;> simpa [requests, repairs, List.countP_cons, Obs.isStartPairing] using hcount
  · have hqueue : v'.kbd.cmdQueue = v.kbd.cmdQueue := by
      rw [heff.cmdQueue]
      cases e with
      | startPairing => exact absurd rfl hstart
      | selectDevice index => exact absurd ⟨index, rfl⟩ hselect
      | _ => rfl
    obtain ⟨l, htrace, hl⟩ := heff.trace hstart fun index he => hselect ⟨index, he⟩
    refine ⟨?_, fun hpolls => ?_⟩
    · rw [hqueue, htrace, requests_append, repairs_append]
      · exact h.counted
      · intro hmem
        cases hl _ hmem
      · intro o ho
        have := hl o ho
        cases o <;> first | rfl | cases this
    · rw [hqueue]
      exact h.leads (hphase ▸ hpolls)

/-- The invariant holds in every run that meets the condition. -/
theorem repairsQueued {cfg : KbdConfig} {bonds : List (Bda × UInt8)} {c : HostConfig}
    (h : Reach host repairable (boot cfg bonds) c) : RepairsQueued c.state.view := by
  refine reach_keeps (I := fun s => RepairsQueued s.view) h ⟨rfl, nofun⟩ ?_ ?_
  · intro o ch s hinv _ _ hg hat
    rw [exec_view]
    exact hinv.exec hg hat
  · intro e s s' hinv _ hg hstep
    refine hinv.effect (eventStep_view hstep) ?_ ?_ <;> rintro rfl
    · exact (Bool.and_eq_true_iff.mp hg).1
    · intro hpolls
      have hpolls' : s.ctl.phase.polls = true := hpolls
      have hleads := (Bool.and_eq_true_iff.mp hg).2
      rw [hpolls'] at hleads
      exact hleads

/-! ## The result -/

theorem PollSite.polls (site : PollSite) : site.phase.polls = true := by
  cases site <;> rfl

/-- A pending request is at the head of the queue where the main task polls. -/
theorem RepairsQueued.head {v : View} (h : RepairsQueued v) (hpolls : v.ctl.phase.polls = true)
    (hpending : RepairPending v.trace) : v.kbd.cmdQueue.items.head? = some .startPairing := by
  refine requestLeads_iff.mp (h.leads hpolls) (List.count_pos_iff.mp ?_)
  have hcount := h.counted
  unfold RepairPending at hpending
  omega

theorem step_poll {site : PollSite} {deadline : UInt32} {ch : Choice} {c c' : HostConfig}
    (htask : c.task = site.poll deadline) (hstep : host.step (.main ch) c = some c')
    (hhead : c.state.kbd.cmdQueue.items.head? = some .startPairing) : c'.task = site.repair := by
  rcases System.step_main_cases hstep with ⟨l, hret, -, -⟩ | ⟨o, k, hop, -, -, rfl⟩
  · rw [htask] at hret
    cases site <;> cases hret
  · rw [htask] at hop
    cases site <;>
    · cases hop
      simp only [hhead]
      rfl

/-- **Re-pair is not lost.** In every run in which each request finds a free slot and no selection
stands in front of a request where the main task only polls, the next poll acts on a pending
request. -/
theorem nextPollActs_of_repairable {cfg : KbdConfig} {bonds : List (Bda × UInt8)} {c : HostConfig}
    (h : Reach host repairable (boot cfg bonds) c) : NextPollActs c := by
  intro site deadline ch c' htask hpending hstep
  have hinv := repairsQueued h
  have hpoll : ∃ k, c.task = .op (.peekCmd site) k := by
    rw [htask]
    cases site <;> exact ⟨_, rfl⟩
  obtain ⟨k, hk⟩ := hpoll
  have hlive : c.state.fault = none := by
    rcases System.step_main_cases hstep with ⟨l, -, hlive, -⟩ | ⟨o, k, -, hlive, -, -⟩ <;>
      exact live_iff.mp hlive
  have hat : c.state.ctl = ⟨site.phase, .none, false⟩ := reach_op_at h hlive hk
  refine step_poll htask hstep (hinv.head ?_ hpending)
  simp [Sys.view, hat, site.polls]

/-! ## Runs -/

/-- From a selection to the poll of the connecting wait; the device is not allocated. -/
def connectRun : List (Move Choice Event) :=
  mains 8 ++ [.env (.tick 30)] ++ mains 8 ++ [.main { rc := 1 }] ++ mains 7 ++
    [.env (.tick 10)] ++ mains 1

/-- The request comes while the main task connects. -/
theorem nextPollActs_connecting : ∃ c, host.run repairable
    (scanRun 7 ++ [.env (.selectDevice 0)] ++ connectRun ++ [.env .startPairing]) (boot {} []) =
      some c ∧ RepairPending c.state.trace ∧ NextPollActs c := by
  obtain ⟨c, hrun, hpending⟩ := exists_run repairable
    (scanRun 7 ++ [.env (.selectDevice 0)] ++ connectRun ++ [.env .startPairing]) (boot {} [])
    (fun c => decide (RepairPending c.state.trace)) (by decide +kernel)
  exact ⟨c, hrun, of_decide_eq_true hpending, nextPollActs_of_repairable (Reach.of_run hrun)⟩

/-- Two selections, then a request: the second selection is in front of the request in the
connecting wait. -/
theorem not_nextPollActs_behind_selection :
    ∃ c, Reach host .free (boot {} []) c ∧ ¬NextPollActs c := by
  let run := scanRun 7 ++ [.env (.selectDevice 0), .env (.selectDevice 0), .env .startPairing] ++
    connectRun
  obtain ⟨c, hrun, hpending⟩ := exists_run .free run (boot {} [])
    (fun c => decide (RepairPending c.state.trace)) (by decide +kernel)
  refine ⟨c, .of_run hrun, fun hacts => ?_⟩
  have htask : (host.run .free run (boot {} [])).map (·.task) = some (connectingPoll 6030) := rfl
  have hnext : ((host.run .free run (boot {} [])).bind (host.step (.main {}))).map (·.task) =
    some (.ret (.connecting 6030)) := rfl
  rw [hrun] at htask hnext
  obtain ⟨c', hstep, hreturn⟩ := Option.map_eq_some_iff.mp hnext
  have hrepair := hacts .connecting 6030 {} c' (Option.some.inj htask) (of_decide_eq_true hpending)
    hstep
  rw [hreturn] at hrepair
  cases hrepair

end BleKbdHost.Host
