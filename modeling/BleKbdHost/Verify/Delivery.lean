import Mathlib.Data.List.Nodup
import BleKbdHost.Conc.Channel
import BleKbdHost.Host.EventLog

/-!
# Events and commands are delivered exactly once

The main task and the host task post events to the event loop, and the application sends commands to
the main task. Both are channels: over a whole run, what was accepted is what was handled and, behind
it, what is pending, in one order, whatever the consumer does with it. The event task goes through the
handlers of the oldest event, step by step; what the main task makes of a command is the subject of
`Verify/Selection` and `Verify/Pairing`.
-/

namespace BleKbdHost.Host

open Hid Keys Conc

/-- The event loop of `esp_hidh.c`. -/
def eventChannel : Channel Obs Posted where
  sent?
    | .posted p => some p
    | _ => none
  received?
    | .handled p => some p
    | _ => none

/-- `s_cmd_queue`. -/
def cmdChannel : Channel Obs KbdCmd where
  sent?
    | .startPairing true => some .startPairing
    | .selectDevice param true => some (.selectDevice param)
    | _ => none
  received?
    | .repair => some .startPairing
    | .selection param => some (.selectDevice param)
    | _ => none

/-- The part of a step in the event channel: `l` is what it records. -/
structure Transmits (v v' : View) (l : List Obs) : Prop where
  trace : v'.trace = l ++ v.trace
  pending : v.pending ++ eventChannel.sent l = eventChannel.received l ++ v'.pending
  numbered : ∃ n, v'.nextSeq = v.nextSeq + n ∧
    (eventChannel.sent l).map (·.seq) = List.range' v.nextSeq n

/-- What was posted so far is what was handled and, behind it, what is pending, and the posted
events are numbered in their order. -/
structure EventsCarried (v : View) : Prop where
  carried : eventChannel.Carries v.trace v.pending
  numbered : (eventChannel.sent v.trace).map (·.seq) = List.range v.nextSeq

/-- And the event task is at some step of its handlers for the oldest event that is pending. -/
structure EventsDelivered (v : View) : Prop extends EventsCarried v where
  handlers : ∀ p steps, v.handling = some (p, steps) →
    v.pending.head? = some p ∧ steps <:+ hidhSteps p.event

variable {o : Op} {e : Event} {v v' w : View} {l : List Obs}

namespace EventsCarried

theorem step (h : EventsCarried v) (hstep : Transmits v v' l) : EventsCarried v' := by
  obtain ⟨n, hnext, hnumbered⟩ := hstep.numbered
  constructor
  · rw [hstep.trace]
    exact h.carried.append hstep.pending
  · rw [hstep.trace, Channel.sent_append, List.map_append, h.numbered, hnumbered, hnext,
      List.range_eq_range', List.range_eq_range', ← List.range'_append_1, Nat.zero_add]

/-- No event is handled twice, and none that was handled is still pending. -/
theorem once (h : EventsCarried v) : (eventChannel.received v.trace ++ v.pending).Nodup := by
  refine h.carried.nodup (List.Nodup.of_map (·.seq) ?_)
  rw [h.numbered]
  exact List.nodup_range

end EventsCarried

/-! ## Steps -/

namespace Transmits

/-- A step that neither posts nor completes an event. -/
theorem quiet (htrace : v'.trace = l ++ v.trace) (hpending : v'.pending = v.pending)
    (hnext : v'.nextSeq = v.nextSeq)
    (hl : ∀ obs ∈ l, eventChannel.sent? obs = none ∧ eventChannel.received? obs = none) :
    Transmits v v' l := by
  have hsent := Channel.sent_eq_nil fun obs hobs => (hl obs hobs).1
  have hreceived := Channel.received_eq_nil fun obs hobs => (hl obs hobs).2
  refine ⟨htrace, ?_, 0, hnext, ?_⟩
  · rw [hsent, hreceived, hpending]
    exact List.append_nil _
  · rw [hsent]
    rfl

theorem same (htrace : v'.trace = v.trace) (hpending : v'.pending = v.pending)
    (hnext : v'.nextSeq = v.nextSeq) : Transmits v v' [] :=
  quiet (l := []) htrace hpending hnext (by simp)

/-- One more record, of neither kind. -/
theorem note {obs : Obs} (htrace : v'.trace = obs :: v.trace) (hpending : v'.pending = v.pending)
    (hnext : v'.nextSeq = v.nextSeq) (hsent : eventChannel.sent? obs = none)
    (hreceived : eventChannel.received? obs = none) : Transmits v v' [obs] := by
  refine quiet (l := [obs]) htrace hpending hnext fun obs' hobs => ?_
  rw [List.mem_singleton.mp hobs]
  exact ⟨hsent, hreceived⟩

/-- After a quiet step, an event is posted. -/
theorem post (h : Transmits v w l) (event : HidhEvent) (hroom : w.eventQueue.hasRoom = true) :
    Transmits v (w.post event) (.posted ⟨w.nextSeq, event⟩ :: l) := by
  have hsent : eventChannel.sent (.posted ⟨w.nextSeq, event⟩ :: l) =
      eventChannel.sent l ++ [⟨w.nextSeq, event⟩] := Channel.sent_append [_] l
  have hreceived : eventChannel.received (.posted ⟨w.nextSeq, event⟩ :: l) =
      eventChannel.received l := (Channel.received_append [_] l).trans (List.append_nil _)
  have hpending : (w.post event).pending = w.pending ++ [⟨w.nextSeq, event⟩] := by
    rw [View.pending, View.post, BoundedQueue.items_send_of_hasRoom hroom, View.pending,
      List.append_assoc]
  obtain ⟨n, hnext, hnumbered⟩ := h.numbered
  refine ⟨congrArg (_ :: ·) h.trace, ?_, n + 1, congrArg (· + 1) hnext, ?_⟩
  · rw [hsent, hreceived, hpending, ← List.append_assoc, h.pending, List.append_assoc]
  · rw [hsent, List.map_append, hnumbered, ← List.range'_append_1]
    simp [hnext]

/-- The event task has done a step of the oldest event, or is done with it. -/
theorem handling (p : Posted) (steps : List HidhStep) (hpending : v.pending = p :: w.eventQueue.items)
    (htrace : w.trace = l ++ v.trace) (hnext : w.nextSeq = v.nextSeq)
    (hl : ∀ obs ∈ l, obs.ofStep = true) : ∃ l', Transmits v (w.setHandling p steps) l' := by
  have hquiet : ∀ obs ∈ l, eventChannel.sent? obs = none ∧ eventChannel.received? obs = none := by
    intro obs hobs
    have hof := hl obs hobs
    cases obs with
    | key _ | compared _ _ | deviceFreed _ => exact ⟨rfl, rfl⟩
    | _ => cases hof
  cases steps with
  | cons step steps => exact ⟨l, quiet htrace hpending.symm hnext hquiet⟩
  | nil =>
    have hsent : eventChannel.sent (.handled p :: l) = [] :=
      Channel.sent_eq_nil fun obs hobs => (List.mem_cons.mp hobs).elim (fun h => h ▸ rfl)
        fun h => (hquiet obs h).1
    have hreceived : eventChannel.received (.handled p :: l) = [p] := by
      rw [← List.singleton_append, Channel.received_append,
        Channel.received_eq_nil fun obs hobs => (hquiet obs hobs).2]
      rfl
    refine ⟨.handled p :: l, congrArg (_ :: ·) htrace, ?_, 0, hnext, ?_⟩
    · rw [hsent, hreceived, hpending]
      exact List.append_nil _
    · rw [hsent]
      rfl

end Transmits

namespace View

theorem exec_transmits (c : Choice)
    (hready : ∀ kind d, o = .postOpen kind d → v.eventQueue.hasRoom = true) :
    ∃ l, Transmits v (v.exec o c) l := by
  by_cases hpost : ∃ kind d, o = .postOpen kind d
  · obtain ⟨kind, d, rfl⟩ := hpost
    have hposted := (Transmits.same (v := v) rfl rfl rfl).post (.open d 0) (hready kind d rfl)
    exact ⟨_, hposted.trace, hposted.pending, hposted.numbered⟩
  · have hne : ∀ kind d, o ≠ .postOpen kind d := fun kind d ho => hpost ⟨kind, d, ho⟩
    obtain ⟨hhandling, hqueue, hnext⟩ := exec_events c v hne
    refine ⟨_, .quiet (exec_trace o c v) ?_ hnext fun obs hobs => ?_⟩
    · rw [pending, hhandling, hqueue, pending]
    · have hby := noted_origin (Option.mem_toList.mp hobs)
      cases obs with
      | posted p =>
        obtain ⟨kind, d, ho, -⟩ := hby
        exact absurd ho (hne kind d)
      | handled p => exact hby.elim
      | _ => exact ⟨rfl, rfl⟩

theorem Effect.transmits (heff : Effect e v v') : ∃ l, Transmits v v' l := by
  cases heff with
  | quiet | ticked | connectFailed => exact ⟨_, .same rfl rfl rfl⟩
  | startPairing | selectDevice | advertised | encChange | connected =>
    exact ⟨_, .note rfl rfl rfl rfl rfl⟩
  | disconnected _ link reason hfind hroom =>
    unfold linkDown
    simp only
    cases hkey : v.byConnId link.handle with
    | none => exact ⟨_, .note rfl rfl rfl rfl rfl⟩
    | some key =>
      simp only
      split
      · rename_i hconn
        refine ⟨_, Transmits.post (l := [.linkDown link]) ?_ (.close key.id reason)
          (hroom key hkey hconn)⟩
        exact .note rfl rfl rfl rfl rfl
      · exact ⟨_, .note rfl rfl rfl rfl rfl⟩
  | notified _ _ _ _ event key _ _ _ _ hroom => exact ⟨_, .post (.same rfl rfl rfl) event hroom⟩
  | popped _ p ps hnone hitems =>
    exact Transmits.handling (l := []) p _ (by simp [View.pending, hnone, hitems]) rfl rfl (by simp)
  | stepped _ p step steps hsome =>
    obtain ⟨l, hl, hall⟩ := stepExec_trace v step
    have hqueue : (v.stepExec step).eventQueue = v.eventQueue := by cases step <;> rfl
    exact Transmits.handling p steps (by simp [View.pending, hsome, hqueue]) hl (by cases step <;> rfl) hall
  | settled _ p hsome =>
    exact Transmits.handling (l := []) p [] (by simp [View.pending, hsome]) rfl rfl (by simp)

end View

theorem eventsCarried {g : Guard Op Choice Sys Event} {cfg : KbdConfig}
    {bonds : List (Bda × UInt8)} {c : HostConfig} (h : Reach host g (boot cfg bonds) c) :
    EventsCarried c.state.view := by
  refine reach_keeps (I := fun s => EventsCarried s.view) h ⟨rfl, rfl⟩ ?_ ?_
  · intro o ch s hinv _ hready _ _
    rw [exec_view]
    obtain ⟨l, hl⟩ := View.exec_transmits (o := o) (v := s.view) ch fun kind d ho => by
      subst ho
      exact hready
    exact hinv.step hl
  · intro e s s' hinv _ _ hstep
    obtain ⟨l, hl⟩ := (eventStep_view hstep).transmits
    exact hinv.step hl

/-- **Events are delivered exactly once and in order**, each to its handlers. -/
theorem eventsDelivered {g : Guard Op Choice Sys Event} {cfg : KbdConfig}
    {bonds : List (Bda × UInt8)} {c : HostConfig} (h : Reach host g (boot cfg bonds) c) :
    EventsDelivered c.state.view where
  toEventsCarried := eventsCarried h
  handlers p steps hsome := by
    refine ⟨?_, (eventLog h).steps p steps hsome⟩
    rw [View.pending, hsome]
    rfl

/-- A device is opened, its event is handled, and another one is pending. -/
theorem eventsDelivered_opened : ∃ c, Reach host .free (boot {} []) c ∧
    c.state.view.pending.length = 1 ∧ (eventChannel.received c.state.trace).length = 1 ∧
      EventsDelivered c.state.view := by
  let run := scanRun 7 ++ selectRun ++ linkRun 7 ++ keyboardRun [1] ++
    [.env (.notifyRx 5 5 [0, 0, 4, 0, 0, 0, 0, 0] true)]
  obtain ⟨c, hrun, hstate⟩ := exists_run .free run (boot {} []) (fun c =>
    c.state.view.pending.length == 1 && (eventChannel.received c.state.trace).length == 1)
    (by decide +kernel)
  obtain ⟨hpending, hreceived⟩ : c.state.view.pending.length = 1 ∧
      (eventChannel.received c.state.trace).length = 1 := by simpa using hstate
  have hreach : Reach host .free (boot {} []) c := .of_run hrun
  exact ⟨c, hreach, hpending, hreceived, eventsDelivered hreach⟩

/-! ## Commands -/

/-- The commands that were accepted are those taken and, behind them, those in the queue. -/
def CommandsDelivered (v : View) : Prop := cmdChannel.Carries v.trace v.kbd.cmdQueue.items

namespace CommandsDelivered

theorem exec (h : CommandsDelivered v) (o : Op) (c : Choice) : CommandsDelivered (v.exec o c) := by
  rw [CommandsDelivered, View.exec_trace, View.exec_cmdQueue]
  cases o with
  | receiveCmd since ticks =>
    refine h.append ?_
    cases hitems : v.kbd.cmdQueue.items with
    | nil => simp [View.noted, hitems, Channel.sent, Channel.received]
    | cons cmd rest =>
      cases cmd <;>
        simp [View.noted, hitems, Channel.sent, Channel.received, cmdChannel, KbdCmd.obs]
  | _ =>
    refine h.quiet fun obs hobs => ?_
    have hby := View.noted_origin (Option.mem_toList.mp hobs)
    cases obs with
    | startPairing _ | selectDevice _ _ => exact hby.elim
    | repair | selection _ =>
      obtain ⟨⟨since, ticks, ho⟩, -⟩ := hby
      cases ho
    | _ => exact ⟨rfl, rfl⟩

/-- A command is accepted, or no room is left for it. -/
theorem send (h : CommandsDelivered v) {cmd : KbdCmd} {obs : Obs}
    (hsent : cmdChannel.sent? obs = if v.kbd.cmdQueue.hasRoom then some cmd else none)
    (hreceived : cmdChannel.received? obs = none) :
    cmdChannel.Carries (obs :: v.trace) (v.kbd.cmdQueue.send cmd).items := by
  refine h.append (l := [obs]) ?_
  rw [BoundedQueue.items_send]
  split at hsent <;> rename_i hroom <;> simp [Channel.sent, Channel.received, hsent, hreceived, hroom]

theorem effect (h : CommandsDelivered v) (heff : View.Effect e v v') : CommandsDelivered v' := by
  by_cases hsend : e = .startPairing ∨ ∃ param, e = .selectDevice param
  · rcases hsend with rfl | ⟨param, rfl⟩
    · cases heff with
      | quiet _ hinner => cases hinner
      | startPairing =>
        refine h.send ?_ rfl
        cases v.kbd.cmdQueue.hasRoom <;> rfl
    · cases heff with
      | quiet _ hinner => cases hinner
      | selectDevice =>
        refine h.send ?_ rfl
        cases v.kbd.cmdQueue.hasRoom <;> rfl
  · have hstart : e ≠ .startPairing := fun he => hsend (.inl he)
    have hselect : ∀ param, e ≠ .selectDevice param := fun param he => hsend (.inr ⟨param, he⟩)
    obtain ⟨l, htrace, hl⟩ := heff.records
    have hqueue : v'.kbd.cmdQueue = v.kbd.cmdQueue := by
      rw [heff.cmdQueue]
      cases e with
      | startPairing => exact absurd rfl hstart
      | selectDevice param => exact absurd rfl (hselect param)
      | _ => rfl
    rw [CommandsDelivered, htrace, hqueue]
    refine h.quiet fun obs hobs => ?_
    have hby := hl obs hobs
    cases obs with
    | startPairing _ => exact absurd hby.1 hstart
    | selectDevice _ _ => exact absurd hby.1 (hselect _)
    | repair | selection _ => exact hby.elim
    | _ => exact ⟨rfl, rfl⟩

end CommandsDelivered

/-- **Commands are delivered exactly once and in order.** -/
theorem commandsDelivered {g : Guard Op Choice Sys Event} {cfg : KbdConfig}
    {bonds : List (Bda × UInt8)} {c : HostConfig} (h : Reach host g (boot cfg bonds) c) :
    CommandsDelivered c.state.view := by
  refine reach_keeps (I := fun s => CommandsDelivered s.view) h rfl ?_ ?_
  · intro o ch s hinv _ _ _ _
    rw [exec_view]
    exact hinv.exec o ch
  · exact fun e s s' hinv _ _ hstep => hinv.effect (eventStep_view hstep)

/-- Of six requests during the scan the first is taken, four wait and the last is dropped. -/
theorem commandsDelivered_scanning : ∃ c, Reach host .free (boot {} []) c ∧
    (cmdChannel.received c.state.trace).length = 1 ∧ c.state.kbd.cmdQueue.items.length = 4 ∧
      Obs.startPairing false ∈ c.state.trace ∧ CommandsDelivered c.state.view := by
  let run := scanRun 7 ++ [.env (.selectDevice 0)] ++ mains 6 ++
    List.replicate 5 (.env .startPairing)
  obtain ⟨c, hrun, hstate⟩ := exists_run .free run (boot {} []) (fun c =>
    (cmdChannel.received c.state.trace).length == 1 && c.state.kbd.cmdQueue.items.length == 4 &&
      c.state.trace.contains (.startPairing false)) (by decide +kernel)
  obtain ⟨⟨hreceived, hqueued⟩, hdropped⟩ : ((cmdChannel.received c.state.trace).length = 1 ∧
      c.state.kbd.cmdQueue.items.length = 4) ∧ Obs.startPairing false ∈ c.state.trace := by
    simpa using hstate
  have hreach : Reach host .free (boot {} []) c := .of_run hrun
  exact ⟨c, hreach, hreceived, hqueued, hdropped, commandsDelivered hreach⟩

end BleKbdHost.Host
