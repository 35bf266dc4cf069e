import BleKbdHost.Conc.Trace
import BleKbdHost.Host.EventLog

/-!
# Entering CONNECTED

Whether the main task sets CONNECTED only for a device whose open event was posted in the current
attempt and whose close event was not handled before the decision. The decision is read off
`s_connected_sem` after an open, where a token of an abandoned connection is as good as one of this
attempt; after a reconnect it is the returned device, whatever was handled in between.
-/

namespace BleKbdHost.Host

open Hid Keys Conc

/-! ## The property -/

def Obs.startsAttempt : Obs → Bool
  | .openCall _ _ _ | .reconnectCall _ => true
  | _ => false

/-- What has happened in the current attempt to connect, newest first. -/
def attempt (trace : List Obs) : List Obs := since Obs.startsAttempt trace

/-- The end of a transport call, and the test of `s_connected_sem` after an open. -/
def Obs.decides : Obs → Bool
  | .decided _ | .returned _ => true
  | _ => false

def OpenPosted (d : DevId) (l : List Obs) : Prop := ∃ seq, .posted ⟨seq, .open d 0⟩ ∈ l

/-- A successful open event of the device was posted, and no close event of it handled. -/
structure LiveIn (d : DevId) (l : List Obs) : Prop where
  opened : OpenPosted d l
  unclosed : ∀ p reason, p.event = .close d reason → .posted p ∈ l → .handled p ∉ l

/-- The decision, on what came before it in its attempt, for the device of that attempt. -/
def LiveDecision : List Obs → Prop
  | .decided true :: before => ∃ d, .returned (some d) ∈ before ∧ LiveIn d before
  | .returned (some d) :: before => LiveIn d before
  | _ => False

/-- CONNECTED follows a decision for a device with a live connection of the current attempt. -/
def EntryRule (o : Obs) (before : List Obs) : Prop :=
  o = .state .connected → LiveDecision (upTo Obs.decides (attempt before))

/-! ## The condition -/

/-- The device of the transport call in progress, where a close event of it would be taken for one
of an earlier connection: up to the open event, and in a reconnect up to its end. -/
def Stage.exposed? : Stage → Option DevId
  | .begun _ d | .failed _ d | .connecting _ d | .linked _ d _ | .marked _ d
  | .opened .reconnect d => some d
  | _ => Option.none

theorem Stage.Within.exposed? {st st' : Stage} (h : st'.Within st) :
    st'.exposed? = st.exposed? := by
  rcases h with rfl | ⟨step, rfl⟩
  · rfl
  · cases st <;> rfl

/-- An open starts without `s_connected_sem` given, and without an open event that is still to give
it; the device of a call is not closed where it is exposed. -/
def drained : Guard Op Choice Sys Event where
  main o _ s :=
    match o with
    | .openCall _ _ => !s.kbd.connectedSem && s.view.agenda.all (·.2 != .give .connected)
    | _ => true
  env e s :=
    match e with
    | .disconnected handle _ =>
      match s.getByConnId handle with
      | some dev => !dev.connected || s.ctl.stage.exposed? != some dev.id
      | none => true
    | _ => true

/-! ## The invariant -/

/-- An open is under way, up to the decision. -/
def Phase.opens : Phase → Bool
  | .bonded | .connecting | .answered _ | .expired _ => true
  | _ => false

structure AttemptInv (v : View) : Prop where
  returned : ∀ r, .returned r ∈ attempt v.trace → v.ctl.stage = .none
  opened : ∀ kind d, v.ctl.stage = .opened kind d → OpenPosted d (attempt v.trace)
  settled : ∀ p d status, p.event = .open d status → .posted p ∈ attempt v.trace →
    (∃ kind, v.ctl.stage = .opened kind d) ∨ .returned (some d) ∈ attempt v.trace
  unclosed : ∀ d, v.ctl.stage.exposed? = some d → ∀ p reason, p.event = .close d reason →
    .posted p ∉ attempt v.trace
  order : ∀ p q d d' status reason, p.event = .open d status → .posted p ∈ attempt v.trace →
    q.event = .close d' reason → .posted q ∈ attempt v.trace →
    OpenPosted d' (attempt v.trace) → p.seq < q.seq
  gives : v.ctl.phase.opens = true → ∀ p, (p, .give .connected) ∈ v.agenda →
    .posted p ∈ attempt v.trace
  token : v.ctl.phase.opens = true →
    (v.kbd.connectedSem = true ∨ ∃ p, (p, .give .connected) ∈ v.agenda) →
    (∃ d, OpenPosted d (attempt v.trace)) ∧
      ∀ d q reason, OpenPosted d (attempt v.trace) → q.event = .close d reason →
        .posted q ∈ attempt v.trace → (q, .take .connected) ∈ v.agenda
  accepted : v.ctl.phase = .accepted → LiveDecision (upTo Obs.decides (attempt v.trace))
  entries : Obeys EntryRule v.trace

/-- Only a successful open event gives `s_connected_sem`. -/
theorem event_of_give_connected {event : HidhEvent} (h : .give .connected ∈ hidhSteps event) :
    ∃ d, event = .open d 0 := by
  cases event with
  | «open» d status =>
    by_cases hstatus : status = 0
    · exact ⟨d, by rw [hstatus]⟩
    · simp [hidhSteps, hstatus] at h
  | input _ _ _ usage _ => by_cases husage : usage = .keyboard <;> simp [hidhSteps, husage] at h
  | _ => simp [hidhSteps] at h

namespace AttemptInv

variable {v v' : View}

/-- Neither an attempt nor a decision nor an entry. -/
def Quiet (l : List Obs) : Prop :=
  ∀ o ∈ l, o.startsAttempt = false ∧ o.decides = false ∧ o ≠ .state .connected

/-- A step within an attempt that opens nothing. -/
theorem of_logs {l : List Obs} {event? : Option HidhEvent} (h : AttemptInv v) (hlog : EventLog v)
    (hlogs : View.Logs v v' l event?) (hquiet : Quiet l)
    (hopen : ∀ d status, event? ≠ some (.open d status))
    (hclose : ∀ d reason, event? = some (.close d reason) → v'.ctl.stage.exposed? ≠ some d)
    (hnone : v.ctl.stage = .none → v'.ctl.stage = .none)
    (hopened : ∀ kind d, v'.ctl.stage = .opened kind d ↔ v.ctl.stage = .opened kind d)
    (hexposed : ∀ d, v'.ctl.stage.exposed? = some d → v.ctl.stage.exposed? = some d ∨ v.nextDev ≤ d)
    (hopens : v'.ctl.phase.opens = true → v.ctl.phase.opens = true ∧
      (v'.kbd.connectedSem = true → v.kbd.connectedSem = true))
    (haccepted : v'.ctl.phase = .accepted → v.ctl.phase = .accepted) : AttemptInv v' := by
  have hattempt : attempt v'.trace = l ++ attempt v.trace := by
    rw [attempt, hlogs.trace, since_append fun o ho => (hquiet o ho).1, attempt]
  have hreturned : ∀ r, .returned r ∈ attempt v'.trace ↔ .returned r ∈ attempt v.trace := by
    intro r
    rw [hattempt, List.mem_append, or_iff_right]
    intro hmem
    cases (hquiet _ hmem).2.1
  have hposted : ∀ p, .posted p ∈ attempt v'.trace ↔
      v.posting event? = some p ∨ .posted p ∈ attempt v.trace := by
    intro p
    rw [hattempt, List.mem_append, hlogs.posted]
  have hold : ∀ p d status, p.event = .open d status → .posted p ∈ attempt v'.trace →
      .posted p ∈ attempt v.trace := by
    intro p d status hevent hmem
    rcases (hposted p).mp hmem with hnew | hmem
    · obtain ⟨event, hsome, rfl⟩ := Option.map_eq_some_iff.mp hnew
      exact absurd (hevent ▸ hsome) (hopen d status)
    · exact hmem
  have hopenPosted : ∀ d, OpenPosted d (attempt v'.trace) ↔ OpenPosted d (attempt v.trace) :=
    fun d => ⟨fun ⟨seq, hmem⟩ => ⟨seq, hold _ d 0 rfl hmem⟩,
      fun ⟨seq, hmem⟩ => ⟨seq, (hposted _).mpr (.inr hmem)⟩⟩
  have hgives : ∀ p, (p, .give .connected) ∈ v'.agenda → (p, .give .connected) ∈ v.agenda := by
    intro p hmem
    rw [hlogs.agenda] at hmem
    refine (List.mem_append.mp hmem).resolve_right fun hmem => ?_
    obtain ⟨q, hq, hmem⟩ := List.mem_flatMap.mp hmem
    obtain ⟨event, hsome, rfl⟩ := Option.map_eq_some_iff.mp (Option.mem_toList.mp hq)
    obtain ⟨step, hstep, heq⟩ := List.mem_map.mp hmem
    cases heq
    obtain ⟨d, rfl⟩ := event_of_give_connected hstep
    exact hopen d 0 hsome
  constructor
  · intro r hmem
    exact hnone (h.returned r ((hreturned r).mp hmem))
  · intro kind d hst
    rw [hopenPosted]
    exact h.opened kind d ((hopened kind d).mp hst)
  · intro p d status hevent hmem
    rw [hreturned]
    refine (h.settled p d status hevent (hold p d status hevent hmem)).imp_left ?_
    exact fun ⟨kind, hst⟩ => ⟨kind, (hopened kind d).mpr hst⟩
  · intro d hst p reason hevent hmem
    rcases (hposted p).mp hmem with hnew | hmem
    · obtain ⟨event, hsome, rfl⟩ := Option.map_eq_some_iff.mp hnew
      exact hclose d reason (hevent ▸ hsome) hst
    · rcases hexposed d hst with hst | hfresh
      · exact h.unclosed d hst p reason hevent hmem
      · have hlt := hlog.allocated p d (mem_of_mem_since hmem)
          (by rw [hevent]; simp [HidhEvent.linkUp?])
        exact Nat.not_lt_of_le hfresh hlt
  · intro p q d d' status reason hp hpmem hq hqmem hd'
    have hpmem := hold p d status hp hpmem
    rcases (hposted q).mp hqmem with hnew | hqmem
    · obtain ⟨event, -, rfl⟩ := Option.map_eq_some_iff.mp hnew
      exact hlog.posted p (mem_of_mem_since hpmem)
    · exact h.order p q d d' status reason hp hpmem hq hqmem ((hopenPosted d').mp hd')
  · exact fun hph p hgive => (hposted p).mpr (.inr (h.gives (hopens hph).1 p (hgives p hgive)))
  · intro hph htoken
    obtain ⟨hsome, htakes⟩ := h.token (hopens hph).1
      (htoken.imp (hopens hph).2 fun ⟨p, hgive⟩ => ⟨p, hgives p hgive⟩)
    refine ⟨hsome.imp fun d => (hopenPosted d).mpr, fun d q reason hd hq hmem => ?_⟩
    rw [hlogs.agenda]
    rcases (hposted q).mp hmem with hnew | hmem
    · rw [hnew]
      refine List.mem_append_right _ ?_
      simp [View.work, hq, hidhSteps]
    · exact List.mem_append_left _ (htakes d q reason ((hopenPosted d).mp hd) hq hmem)
  · intro hph
    rw [hattempt, upTo_append fun o ho => (hquiet o ho).2.1]
    exact h.accepted (haccepted hph)
  · rw [hlogs.trace]
    exact h.entries.append fun o ho _ heq => absurd heq (hquiet o ho).2.2

end AttemptInv

/-! ### Operations -/

/-- The operations that begin or decide an attempt, post its open event or enter CONNECTED. -/
def Op.attempts : Op → Bool
  | .openCall _ _ | .reconnectCall _ | .openReturns _ | .reconnectReturns _ | .takeConnected
  | .postOpen _ _ | .setState .connected => true
  | _ => false

namespace AttemptInv

variable {v v' : View}

theorem quiet_noted {o : Op} (c : Choice) (h : o.attempts = false) : Quiet (v.noted o c).toList := by
  intro obs hobs
  have hnoted := View.noted_origin (Option.mem_toList.mp hobs)
  cases obs with
  | decided ok =>
    obtain ⟨rfl, -⟩ := hnoted
    cases h
  | returned r =>
    rcases hnoted with rfl | rfl <;> cases h
  | openCall site bda known =>
    obtain rfl := hnoted
    cases h
  | reconnectCall d =>
    obtain rfl := hnoted
    cases h
  | state st =>
    obtain rfl := hnoted
    refine ⟨rfl, rfl, fun heq => ?_⟩
    cases heq
    cases h
  | _ => exact ⟨rfl, rfl, nofun⟩

/-- Such an operation leads neither to an open nor to its acceptance. -/
theorem opens_of_phaseStep {o : Op} {q r : Phase} (h : View.PhaseStep v o q r)
    (ho : o.attempts = false) :
    (r.opens = true → q.opens = true) ∧ (r = .accepted → q = .accepted) := by
  cases h with
  | stays => exact ⟨id, id⟩
  | answered site | expired site => exact ⟨fun _ => by cases site <;> rfl, nofun⟩
  | announced next hshows =>
    cases r with
    | reconnecting | scanning | selected _ | connected => exact ⟨nofun, nofun⟩
    | _ => cases hshows
  | setConnected | bonded _ | connecting _ | reconnected _ | accepted _ _ _ | refused _ _ _ => cases ho
  | _ => exact ⟨nofun, nofun⟩

theorem posts_of_not_attempts {o : Op} (h : o.attempts = false) : View.posts? o = none := by
  cases o <;> first | rfl | cases h

/-- Only the main task's own test of the semaphore gives it, outside of an open. -/
theorem sem_of_nextSem {o : Op} (hgive : ∀ sem, o ≠ .give sem)
    (h : v.nextSem o .connected = true) : v.kbd.connectedSem = true := by
  cases o with
  | give sem => exact absurd rfl (hgive sem)
  | take sem _ _ => exact (Bool.and_eq_true_iff.mp h).1
  | takeConnected => cases (Bool.and_eq_true_iff.mp h).2
  | awaitDisconnect _ _ | awaitClosed _ _ => exact (Bool.and_eq_true_iff.mp h).1
  | _ => exact h

theorem exec_frame {o : Op} {t : Stage} (c : Choice) (h : AttemptInv v) (hlog : EventLog v)
    (hat : o.At v.ctl) (hattempts : o.attempts = false)
    (hgive : ∀ sem, o = .give sem → v.ctl.phase.opens = false)
    (hstage : v.nextStage o c = t) (hnone : v.ctl.stage = .none → t = .none)
    (hopened : ∀ kind d, t = .opened kind d ↔ v.ctl.stage = .opened kind d)
    (hexposed : ∀ d, t.exposed? = some d → v.ctl.stage.exposed? = some d ∨ v.nextDev ≤ d) :
    AttemptInv (v.exec o c) := by
  have hposts := posts_of_not_attempts hattempts
  have hlogs := View.exec_logs o c v fun kind d ho => by
    subst ho
    cases hattempts
  rw [hposts] at hlogs
  refine h.of_logs hlog hlogs (quiet_noted c hattempts) nofun nofun ?_ ?_ ?_ ?_ ?_
  · rwa [View.exec_stage, hstage]
  · rwa [View.exec_stage, hstage]
  · rwa [View.exec_stage, hstage]
  · rw [View.exec_phase]
    intro hopens'
    have hopens := (opens_of_phaseStep (View.phaseStep hat) hattempts).1 hopens'
    refine ⟨hopens, fun hsem => ?_⟩
    have hsem' : v.nextSem o .connected = true := (View.exec_sem o c v .connected).symm.trans hsem
    refine sem_of_nextSem (fun sem ho => ?_) hsem'
    rw [hgive sem ho] at hopens
    cases hopens
  · rw [View.exec_phase]
    exact (opens_of_phaseStep (View.phaseStep hat) hattempts).2

/-- A new attempt begins. -/
theorem restart (h : Obeys EntryRule v'.trace) (hattempt : attempt v'.trace = [])
    (hstage : ∀ kind d, v'.ctl.stage ≠ .opened kind d)
    (hopens : v'.ctl.phase.opens = true →
      v'.kbd.connectedSem = false ∧ ∀ p, (p, .give .connected) ∉ v'.agenda)
    (haccepted : v'.ctl.phase ≠ .accepted) : AttemptInv v' where
  returned := by rw [hattempt]; exact nofun
  opened kind d hst := absurd hst (hstage kind d)
  settled := by rw [hattempt]; exact nofun
  unclosed := by rw [hattempt]; exact fun _ _ _ _ _ => nofun
  order := by rw [hattempt]; exact nofun
  gives hph p hgive := absurd hgive ((hopens hph).2 p)
  token hph htoken := by
    obtain ⟨hsem, hgives⟩ := hopens hph
    rcases htoken with htoken | ⟨p, hgive⟩
    · rw [hsem] at htoken
      cases htoken
    · exact absurd hgive (hgives p)
  accepted hph := absurd hph haccepted
  entries := h

theorem openCall (h : AttemptInv v) (site : OpenSite) (bda : Bda) (c : Choice)
    (hsem : v.kbd.connectedSem = false) (hgives : ∀ p, (p, .give .connected) ∉ v.agenda) :
    AttemptInv (v.exec (.openCall site bda) c) := by
  refine restart (obeys_cons.mpr ⟨(by exact fun h => by cases h), h.entries⟩) (since_cons_of_pos rfl) ?_ ?_ ?_
  · intro kind d
    rw [View.exec_stage]
    simp only [View.nextStage]
    split <;> simp
  · exact fun _ => ⟨hsem, hgives⟩
  · rw [View.exec_phase]
    cases site <;> exact fun h => by cases h

theorem reconnectCall (h : AttemptInv v) (d : DevId) (c : Choice)
    (hphase : v.ctl.phase = .reconnecting) : AttemptInv (v.exec (.reconnectCall d) c) := by
  have hphase' : (v.exec (.reconnectCall d) c).ctl.phase = .reconnecting := hphase
  refine restart (obeys_cons.mpr ⟨nofun, h.entries⟩) (since_cons_of_pos rfl) (fun _ _ => nofun) ?_ ?_
  · rw [hphase']
    exact nofun
  · rw [hphase']
    exact nofun

/-- The test of `s_connected_sem`: if it is given, the opened device was not closed. -/
theorem takeConnected (h : AttemptInv v) (hlog : EventLog v) (c : Choice)
    (hphase : v.ctl.phase.opens = true) (hstage : v.ctl.stage = .none) :
    AttemptInv (v.exec .takeConnected c) := by
  have htrace : (v.exec .takeConnected c).trace = .decided v.kbd.connectedSem :: v.trace :=
    View.exec_trace ..
  have hattempt : attempt (v.exec .takeConnected c).trace =
      .decided v.kbd.connectedSem :: attempt v.trace := by
    rw [htrace]
    exact since_append (l := [_]) (by simp [Obs.startsAttempt])
  have hagenda : (v.exec .takeConnected c).agenda = v.agenda := View.exec_agenda _ _ _ (by simp)
  have hopenPosted : ∀ d, OpenPosted d (attempt (v.exec .takeConnected c).trace) ↔
      OpenPosted d (attempt v.trace) := by
    intro d
    rw [hattempt]
    simp [OpenPosted]
  have hstage' : (v.exec .takeConnected c).ctl.stage = .none := by
    rw [View.exec_stage]
    exact hstage
  constructor
  · exact fun _ _ => hstage'
  · rw [hstage']
    simp
  · rw [hattempt]
    intro p d status hp hmem
    rcases h.settled p d status hp (by simpa using hmem) with ⟨kind, hst⟩ | hreturned
    · rw [hstage] at hst
      cases hst
    · exact .inr (List.mem_cons_of_mem _ hreturned)
  · rw [hstage']
    exact fun _ h => by cases h
  · intro p q d d' status reason hp hpmem hq hqmem hd'
    rw [hopenPosted] at hd'
    rw [hattempt] at hpmem hqmem
    exact h.order p q d d' status reason hp (by simpa using hpmem) hq (by simpa using hqmem) hd'
  · intro _ p hgive
    rw [hagenda] at hgive
    rw [hattempt]
    exact List.mem_cons_of_mem _ (h.gives hphase p hgive)
  · intro _ htoken
    have hsem : (v.exec .takeConnected c).kbd.connectedSem = false := by
      simpa [View.nextSem, Kbd.sem] using View.exec_sem .takeConnected c v .connected
    rw [hsem, hagenda] at htoken
    obtain ⟨hsome, htakes⟩ := h.token hphase (htoken.imp_left (by simp))
    refine ⟨hsome.imp fun d => (hopenPosted d).mpr, fun d q reason hd hq hmem => ?_⟩
    rw [hagenda]
    rw [hattempt] at hmem
    exact htakes d q reason ((hopenPosted d).mp hd) hq (by simpa using hmem)
  · intro haccepted
    rw [hattempt, upTo_cons_of_pos rfl]
    cases hsem : v.kbd.connectedSem with
    | false =>
      rw [View.exec_phase] at haccepted
      simp only [View.nextPhase, hsem] at haccepted
      revert hphase haccepted
      cases v.ctl.phase with
      | answered site | expired site => cases site <;> exact fun _ h => by cases h
      | accepted => exact fun hopens => by cases hopens
      | _ => exact fun _ hrefused => by cases hrefused
    | true =>
      obtain ⟨⟨d, hd⟩, htakes⟩ := h.token hphase (.inl hsem)
      obtain ⟨seq, hposted⟩ := hd
      refine ⟨d, ?_, ⟨seq, hposted⟩, fun q reason hq hmem hhandled => ?_⟩
      · rcases h.settled _ d 0 rfl hposted with ⟨kind, hst⟩ | hreturned
        · rw [hstage] at hst
          cases hst
        · exact hreturned
      · have hpending := View.mem_pending_of_agenda (htakes d q reason ⟨seq, hposted⟩ hq hmem)
        exact hlog.inOrder.not_handled (List.mem_map.mpr ⟨q, hpending, rfl⟩)
          ⟨q, mem_of_mem_since hhandled, rfl⟩
  · rw [htrace]
    exact obeys_cons.mpr ⟨(by exact fun h => by cases h), h.entries⟩

/-- A transport call returns; what it opened, it returns. -/
theorem returns (h : AttemptInv v) {r : Option DevId} (htrace : v'.trace = .returned r :: v.trace)
    (hstage : v'.ctl.stage = .none) (hagenda : v'.agenda = v.agenda)
    (hopened : ∀ kind d, v.ctl.stage = .opened kind d → r = some d)
    (hopens : v'.ctl.phase.opens = true → v.ctl.phase.opens = true ∧
      (v'.kbd.connectedSem = true → v.kbd.connectedSem = true))
    (haccepted : v'.ctl.phase = .accepted →
      LiveDecision (.returned r :: attempt v.trace)) : AttemptInv v' := by
  have hattempt : attempt v'.trace = .returned r :: attempt v.trace := by
    rw [htrace]
    exact since_append (l := [_]) (by simp [Obs.startsAttempt])
  have hopenPosted : ∀ d, OpenPosted d (attempt v'.trace) ↔ OpenPosted d (attempt v.trace) := by
    intro d
    rw [hattempt]
    simp [OpenPosted]
  constructor
  · exact fun _ _ => hstage
  · rw [hstage]
    exact nofun
  · rw [hattempt]
    intro p d status hp hmem
    rcases h.settled p d status hp (by simpa using hmem) with ⟨kind, hst⟩ | hreturned
    · rw [hopened kind d hst]
      exact .inr List.mem_cons_self
    · exact .inr (List.mem_cons_of_mem _ hreturned)
  · rw [hstage]
    exact nofun
  · intro p q d d' status reason hp hpmem hq hqmem hd'
    rw [hopenPosted] at hd'
    rw [hattempt] at hpmem hqmem
    exact h.order p q d d' status reason hp (by simpa using hpmem) hq (by simpa using hqmem) hd'
  · intro hph p hgive
    rw [hagenda] at hgive
    rw [hattempt]
    exact List.mem_cons_of_mem _ (h.gives (hopens hph).1 p hgive)
  · intro hph htoken
    rw [hagenda] at htoken ⊢
    obtain ⟨hsome, htakes⟩ := h.token (hopens hph).1 (htoken.imp_left (hopens hph).2)
    refine ⟨hsome.imp fun d => (hopenPosted d).mpr, fun d q reason hd hq hmem => ?_⟩
    rw [hattempt] at hmem
    exact htakes d q reason ((hopenPosted d).mp hd) hq (by simpa using hmem)
  · rw [hattempt, upTo_cons_of_pos rfl]
    exact haccepted
  · rw [htrace]
    exact obeys_cons.mpr ⟨nofun, h.entries⟩

/-- The open event is the first event of its device in the attempt. -/
theorem postOpen (h : AttemptInv v) {kind : CallKind} {d : DevId} (c : Choice)
    (hroom : v.eventQueue.hasRoom = true) (hstage : v.ctl.stage = .marked kind d) :
    AttemptInv (v.exec (.postOpen kind d) c) := by
  have htrace : (v.exec (.postOpen kind d) c).trace =
      .posted ⟨v.nextSeq, .open d 0⟩ :: v.trace := rfl
  have hattempt : attempt (v.exec (.postOpen kind d) c).trace =
      .posted ⟨v.nextSeq, .open d 0⟩ :: attempt v.trace := by
    rw [htrace]
    exact since_append (l := [_]) (by simp [Obs.startsAttempt])
  have hnone : ∀ p d' status, p.event = .open d' status → .posted p ∉ attempt v.trace := by
    intro p d' status hp hmem
    rcases h.settled p d' status hp hmem with ⟨kind', hst⟩ | hreturned
    · rw [hstage] at hst
      cases hst
    · have hst := h.returned _ hreturned
      rw [hstage] at hst
      cases hst
  have hclosed : ∀ q reason, q.event = .close d reason → .posted q ∉ attempt v.trace :=
    h.unclosed d (by rw [hstage]; rfl)
  have hposted : ∀ p, .posted p ∈ attempt (v.exec (.postOpen kind d) c).trace ↔
      p = ⟨v.nextSeq, .open d 0⟩ ∨ .posted p ∈ attempt v.trace := by
    intro p
    rw [hattempt, List.mem_cons, Obs.posted.injEq]
  -- a close event of this attempt is not about the device that was opened
  have hother : ∀ q d' reason, OpenPosted d' (attempt (v.exec (.postOpen kind d) c).trace) →
      q.event = .close d' reason →
      .posted q ∉ attempt (v.exec (.postOpen kind d) c).trace := by
    rintro q d' reason ⟨seq, hd'⟩ hq hmem
    rcases (hposted q).mp hmem with rfl | hmem
    · cases hq
    · rcases (hposted _).mp hd' with heq | hd'
      · cases heq
        exact hclosed q reason hq hmem
      · exact hnone _ d' 0 rfl hd'
  have hstage' : (v.exec (.postOpen kind d) c).ctl.stage = .opened kind d := rfl
  constructor
  · intro r hmem
    rw [hattempt] at hmem
    have hst := h.returned r (by simpa using hmem)
    rw [hstage] at hst
    cases hst
  · intro kind' d' hst
    rw [hstage'] at hst
    cases hst
    exact ⟨v.nextSeq, (hposted _).mpr (.inl rfl)⟩
  · intro p d' status hp hmem
    rcases (hposted p).mp hmem with rfl | hmem
    · cases hp
      exact .inl ⟨kind, rfl⟩
    · exact absurd hmem (hnone p d' status hp)
  · intro d' hst q reason hq hmem
    have hsame : d' = d := by
      rw [hstage'] at hst
      cases kind <;> cases hst
      rfl
    subst hsame
    exact hother q d' reason ⟨v.nextSeq, (hposted _).mpr (.inl rfl)⟩ hq hmem
  · exact fun p q _ d' _ reason _ _ hq hqmem hd' => absurd hqmem (hother q d' reason hd' hq)
  · intro hph p hgive
    rw [View.exec_agenda _ _ _ fun _ _ _ => hroom] at hgive
    rcases List.mem_append.mp hgive with hgive | hgive
    · exact (hposted p).mpr (.inr (h.gives hph p hgive))
    · obtain ⟨step, -, heq⟩ := List.mem_map.mp hgive
      cases heq
      exact (hposted _).mpr (.inl rfl)
  · exact fun _ _ => ⟨⟨d, v.nextSeq, (hposted _).mpr (.inl rfl)⟩,
      fun d' q reason hd' hq hmem => absurd hmem (hother q d' reason hd' hq)⟩
  · rw [hattempt]
    exact h.accepted
  · exact obeys_cons.mpr ⟨nofun, h.entries⟩

/-- CONNECTED is entered after an accepted decision. -/
theorem setConnectedState (h : AttemptInv v) (c : Choice) (hphase : v.ctl.phase = .accepted) :
    AttemptInv (v.exec (.setState .connected) c) := by
  have hattempt : attempt (v.exec (.setState .connected) c).trace =
      .state .connected :: attempt v.trace :=
    since_append (l := [Obs.state .connected]) (by simp [Obs.startsAttempt])
  constructor
  · intro r hmem
    rw [hattempt] at hmem
    exact h.returned r (by simpa using hmem)
  · intro kind d hst
    obtain ⟨seq, hmem⟩ := h.opened kind d hst
    rw [hattempt]
    exact ⟨seq, List.mem_cons_of_mem _ hmem⟩
  · rw [hattempt]
    intro p d status hp hmem
    exact (h.settled p d status hp (by simpa using hmem)).imp_right (List.mem_cons_of_mem _)
  · rw [hattempt]
    intro d hst p reason hp hmem
    exact h.unclosed d hst p reason hp (by simpa using hmem)
  · rw [hattempt]
    rintro p q d d' status reason hp hpmem hq hqmem ⟨seq, hd'⟩
    exact h.order p q d d' status reason hp (by simpa using hpmem) hq (by simpa using hqmem)
      ⟨seq, by simpa using hd'⟩
  · exact nofun
  · exact nofun
  · exact nofun
  · refine obeys_cons.mpr ⟨fun _ => h.accepted hphase, h.entries⟩

/-- **An operation at its place, and a drained start of every open, keep the attempt live.** -/
theorem exec {s : Sys} {o : Op} {c : Choice} (h : AttemptInv s.view) (hlog : EventLog s.view)
    (hready : o.ready s = true) (hg : drained.main o c s = true) (hat : o.At s.ctl) :
    AttemptInv (s.view.exec o c) := by
  have hstay : ∀ o : Op, o.At s.ctl → o.attempts = false →
      (∀ sem, o = .give sem → s.view.ctl.phase.opens = false) →
      (s.view.nextStage o c).Within s.view.ctl.stage → AttemptInv (s.view.exec o c) :=
    fun o hat hattempts hgive hstage => h.exec_frame c hlog hat hattempts hgive rfl hstage.none
      (fun _ _ => hstage.opened) fun _ hd => .inl (hstage.exposed? ▸ hd)
  have hmove : ∀ (o : Op) (t : Stage), o.At s.ctl → o.attempts = false → (∀ sem, o ≠ .give sem) →
      s.view.nextStage o c = t → s.view.ctl.stage ≠ .none →
      (∀ kind d, t ≠ .opened kind d) → (∀ kind d, s.view.ctl.stage ≠ .opened kind d) →
      (∀ d, t.exposed? = some d → s.view.ctl.stage.exposed? = some d ∨ s.view.nextDev ≤ d) →
      AttemptInv (s.view.exec o c) :=
    fun o t hat hattempts hgive hstage hne hopened hopened' hexposed =>
      h.exec_frame c hlog hat hattempts (fun sem ho => absurd ho (hgive sem)) hstage
        (fun hnone => absurd hnone hne)
        (fun kind d => iff_of_false (hopened kind d) (hopened' kind d)) hexposed
  cases o with
  | openCall site bda =>
    have hdrained : s.kbd.connectedSem = false ∧
        s.view.agenda.all (·.2 != .give .connected) = true := by
      simpa [drained] using hg
    refine h.openCall site bda c hdrained.1 fun p hgive => ?_
    have hne := List.all_eq_true.mp hdrained.2 _ hgive
    simp at hne
  | reconnectCall d => exact h.reconnectCall d c (congrArg Ctl.phase hat)
  | takeConnected =>
    obtain ⟨⟨site, hph⟩, hstage, -⟩ := hat
    refine h.takeConnected hlog c ?_ hstage
    have hopens : s.ctl.phase.opens = true := by
      rcases hph with hph | hph <;> rw [hph] <;> rfl
    exact hopens
  | give sem =>
    refine hstay _ hat rfl (fun _ _ => ?_) (.inl rfl)
    have hphase : s.view.ctl.phase = .accepted := congrArg Ctl.phase hat
    rw [hphase]
    rfl
  | setState st =>
    cases st with
    | connected => exact h.setConnectedState c (congrArg Ctl.phase hat)
    | _ => exact hstay _ hat rfl (by simp) (.inl rfl)
  | postOpen kind d => exact h.postOpen c hready hat.1
  | openReturns r =>
    have hphase : s.view.ctl.phase = .bonded ∨ s.view.ctl.phase = .connecting := by
      cases r <;> exact hat.2.2
    refine h.returns (View.exec_trace ..) rfl (View.exec_agenda _ _ _ (by simp)) (fun kind d hst => ?_)
      (fun hopens => ⟨hopens, id⟩) fun haccepted => ?_
    · cases r with
      | none =>
        rw [show s.view.ctl.stage = .none from hat.1] at hst
        cases hst
      | some d' =>
        rw [show s.view.ctl.stage = .opened .open d' from hat.1] at hst
        cases hst
        rfl
    · have haccepted' : s.view.ctl.phase = .accepted := haccepted
      rw [haccepted'] at hphase
      rcases hphase with hphase | hphase <;> cases hphase
  | reconnectReturns r =>
    have hphase : s.view.ctl.phase = .reconnecting := by
      cases r <;> exact hat.2.2
    have hphase' := View.exec_phase (.reconnectReturns r) c s.view
    refine h.returns (View.exec_trace ..) (View.exec_stage ..)
      (View.exec_agenda _ _ _ (by simp)) (fun kind d hst => ?_) (fun hopens => ?_) fun haccepted => ?_
    · cases r with
      | none =>
        obtain ⟨d', hst' | hst'⟩ := hat.1 <;>
        · rw [show s.view.ctl.stage = _ from hst'] at hst
          cases hst
      | some d' =>
        rw [show s.view.ctl.stage = .opened .reconnect d' from hat.1] at hst
        cases hst
        rfl
    · rw [hphase'] at hopens
      cases r with
      | none =>
        simp only [View.nextPhase, hphase] at hopens
        cases hopens
      | some d => cases hopens
    · rw [hphase'] at haccepted
      cases r with
      | none =>
        simp only [View.nextPhase, hphase] at haccepted
        cases haccepted
      | some d =>
        have hstage : s.view.ctl.stage = .opened .reconnect d := hat.1
        refine ⟨h.opened .reconnect d hstage, fun p reason hp hmem => ?_⟩
        exact absurd hmem (h.unclosed d (by rw [hstage]; rfl) p reason hp)
  | devMalloc bda addrType =>
    have hcalled : s.view.ctl.stage = .called bda := hat.2.1
    by_cases hrc : c.rc = 0
    · refine hmove _ _ hat rfl (by simp) (if_pos hrc) (by simp [hcalled]) (by simp)
        (by simp [hcalled]) fun d hd => ?_
      cases hd
      exact .inr (Nat.le_refl _)
    · exact hmove _ _ hat rfl (by simp) (if_neg hrc) (by simp [hcalled]) (by simp)
        (by simp [hcalled]) (by exact fun _ h => by cases h)
  | devFree d =>
    have hfailed : s.view.ctl.stage = .failed .open d := hat.1
    exact hmove _ _ hat rfl (by simp) rfl (by simp [hfailed]) (fun _ _ h => by cases h)
      (by simp [hfailed]) (by exact fun _ h => by cases h)
  | gapConnect kind d =>
    have hbegun : s.view.ctl.stage = .begun kind d := hat.1
    cases hkey : s.view.key? d with
    | none => exact hstay _ hat rfl (by simp) (.inl (by simp [View.nextStage, hkey]))
    | some key =>
      refine hmove _ (if s.view.accepts c key.bda then .connecting kind d else .failed kind d) hat
        rfl (by simp) (by simp [View.nextStage, hkey]) (by simp [hbegun]) (fun _ _ => ?_)
        (by simp [hbegun]) fun d' hd' => ?_
      · split <;> simp
      · rw [hbegun]
        split at hd' <;> exact .inl hd'
  | readConnId kind d =>
    have hconnecting : s.view.ctl.stage = .connecting kind d := hat.1
    cases hkey : s.view.key? d with
    | none => exact hstay _ hat rfl (by simp) (.inl (by simp [View.nextStage, hkey]))
    | some key =>
      refine hmove _ (if 0 ≤ key.connId then .linked kind d .fresh else .failed kind d) hat rfl
        (by simp) (by simp [View.nextStage, hkey]) (by simp [hconnecting]) (fun _ _ => ?_)
        (by simp [hconnecting]) fun d' hd' => ?_
      · split <;> simp
      · rw [hconnecting]
        split at hd' <;> exact .inl hd'
  | setConnected kind d =>
    obtain ⟨step, hlinked, -⟩ := hat.1
    have hlinked' : s.view.ctl.stage = .linked kind d step := hlinked
    refine hmove _ _ hat rfl (by simp) rfl (by simp [hlinked']) (fun _ _ h => by cases h)
      (by simp [hlinked']) fun d' hd' => ?_
    rw [hlinked']
    exact .inl hd'
  | _ => exact hstay _ hat rfl (by simp) (View.nextStage_within c _ rfl)

/-! ### Events -/

theorem quiet_of_beside {l : List Obs} (h : ∀ o ∈ l, o.beside = true) : Quiet l := by
  intro o ho
  have hbeside := h o ho
  cases o with
  | decided _ | returned _ | openCall _ _ _ | reconnectCall _ | state _ => cases hbeside
  | _ => exact ⟨rfl, rfl, nofun⟩

/-- What the event task leaves alone. -/
theorem dispatch_frame {l : List Obs} (h : AttemptInv v) (hctl : v'.ctl = v.ctl)
    (htrace : v'.trace = l ++ v.trace) (hquiet : Quiet l) (hposted : ∀ p, .posted p ∉ l)
    (hgives : v.ctl.phase.opens = true → ∀ p, (p, .give .connected) ∈ v'.agenda →
      (p, .give .connected) ∈ v.agenda)
    (htoken : v.ctl.phase.opens = true →
      (v'.kbd.connectedSem = true ∨ ∃ p, (p, .give .connected) ∈ v'.agenda) →
      (∃ d, OpenPosted d (attempt v.trace)) ∧
        ∀ d q reason, OpenPosted d (attempt v.trace) → q.event = .close d reason →
          .posted q ∈ attempt v.trace → (q, .take .connected) ∈ v'.agenda) : AttemptInv v' := by
  have hattempt : attempt v'.trace = l ++ attempt v.trace := by
    rw [attempt, htrace, since_append fun o ho => (hquiet o ho).1, attempt]
  have hmem : ∀ p, .posted p ∈ attempt v'.trace ↔ .posted p ∈ attempt v.trace := by
    intro p
    rw [hattempt, List.mem_append, or_iff_right (hposted p)]
  have hreturned : ∀ r, .returned r ∈ attempt v'.trace ↔ .returned r ∈ attempt v.trace := by
    intro r
    rw [hattempt, List.mem_append, or_iff_right]
    intro hr
    cases (hquiet _ hr).2.1
  have hopenPosted : ∀ d, OpenPosted d (attempt v'.trace) ↔ OpenPosted d (attempt v.trace) :=
    fun d => exists_congr fun seq => hmem _
  constructor
  · intro r hr
    rw [hctl]
    exact h.returned r ((hreturned r).mp hr)
  · intro kind d hst
    rw [hopenPosted]
    exact h.opened kind d (hctl ▸ hst)
  · intro p d status hp hpmem
    rw [hctl, hreturned]
    exact h.settled p d status hp ((hmem p).mp hpmem)
  · intro d hst p reason hp hpmem
    exact h.unclosed d (hctl ▸ hst) p reason hp ((hmem p).mp hpmem)
  · intro p q d d' status reason hp hpmem hq hqmem hd'
    exact h.order p q d d' status reason hp ((hmem p).mp hpmem) hq ((hmem q).mp hqmem)
      ((hopenPosted d').mp hd')
  · intro hph p hgive
    rw [hctl] at hph
    exact (hmem p).mpr (h.gives hph p (hgives hph p hgive))
  · intro hph hsem
    rw [hctl] at hph
    obtain ⟨hsome, htakes⟩ := htoken hph hsem
    refine ⟨hsome.imp fun d => (hopenPosted d).mpr, fun d q reason hd hq hqmem => ?_⟩
    exact htakes d q reason ((hopenPosted d).mp hd) hq ((hmem q).mp hqmem)
  · rw [hctl, hattempt, upTo_append fun o ho => (hquiet o ho).2.1]
    exact h.accepted
  · rw [htrace]
    exact h.entries.append fun o ho _ heq => absurd heq (hquiet o ho).2.2

/-- A step of the event task. The close event of the opened device takes the token back before it
counts as handled, since it comes after the open event. -/
theorem dispatch (h : AttemptInv v) (hlog : EventLog v) (hwork : View.WorkOf v)
    (heff : View.Effect .dispatch v v') : AttemptInv v' := by
  obtain ⟨-, l, htrace, hbeside, hposted, -⟩ := heff.handles
  rcases heff.dispatch with ⟨p, step, rest, hhandling, hagenda, hv'⟩ | ⟨hagenda, p, queue, rest, hv'⟩
  · have hkbd : v'.kbd = (v.stepExec step).kbd := by rw [hv', View.setHandling_kbd]
    have hsub : ∀ q step', (q, step') ∈ v'.agenda → (q, step') ∈ v.agenda := by
      intro q step' hmem
      rw [hagenda]
      exact List.mem_cons_of_mem _ hmem
    refine h.dispatch_frame heff.ctl htrace (quiet_of_beside hbeside) hposted
      (fun _ q => hsub q _) fun hph htoken => ?_
    have hbefore : v.kbd.connectedSem = true ∨ ∃ q, (q, .give .connected) ∈ v.agenda := by
      rcases htoken with hsem | ⟨q, hgive⟩
      · rw [hkbd] at hsem
        cases step with
        | give sem =>
          cases sem with
          | connected => exact .inr ⟨p, hagenda ▸ List.mem_cons_self⟩
          | disconnected | openDone => exact .inl hsem
        | take sem =>
          cases sem with
          | connected => cases hsem
          | disconnected | openDone => exact .inl hsem
        | setHidhDev _ | compare _ _ | emit _ | remember _ | free _ => exact .inl hsem
      · exact .inr ⟨q, hsub q _ hgive⟩
    obtain ⟨hsome, htakes⟩ := h.token hph hbefore
    refine ⟨hsome, fun d q reason hd hq hmem => ?_⟩
    have htake := htakes d q reason hd hq hmem
    rw [hagenda] at htake
    refine (List.mem_cons.mp htake).resolve_left fun heq => ?_
    cases heq
    -- the token is gone, and another open event would have come before this close event
    rcases htoken with hsem | ⟨p', hgive⟩
    · rw [hkbd] at hsem
      cases hsem
    · obtain ⟨d', hd'⟩ := hwork.event (hsub p' _ hgive)
      have hlt := h.order p' p d' d 0 reason hd' (h.gives hph p' (hsub p' _ hgive)) hq hmem hd
      have hpending : v.pending.map (·.seq) = p.seq :: v.eventQueue.items.map (·.seq) := by
        simp [View.pending, hhandling]
      have hle := hlog.inOrder
      rw [hpending] at hle
      have hmem' : p'.seq ∈ p.seq :: v.eventQueue.items.map (·.seq) := by
        rw [← hpending]
        exact List.mem_map.mpr ⟨p', View.mem_pending_of_agenda (hsub p' _ hgive), rfl⟩
      exact Nat.not_lt_of_le (hle.head_le hmem') hlt
  · have hkbd : v'.kbd = v.kbd := by rw [hv', View.setHandling_kbd]
    refine h.dispatch_frame heff.ctl htrace (quiet_of_beside hbeside) hposted ?_ ?_ <;>
      rw [hagenda]
    · exact fun _ _ => id
    · rw [hkbd]
      exact h.token

/-- **An event that closes no exposed device keeps the attempt live.** -/
theorem effect {e : Event} (h : AttemptInv v) (hlog : EventLog v) (hwork : View.WorkOf v)
    (heff : View.Effect e v v')
    (hclose : ∀ handle reason, e = .disconnected handle reason → ∀ key,
      v.byConnId handle = some key → key.connected = true →
        v.ctl.stage.exposed? ≠ some key.id) : AttemptInv v' := by
  by_cases he : e = .dispatch
  · subst he
    exact h.dispatch hlog hwork heff
  · obtain ⟨l, event?, hlogs, hbeside, hcause⟩ := heff.logs he
    have hctl := heff.ctl
    refine h.of_logs hlog hlogs (quiet_of_beside hbeside) ?_ ?_ (by rw [hctl]; exact id)
      (by rw [hctl]; exact fun _ _ => .rfl) (by rw [hctl]; exact fun _ => .inl) ?_
      (by rw [hctl]; exact id)
    · rintro d status rfl
      rcases hcause _ rfl with hquiet | ⟨_, _, _, -, -, -, heq⟩
      · simpa [HidhEvent.linkUp?] using hquiet d
      · cases heq
    · rintro d reason rfl
      rcases hcause _ rfl with hquiet | ⟨handle, reason', key, he', hkey, hconn, heq⟩
      · simpa [HidhEvent.linkUp?] using hquiet d
      · cases heq
        rw [hctl]
        exact hclose handle _ he' key hkey hconn
    · rw [hctl]
      intro hopens
      refine ⟨hopens, fun hsem => ?_⟩
      have hsame := congrFun (heff.kbd he).2 .connected
      exact hsame.symm.trans hsem

end AttemptInv

theorem attemptInv {cfg : KbdConfig} {bonds : List (Bda × UInt8)} {c : HostConfig}
    (h : Reach host drained (boot cfg bonds) c) : AttemptInv c.state.view := by
  refine reach_keeps_of_known (J := fun s => EventLog s.view ∧ View.WorkOf s.view)
    (I := fun s => AttemptInv s.view) h (fun _ hreach => ⟨eventLog hreach, View.workOf hreach⟩)
    ?_ ?_ ?_
  · exact AttemptInv.restart obeys_nil rfl nofun nofun nofun
  · rintro o ch s ⟨hlog, -⟩ hinv _ hready hg hat
    rw [exec_view]
    exact hinv.exec hlog hready hg hat
  · rintro e s s' ⟨hlog, hwork⟩ hinv _ hg hstep
    refine hinv.effect hlog hwork (eventStep_view hstep) ?_
    rintro handle reason rfl key hkey hconn hexposed
    rw [byConnId_view] at hkey
    obtain ⟨dev, hdev, rfl⟩ := Option.map_eq_some_iff.mp hkey
    have hconn' : dev.connected = true := hconn
    have hexposed' : s.ctl.stage.exposed? = some dev.id := hexposed
    simp [drained, hdev, hconn', hexposed'] at hg

/-! ## The result -/

/-- **CONNECTED is entered on a live connection.** In every run in which every open starts without a
token for `s_connected_sem`, given or on its way, and no device is closed where it is exposed,
CONNECTED follows a decision for the device of its attempt, whose open event was posted in this
attempt and no close event of it handled. -/
theorem entriesLive_of_drained {cfg : KbdConfig} {bonds : List (Bda × UInt8)} {c : HostConfig}
    (h : Reach host drained (boot cfg bonds) c) : Obeys EntryRule c.state.trace :=
  (attemptInv h).entries

/-! ## Runs -/

/-- A device is opened and CONNECTED is entered. -/
theorem entriesLive_opened : ∃ c, host.run drained
    (scanRun 7 ++ selectRun ++ linkRun 7 ++ openRun ++ mains 1) (boot {} []) = some c ∧
      c.state.trace.head? = some (.state .connected) ∧ Obeys EntryRule c.state.trace := by
  obtain ⟨c, hrun, hhead⟩ := exists_run drained
    (scanRun 7 ++ selectRun ++ linkRun 7 ++ openRun ++ mains 1) (boot {} [])
    (fun c => c.state.trace.head? == some (.state .connected)) (by decide +kernel)
  exact ⟨c, hrun, beq_iff_eq.mp hhead, entriesLive_of_drained (Reach.of_run hrun)⟩

/-- A re-pair request leaves the token of the closed connection behind when its close event does not
come in time; the next open returns no device, and CONNECTED is entered all the same. -/
theorem not_entriesLive_stale_token :
    ∃ c, Reach host .free (boot {} []) c ∧ ¬Obeys EntryRule c.state.trace := by
  let run := scanRun 7 ++ selectRun ++ linkRun 7 ++ openRun ++ repairRun [.env (.tick 200)] ++
    rescanRun 8 ++ reselectRun ++ [.main { rc := 1 }] ++ mains 3 ++ [.env (.tick 6000)] ++ mains 6
  let entered : List Obs := [.state .connected, .decided true, .returned none,
    .openCall .selected 8 false]
  obtain ⟨c, hrun, hentered⟩ := exists_run .free run (boot {} [])
    (fun c => c.state.trace.take 4 == entered) (by decide +kernel)
  refine ⟨c, .of_run hrun, fun hobeys => ?_⟩
  have htrace : c.state.trace = entered ++ c.state.trace.drop 4 := by
    rw [← beq_iff_eq.mp hentered, List.take_append_drop]
  rw [htrace] at hobeys
  obtain ⟨d, hreturned, -⟩ : ∃ d, Obs.returned (some d) ∈ [Obs.returned none] ∧
      LiveIn d [Obs.returned none] := hobeys _ _ List.suffix_rfl rfl
  cases List.mem_singleton.mp hreturned

end BleKbdHost.Host
