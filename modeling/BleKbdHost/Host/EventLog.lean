import Mathlib.Data.List.Infix
import BleKbdHost.Conc.Queue
import BleKbdHost.Host.Devices

/-!
# The events between the tasks

Events are numbered as they are posted, and the event task handles them one after the other. What
a step of the main task or of the host task does to them is that it posts at most one (`Logs`).
-/

namespace BleKbdHost.Host

open Hid Keys Conc

/-- What an event says about the link of a device: open, or not. -/
def HidhEvent.linkUp? (d : DevId) : HidhEvent → Option Bool
  | .open d' status => if d' = d then some (decide (status = 0)) else none
  | .close d' _ => if d' = d then some false else none
  | _ => none

/-- What the tasks beside the main task record. -/
def Obs.beside : Obs → Bool
  | .startPairing _ | .selectDevice _ _ => true
  | o => o.ofTasks

namespace View

/-- The events whose handling is not complete, oldest first. -/
def pending (v : View) : List Posted := (v.handling.map Prod.fst).toList ++ v.eventQueue.items

theorem mem_pending_of_agenda {v : View} {p : Posted} {step : HidhStep}
    (h : (p, step) ∈ v.agenda) : p ∈ v.pending := by
  rcases List.mem_append.mp h with h | h
  · refine List.mem_append_left _ ?_
    cases hhandling : v.handling with
    | none => simp [hhandling] at h
    | some q =>
      have heq : ∃ step' ∈ q.2, (q.1, step') = (p, step) := by simpa [hhandling] using h
      obtain ⟨step', -, heq⟩ := heq
      cases heq
      exact List.mem_singleton.mpr rfl
  · obtain ⟨q, hq, h⟩ := List.mem_flatMap.mp h
    obtain ⟨step', -, heq⟩ := List.mem_map.mp h
    cases heq
    exact List.mem_append_right _ hq

/-- The next event, with its number. -/
def posting (v : View) (event? : Option HidhEvent) : Option Posted :=
  event?.map (Posted.mk v.nextSeq)

/-- A step that posts at most one event and leaves the event task alone; `l` is what it records. -/
structure Logs (v v' : View) (l : List Obs) (event? : Option HidhEvent) : Prop where
  handling : v'.handling = v.handling
  queue : v'.eventQueue.items = v.eventQueue.items ++ (v.posting event?).toList
  next : v'.nextSeq = v.nextSeq + event?.toList.length
  trace : v'.trace = l ++ v.trace
  handled : ∀ p, .handled p ∉ l
  posted : ∀ p, .posted p ∈ l ↔ v.posting event? = some p

variable {v v' : View} {l : List Obs} {event? : Option HidhEvent}

theorem Logs.pending (h : Logs v v' l event?) :
    v'.pending = v.pending ++ (v.posting event?).toList := by
  rw [View.pending, h.handling, h.queue, ← List.append_assoc, View.pending]

theorem Logs.agenda (h : Logs v v' l event?) :
    v'.agenda = v.agenda ++ (v.posting event?).toList.flatMap work := by
  rw [View.agenda, h.handling, h.queue, List.flatMap_append, ← List.append_assoc, View.agenda]

theorem Logs.handled_iff (h : Logs v v' l event?) {p : Posted} :
    .handled p ∈ v'.trace ↔ .handled p ∈ v.trace := by
  rw [h.trace, List.mem_append, or_iff_right (h.handled p)]

theorem Logs.posted_iff (h : Logs v v' l event?) {p : Posted} :
    .posted p ∈ v'.trace ↔ v.posting event? = some p ∨ .posted p ∈ v.trace := by
  rw [h.trace, List.mem_append, h.posted]

/-- A step that posts nothing. -/
theorem Logs.of_none (hhandling : v'.handling = v.handling)
    (hqueue : v'.eventQueue = v.eventQueue) (hnext : v'.nextSeq = v.nextSeq)
    (htrace : v'.trace = l ++ v.trace) (hhandled : ∀ p, .handled p ∉ l)
    (hposted : ∀ p, .posted p ∉ l) : Logs v v' l none where
  handling := hhandling
  queue := by rw [hqueue]; exact (List.append_nil _).symm
  next := hnext
  trace := htrace
  handled := hhandled
  posted p := iff_of_false (hposted p) nofun

theorem Logs.of_post {event : HidhEvent} (hroom : v.eventQueue.hasRoom = true)
    (hhandling : v'.handling = v.handling)
    (hqueue : v'.eventQueue = v.eventQueue.send ⟨v.nextSeq, event⟩)
    (hnext : v'.nextSeq = v.nextSeq + 1)
    (htrace : v'.trace = .posted ⟨v.nextSeq, event⟩ :: l ++ v.trace)
    (hhandled : ∀ p, .handled p ∉ l) (hposted : ∀ p, .posted p ∉ l) :
    Logs v v' (.posted ⟨v.nextSeq, event⟩ :: l) (some event) where
  handling := hhandling
  queue := by rw [hqueue, BoundedQueue.items_send_of_hasRoom hroom]; rfl
  next := hnext
  trace := htrace
  handled p := by simpa using hhandled p
  posted p := by simp [hposted p, posting, eq_comm]

/-! ## Operations -/

/-- The event that an operation posts. -/
def posts? : Op → Option HidhEvent
  | .postOpen _ d => some (.open d 0)
  | _ => none

theorem exec_logs (o : Op) (c : Choice) (v : View)
    (hready : ∀ kind d, o = .postOpen kind d → v.eventQueue.hasRoom = true) :
    Logs v (v.exec o c) (v.noted o c).toList (posts? o) := by
  have hstay : ∀ o, (∀ kind d, o ≠ .postOpen kind d) →
      Logs v (v.exec o c) (v.noted o c).toList none := by
    intro o hpost
    obtain ⟨hhandling, hqueue, hnext⟩ := exec_events c v hpost
    refine .of_none hhandling hqueue hnext (exec_trace o c v) (fun p hp => ?_) fun p hp => ?_
    · exact noted_origin (Option.mem_toList.mp hp)
    · obtain ⟨kind, d, rfl, -⟩ := noted_origin (Option.mem_toList.mp hp)
      exact hpost kind d rfl
  cases o with
  | postOpen kind d =>
    exact .of_post (l := []) (hready kind d rfl) rfl rfl rfl rfl (by simp) (by simp)
  | _ => exact hstay _ nofun

/-! ## Events -/

/-- What the host task posts: the end of a link that was open, or nothing about links. -/
def HostPosts (e : Event) (v : View) (event : HidhEvent) : Prop :=
  (∀ d, event.linkUp? d = none) ∨ ∃ handle reason key, e = .disconnected handle reason ∧
    v.byConnId handle = some key ∧ key.connected = true ∧ event = .close key.id reason

/-- The events beside the event task post at most one event. -/
theorem Effect.logs {e : Event} (h : Effect e v v') (he : e ≠ .dispatch) :
    ∃ l event?, Logs v v' l event? ∧ (∀ o ∈ l, o.beside = true) ∧
      ∀ event, event? = some event → HostPosts e v event := by
  have hnone : ∀ {v' : View} (l : List Obs), v'.handling = v.handling →
      v'.eventQueue = v.eventQueue → v'.nextSeq = v.nextSeq → v'.trace = l ++ v.trace →
      (∀ p, .handled p ∉ l) → (∀ p, .posted p ∉ l) → (∀ o ∈ l, o.beside = true) →
      ∃ l event?, Logs v v' l event? ∧ (∀ o ∈ l, o.beside = true) ∧
        ∀ event, event? = some event → HostPosts e v event :=
    fun l hhandling hqueue hnext htrace hhandled hposted hbeside =>
      ⟨l, none, .of_none hhandling hqueue hnext htrace hhandled hposted, hbeside, nofun⟩
  cases h with
  | quiet | ticked | connectFailed => exact hnone [] rfl rfl rfl rfl (by simp) (by simp) nofun
  | advertised _ report =>
    exact hnone [.advertised report] rfl rfl rfl rfl (by simp) (by simp)
      (by simp [Obs.beside, Obs.ofTasks])
  | startPairing =>
    exact hnone [.startPairing _] rfl rfl rfl rfl (by simp) (by simp) (by simp [Obs.beside])
  | selectDevice _ index =>
    exact hnone [.selectDevice index _] rfl rfl rfl rfl (by simp) (by simp) (by simp [Obs.beside])
  | encChange _ handle status =>
    exact hnone [.encChange handle status] rfl rfl rfl rfl (by simp) (by simp)
      (by simp [Obs.beside, Obs.ofTasks])
  | connected _ link hconnecting hfresh =>
    exact hnone [.linkUp link _] rfl rfl rfl rfl (by simp) (by simp)
      (by simp [Obs.beside, Obs.ofTasks])
  | disconnected _ link reason hfind hroom =>
    unfold linkDown
    simp only
    cases hkey : v.byConnId link.handle with
    | none =>
      exact hnone [.linkDown link] rfl rfl rfl rfl (by simp) (by simp)
        (by simp [Obs.beside, Obs.ofTasks])
    | some key =>
      simp only
      split
      · rename_i hconn
        refine ⟨_, some (.close key.id reason), .of_post (l := [.linkDown link])
          (hroom key hkey hconn) rfl rfl rfl rfl (by simp) (by simp),
          by simp [Obs.beside, Obs.ofTasks], fun event hevent => ?_⟩
        cases hevent
        exact .inr ⟨link.handle, reason, key, rfl, hkey, hconn, rfl⟩
      · exact hnone [.linkDown link] rfl rfl rfl rfl (by simp) (by simp)
          (by simp [Obs.beside, Obs.ofTasks])
  | notified _ handle attr data event key hkey hdev hopen hclose hroom =>
    refine ⟨_, some event, .of_post (l := []) hroom rfl rfl rfl rfl (by simp) (by simp),
      by simp [Obs.beside, Obs.ofTasks], fun event' hevent => .inl fun d => ?_⟩
    cases hevent
    cases event with
    | «open» d' status => exact absurd rfl (hopen d' status)
    | close d' reason => exact absurd rfl (hclose d' reason)
    | _ => rfl
  | popped | stepped | settled => exact absurd rfl he

/-- A step of the event task completes the oldest event, or none. -/
theorem Effect.handles (h : Effect .dispatch v v') : v'.nextSeq = v.nextSeq ∧
    ∃ l, v'.trace = l ++ v.trace ∧ (∀ o ∈ l, o.beside = true) ∧ (∀ p, .posted p ∉ l) ∧
      ((v'.pending = v.pending ∧ ∀ p, .handled p ∉ l) ∨
        ∃ p, v.pending = p :: v'.pending ∧ ∀ q, .handled q ∈ l ↔ q = p) := by
  have hfinish : ∀ (v : View) (p : Posted) (steps : List HidhStep),
      (v.setHandling p steps).nextSeq = v.nextSeq ∧
      (v.setHandling p steps).pending = (if steps = [] then [] else [p]) ++ v.eventQueue.items := by
    intro v p steps
    cases steps <;> exact ⟨rfl, rfl⟩
  -- `p` was the oldest event; `l` is what its last step recorded
  have hmain : ∀ (w : View) (p : Posted) (steps : List HidhStep) (l : List Obs),
      v.pending = p :: w.eventQueue.items → w.nextSeq = v.nextSeq → w.trace = l ++ v.trace →
      (∀ o ∈ l, o.ofStep = true) → (w.setHandling p steps).nextSeq = v.nextSeq ∧
      ∃ l, (w.setHandling p steps).trace = l ++ v.trace ∧ (∀ o ∈ l, o.beside = true) ∧
        (∀ p, .posted p ∉ l) ∧ (((w.setHandling p steps).pending = v.pending ∧ ∀ p, .handled p ∉ l) ∨
          ∃ p', v.pending = p' :: (w.setHandling p steps).pending ∧
            ∀ q, .handled q ∈ l ↔ q = p') := by
    intro w p steps l hpending hnext htrace hl
    obtain ⟨hseq, hrest⟩ := hfinish w p steps
    have hsteps : ∀ q, .handled q ∉ l := fun q hq => by cases hl _ hq
    refine ⟨hseq.trans hnext, _, by rw [setHandling_trace, htrace, ← List.append_assoc], ?_, ?_,
      ?_⟩
    · intro o ho
      rcases List.mem_append.mp ho with ho | ho
      · split at ho
        · rw [List.mem_singleton.mp ho]
          rfl
        · cases ho
      · have hstep := hl o ho
        cases o <;> first | rfl | cases hstep
    · intro q hq
      rcases List.mem_append.mp hq with hq | hq
      · split at hq
        · cases List.mem_singleton.mp hq
        · cases hq
      · cases hl _ hq
    · rw [hrest, hpending]
      by_cases hnil : steps = []
      · refine .inr ⟨p, by rw [if_pos hnil]; rfl, fun q => ?_⟩
        simp [hnil, hsteps q]
      · refine .inl ⟨by rw [if_neg hnil]; rfl, fun q => ?_⟩
        simp [hnil, hsteps q]
  cases h with
  | quiet _ h => simp [inner] at h
  | popped _ p ps hnone hitems =>
    exact hmain { v with eventQueue := v.eventQueue.tail } p (hidhSteps p.event) []
      (by simp [View.pending, hnone, hitems]) rfl rfl (by simp)
  | stepped _ p step steps hsome =>
    obtain ⟨l, hl, hall⟩ := stepExec_trace v step
    have hqueue : (v.stepExec step).eventQueue = v.eventQueue := by cases step <;> rfl
    have hnext : (v.stepExec step).nextSeq = v.nextSeq := by cases step <;> rfl
    exact hmain (v.stepExec step) p steps l (by simp [View.pending, hsome, hqueue]) hnext hl hall
  | settled _ p hsome =>
    exact hmain v p [] [] (by simp [View.pending, hsome]) rfl rfl (by simp)

end View

/-! ## Every run -/

/-- The events of a run: numbered and handled in order, about devices that were allocated. -/
structure EventLog (v : View) : Prop where
  inOrder : InOrder (v.pending.map (·.seq)) v.nextSeq fun n =>
    ∃ p, .handled p ∈ v.trace ∧ p.seq = n
  posted : ∀ p, .posted p ∈ v.trace → p.seq < v.nextSeq
  allocated : ∀ p d, .posted p ∈ v.trace → p.event.linkUp? d ≠ none → d < v.nextDev
  steps : ∀ p steps, v.handling = some (p, steps) → steps <:+ hidhSteps p.event

namespace EventLog

variable {v v' : View}

theorem logs {l : List Obs} {event? : Option HidhEvent} (h : EventLog v)
    (hlogs : View.Logs v v' l event?)
    (hdev : v.nextDev ≤ v'.nextDev)
    (hevent : ∀ event d, event? = some event → event.linkUp? d ≠ none → d < v.nextDev) :
    EventLog v' := by
  have hhandled : (fun n => ∃ p, .handled p ∈ v'.trace ∧ p.seq = n) =
      fun n => ∃ p, .handled p ∈ v.trace ∧ p.seq = n := by
    funext n
    simp only [hlogs.handled_iff]
  constructor
  · rw [hhandled, hlogs.pending, hlogs.next]
    cases event? with
    | none => simpa [View.posting] using h.inOrder
    | some event => simpa [View.posting] using h.inOrder.send
  · intro p hp
    rw [hlogs.next]
    rcases hlogs.posted_iff.mp hp with hnew | hold
    · obtain ⟨event, rfl, rfl⟩ := Option.map_eq_some_iff.mp hnew
      exact Nat.lt_succ_self _
    · exact Nat.lt_of_lt_of_le (h.posted p hold) (Nat.le_add_right ..)
  · intro p d hp hne
    rcases hlogs.posted_iff.mp hp with hnew | hold
    · obtain ⟨event, hsome, rfl⟩ := Option.map_eq_some_iff.mp hnew
      exact Nat.lt_of_lt_of_le (hevent event d hsome hne) hdev
    · exact Nat.lt_of_lt_of_le (h.allocated p d hold hne) hdev
  · rw [hlogs.handling]
    exact h.steps

theorem exec {s : Sys} {o : Op} (h : EventLog s.view) (hlist : DeviceList s.view) (c : Choice)
    (hready : o.ready s = true) (hat : o.At s.ctl) : EventLog (s.view.exec o c) := by
  refine h.logs (View.exec_logs o c s.view fun kind d ho => ?_) ?_ fun event d hsome hne => ?_
  · subst ho
    exact hready
  · rw [View.exec_nextDev]
    split
    · split
      · exact Nat.le_succ _
      · exact Nat.le_refl _
    · exact Nat.le_refl _
  · cases o with
    | postOpen kind d' =>
      cases hsome
      have hd : d' = d := by
        by_cases hd : d' = d
        · exact hd
        · exact absurd (if_neg hd) hne
      have hmarked : s.view.ctl.stage = .marked kind d' := hat.1
      exact hd ▸ hlist.fresh d' (hlist.attempted d' (by rw [hmarked]; rfl))
    | _ => cases hsome

theorem dispatch (h : EventLog v) (heff : View.Effect .dispatch v v') : EventLog v' := by
  obtain ⟨hnext, l, hl, -, hposted, hhandled⟩ := heff.handles
  have hold : ∀ p, .posted p ∈ v'.trace → .posted p ∈ v.trace := by
    intro p hp
    rw [hl] at hp
    exact (List.mem_append.mp hp).resolve_left (hposted p)
  constructor
  · rw [hnext, hl]
    rcases hhandled with ⟨hsame, hnone⟩ | ⟨p, hhead, hiff⟩
    · rw [hsame]
      convert h.inOrder using 4
      simp [hnone]
    · have hbefore := h.inOrder
      rw [hhead] at hbefore
      refine hbefore.finish fun m hm => ?_
      obtain ⟨q, hq, rfl⟩ := hm
      rcases List.mem_append.mp hq with hq | hq
      · exact .inl (by rw [(hiff q).mp hq])
      · exact .inr ⟨q, hq, rfl⟩
  · intro p hp
    rw [hnext]
    exact h.posted p (hold p hp)
  · intro p d hp hne
    rw [heff.nextDev]
    exact h.allocated p d (hold p hp) hne
  · intro p steps hhandling
    have hsetHandling : ∀ (w : View) (q : Posted) (rest : List HidhStep),
        (w.setHandling q rest).handling = some (p, steps) → p = q ∧ steps = rest := by
      intro w q rest hsome
      cases rest <;> cases hsome
      exact ⟨rfl, rfl⟩
    cases heff with
    | quiet _ h => simp [View.inner] at h
    | popped _ q ps hnone hitems =>
      obtain ⟨rfl, rfl⟩ := hsetHandling _ _ _ hhandling
      exact List.suffix_rfl
    | stepped _ q step rest hsome =>
      obtain ⟨rfl, rfl⟩ := hsetHandling _ _ _ hhandling
      exact (List.suffix_cons step steps).trans (h.steps _ _ hsome)
    | settled _ q hsome => cases hhandling

theorem effect {e : Event} (h : EventLog v) (hlist : DeviceList v) (heff : View.Effect e v v') :
    EventLog v' := by
  by_cases he : e = .dispatch
  · subst he
    exact h.dispatch heff
  · obtain ⟨l, event?, hlogs, -, hcause⟩ := heff.logs he
    refine h.logs hlogs (Nat.le_of_eq heff.nextDev.symm) fun event d hsome hne => ?_
    rcases hcause event hsome with hquiet | ⟨handle, reason, key, -, hkey, -, rfl⟩
    · exact absurd (hquiet d) hne
    · have hd : key.id = d := by
        by_cases hd : key.id = d
        · exact hd
        · exact absurd (if_neg hd) hne
      exact hd ▸ hlist.fresh _ (List.mem_map.mpr ⟨key, List.mem_of_find?_eq_some hkey, rfl⟩)

end EventLog

theorem eventLog {g : Guard Op Choice Sys Event} {cfg : KbdConfig} {bonds : List (Bda × UInt8)}
    {c : HostConfig} (h : Reach host g (boot cfg bonds) c) : EventLog c.state.view := by
  refine reach_keeps_of_known (J := fun s => DeviceList s.view) (I := fun s => EventLog s.view) h
    (fun _ => deviceList) ?_ ?_ ?_
  · constructor <;> simp [boot, Sys.view, View.pending]
    exact ⟨List.Pairwise.nil, (by simp), (by simp)⟩
  · intro o ch s hlist hinv _ hready _ hat
    rw [exec_view]
    exact hinv.exec hlist ch hready hat
  · exact fun e s s' hlist hinv _ _ hstep => hinv.effect hlist (eventStep_view hstep)

end BleKbdHost.Host
