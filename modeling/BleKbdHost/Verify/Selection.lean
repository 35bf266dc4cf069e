import BleKbdHost.Host.Scan

/-!
# Selections

Whether the device that is opened for a selection is the one the application saw at that index. The
index is looked up when the main task comes to the command, in the list it has then: the right one
as long as the list was not emptied since it was shown.
-/

namespace BleKbdHost.Host

open Hid Keys Conc

/-! ## The property -/

/-- The calls whose commands are in the queue, oldest first, each with what had happened before. -/
def queuedCalls : List Obs → List (KbdCmd × List Obs)
  | [] => []
  | .startPairing true :: past => queuedCalls past ++ [(.startPairing, past)]
  | .selectDevice param true :: past => queuedCalls past ++ [(.selectDevice param, past)]
  | .repair :: past | .selection _ :: past => (queuedCalls past).tail
  | _ :: past => queuedCalls past

/-- The call whose selection was received last and not acted on yet. -/
def currentSelection : List Obs → Option (KbdCmd × List Obs)
  | [] | .openCall .selected _ _ :: _ => none
  | .selection _ :: past => (queuedCalls past).head?
  | _ :: past => currentSelection past

/-- At the call, the address stood at the index in the most recent `on_scan_updated`. -/
def ShownAt (call : KbdCmd × List Obs) (addr : Bda) : Prop :=
  ∃ param devs dev, call.1 = .selectDevice param ∧ call.2.findSome? Obs.snapshot? = some devs ∧
    0 ≤ param ∧ devs[param.toNat]? = some dev ∧ dev.addr = addr

/-- A selected device is opened for a selection of its own, which chose its address. -/
def OpensChosen : Obs → List Obs → Prop
  | .openCall .selected addr _, past => ∃ call ∈ currentSelection past, ShownAt call addr
  | _, _ => True

/-! ## The condition -/

/-- The call was made after a snapshot of the list that is there now, for one of its entries. -/
def Sys.listStill (s : Sys) (param : Int) : Bool :=
  (currentSelection s.trace).any fun call =>
    call.2.count .scanReset == s.trace.count .scanReset &&
      (lastSnapshot call.2).any fun devs => decide (param < devs.length)

/-- When the main task accepts an index, the list was not emptied since the snapshot that the call
refers to, and the index is one of that snapshot. -/
def chosenFromList : Guard Op Choice Sys Event where
  main o _ s :=
    match o with
    | .checkSelection param => !s.kbd.validSelection param || s.listStill param
    | _ => true
  env _ _ := true

/-! ## Calls and commands -/

/-- Happenings that concern the command queue. -/
def Obs.ofQueue : Obs → Bool
  | .startPairing queued | .selectDevice _ queued => queued
  | .repair | .selection _ => true
  | _ => false

theorem queuedCalls_append {l trace : List Obs} (h : ∀ o ∈ l, o.ofQueue = false) :
    queuedCalls (l ++ trace) = queuedCalls trace := by
  induction l with
  | nil => rfl
  | cons o l ih =>
    have ho := h o List.mem_cons_self
    rw [List.cons_append, ← ih fun o' ho' => h o' (List.mem_cons_of_mem o ho')]
    cases o with
    | startPairing queued | selectDevice param queued =>
      cases queued
      · rfl
      · cases ho
    | repair | selection _ => cases ho
    | _ => rfl

theorem queuedCalls_suffix {trace : List Obs} : ∀ call ∈ queuedCalls trace, call.2 <:+ trace := by
  induction trace with
  | nil => exact nofun
  | cons o trace ih =>
    intro call hcall
    have hold : call ∈ queuedCalls trace → call.2 <:+ o :: trace := fun hmem =>
      (ih call hmem).trans (List.suffix_cons o trace)
    have hsent : ∀ cmd, call ∈ queuedCalls trace ++ [(cmd, trace)] → call.2 <:+ o :: trace := by
      intro cmd hmem
      rcases List.mem_append.mp hmem with hmem | hmem
      · exact hold hmem
      · rw [List.mem_singleton.mp hmem]
        exact List.suffix_cons o trace
    cases o with
    | startPairing queued | selectDevice param queued =>
      cases queued
      · exact hold hcall
      · exact hsent _ hcall
    | repair | selection _ => exact hold (List.mem_of_mem_tail hcall)
    | _ => exact hold hcall

theorem currentSelection_suffix {trace : List Obs} :
    ∀ call ∈ currentSelection trace, call.2 <:+ trace := by
  induction trace with
  | nil => exact nofun
  | cons o trace ih =>
    intro call hcall
    have hold : call ∈ currentSelection trace → call.2 <:+ o :: trace := fun hmem =>
      (ih call hmem).trans (List.suffix_cons o trace)
    cases o with
    | openCall site addr known =>
      cases site
      · exact hold hcall
      · cases hcall
    | selection param =>
      exact (queuedCalls_suffix call (List.mem_of_mem_head? hcall)).trans
        (List.suffix_cons _ trace)
    | _ => exact hold hcall

/-- Happenings between a selection and its open. -/
def Obs.keepsSelection : Obs → Bool
  | .openCall .selected _ _ | .selection _ => false
  | _ => true

theorem currentSelection_append {l trace : List Obs} (h : ∀ o ∈ l, o.keepsSelection = true) :
    currentSelection (l ++ trace) = currentSelection trace := by
  induction l with
  | nil => rfl
  | cons o l ih =>
    have ho := h o List.mem_cons_self
    rw [List.cons_append, ← ih fun o' ho' => h o' (List.mem_cons_of_mem o ho')]
    cases o with
    | openCall site addr known => cases site <;> first | rfl | cases ho
    | selection param => cases ho
    | _ => rfl

/-- A call whose command was sent is the last one in the queue. -/
theorem queuedCalls_sent {v : View} (h : (queuedCalls v.trace).map Prod.fst = v.kbd.cmdQueue.items)
    (cmd : KbdCmd) (sent : Bool → Obs)
    (hsent : queuedCalls (sent true :: v.trace) = queuedCalls v.trace ++ [(cmd, v.trace)])
    (hlost : queuedCalls (sent false :: v.trace) = queuedCalls v.trace) :
    (queuedCalls (sent v.kbd.cmdQueue.hasRoom :: v.trace)).map Prod.fst =
      (v.kbd.cmdQueue.send cmd).items := by
  rw [BoundedQueue.items_send]
  cases v.kbd.cmdQueue.hasRoom with
  | true =>
    rw [hsent, List.map_append, h]
    rfl
  | false =>
    rw [hlost, h]
    rfl

/-- The calls of the trace are those in the queue. -/
def CallsQueued (v : View) : Prop := (queuedCalls v.trace).map Prod.fst = v.kbd.cmdQueue.items

theorem CallsQueued.exec {o : Op} {c : Choice} {v : View} (h : CallsQueued v) :
    CallsQueued (v.exec o c) := by
  unfold CallsQueued at h ⊢
  rw [View.exec_trace, View.exec_cmdQueue]
  by_cases hreceive : ∃ since ticks, o = .receiveCmd since ticks
  · obtain ⟨since, ticks, rfl⟩ := hreceive
    simp only [View.noted, BoundedQueue.items_tail, ← h]
    rcases hcalls : queuedCalls v.trace with _ | ⟨⟨cmd, past⟩, calls⟩
    · simp [hcalls]
    · cases cmd <;> simp [queuedCalls, KbdCmd.obs, hcalls]
  · rw [queuedCalls_append fun obs hobs => ?_, h]
    · cases o <;> first | rfl | exact absurd ⟨_, _, rfl⟩ hreceive
    · have hnoted := View.noted_origin (Option.mem_toList.mp hobs)
      cases obs with
      | startPairing _ | selectDevice _ _ => exact hnoted.elim
      | repair | selection _ => exact absurd hnoted.1 hreceive
      | _ => rfl

theorem CallsQueued.effect {e : Event} {v v' : View} (h : CallsQueued v)
    (heff : View.Effect e v v') : CallsQueued v' := by
  by_cases hsend : e = .startPairing ∨ ∃ param, e = .selectDevice param
  · rcases hsend with rfl | ⟨param, rfl⟩
    · cases heff with
      | quiet _ hinner => cases hinner
      | startPairing => exact queuedCalls_sent h .startPairing .startPairing rfl rfl
    · cases heff with
      | quiet _ hinner => cases hinner
      | selectDevice =>
        exact queuedCalls_sent h (.selectDevice param) (.selectDevice param) rfl rfl
  · obtain ⟨l, hl, hall⟩ := heff.records
    unfold CallsQueued
    rw [hl, heff.cmdQueue, queuedCalls_append fun o ho => ?_, h]
    · cases e with
      | startPairing => exact absurd (.inl rfl) hsend
      | selectDevice param => exact absurd (.inr ⟨param, rfl⟩) hsend
      | _ => rfl
    · have hby := hall o ho
      cases o with
      | startPairing queued => exact absurd (.inl hby.1) hsend
      | selectDevice param queued => exact absurd (.inr ⟨param, hby.1⟩) hsend
      | repair | selection _ => exact hby.elim
      | _ => rfl

/-! ## Entries -/

theorem scanDev_eq {k : Kbd} {index : Nat} (h : index < k.scanDevs.devs.length) :
    k.scanDev index = k.scanDevs.devs[index] := by
  rw [Kbd.scanDev, List.getD_eq_getElem?_getD, List.getElem?_eq_getElem h]
  rfl

/-- Entries at the same place of a list and of one that continues it have the same address. -/
theorem addr_of_prefix {devs devs' : List ScanDev}
    (h : devs.map ScanDev.fixed <+: devs'.map ScanDev.fixed) {index : Nat}
    (hindex : index < devs.length) :
    ∃ hindex' : index < devs'.length, devs'[index].addr = devs[index].addr := by
  have hindex' : index < devs'.length := by
    have hle := h.length_le
    rw [List.length_map, List.length_map] at hle
    omega
  have hsame := h.getElem (i := index) (by rwa [List.length_map])
  rw [List.getElem_map, List.getElem_map] at hsame
  exact ⟨hindex', (congrArg Prod.fst hsame).symm⟩

theorem findSome?_of_lastSnapshot {trace : List Obs} {devs : List ScanDev}
    (h : lastSnapshot trace = some devs) : trace.findSome? Obs.snapshot? = some devs := by
  rw [← List.head?_filterMap]
  obtain ⟨rest, hrest⟩ := (List.takeWhile_prefix (p := (!Obs.isReset ·)) (l := trace)).filterMap
    Obs.snapshot?
  rw [← hrest, List.head?_append]
  unfold lastSnapshot since at h
  rw [h]
  rfl

/-- The entry that was shown is the one that is looked up. -/
theorem shownAt_of_listStill {s : Sys} {param : Int} {call : KbdCmd × List Obs}
    (hshows : Obeys ShowsList s.trace) (hlisted : s.kbd.scanDevs = listed s.trace)
    (hcall : call ∈ currentSelection s.trace) (hcmd : call.1 = .selectDevice param)
    (hparam : 0 ≤ param) (hstill : s.listStill param = true) :
    ShownAt call (s.kbd.scanDev param.toNat).addr := by
  obtain ⟨call', hcall', hcond⟩ := (Option.any_eq_true _ _).mp hstill
  obtain rfl : call = call' := Option.some.inj (hcall.symm.trans hcall')
  obtain ⟨hcount, hsnapshot⟩ := Bool.and_eq_true_iff.mp hcond
  obtain ⟨devs, hdevs, hrange⟩ := (Option.any_eq_true _ _).mp hsnapshot
  have hindex : param.toNat < devs.length := by
    have hlt := of_decide_eq_true hrange
    omega
  have hpast := currentSelection_suffix call hcall
  have hprefix : devs.map ScanDev.fixed <+: s.kbd.scanDevs.devs.map ScanDev.fixed := by
    obtain ⟨l, hl⟩ := id hpast
    have hnone : .scanReset ∉ l := by
      rw [← hl, List.count_append, beq_iff_eq] at hcount
      exact List.count_eq_zero.mp (by omega)
    have hgrows : (listed call.2).fixed <+: (listed (l ++ call.2)).fixed :=
      fixed_listed_prefix hnone
    rw [hl, ← hlisted] at hgrows
    exact (lastSnapshot_isPrefix (hshows.of_suffix hpast) devs hdevs).trans hgrows
  obtain ⟨hindex', haddr⟩ := addr_of_prefix hprefix hindex
  refine ⟨param, devs, devs[param.toNat], hcmd, findSome?_of_lastSnapshot hdevs, hparam,
    List.getElem?_eq_getElem hindex, ?_⟩
  rw [scanDev_eq hindex', haddr]

/-! ## The way to the open -/

/-- The address that is about to be opened for a selection. -/
def Phase.target? : Phase → Option Bda
  | .chosen addr | .announcing (.selected addr) | .selected addr => some addr
  | _ => none

/-- From a selection to its open. -/
def Phase.selecting : Phase → Bool
  | .picking _ | .picked _ => true
  | ph => ph.target?.isSome

theorem Phase.selecting_of_target {ph : Phase} {addr : Bda} (h : ph.target? = some addr) :
    ph.selecting = true := by
  unfold Phase.selecting
  split
  · rfl
  · rfl
  · rw [h]
    rfl

namespace View.PhaseStep

variable {o : Op} {v : View} {q r : Phase}

theorem picking_cases {param : Int} (h : View.PhaseStep v o q (.picking param)) :
    q = .picking param ∨ (∃ since ticks, o = .receiveCmd since ticks) ∧
      v.kbd.cmdQueue.items.head? = some (.selectDevice param) := by
  generalize hr : Phase.picking param = r at h
  cases h with
  | stays => exact .inl rfl
  | announced next hshows =>
    subst hr
    cases hshows
  | picking param hhead =>
    cases hr
    exact .inr ⟨⟨_, _, rfl⟩, hhead⟩
  | _ => cases hr

theorem picked_cases {index : Nat} (h : View.PhaseStep v o q (.picked index)) :
    q = .picked index ∨ ∃ param, o = .checkSelection param ∧ q = .picking param ∧
      v.kbd.validSelection param = true ∧ index = param.toNat := by
  generalize hr : Phase.picked index = r at h
  cases h with
  | stays => exact .inl rfl
  | announced next hshows =>
    subst hr
    cases hshows
  | picked param hvalid =>
    cases hr
    exact .inr ⟨param, rfl, rfl, hvalid, rfl⟩
  | _ => cases hr

theorem target_cases {addr : Bda} (h : View.PhaseStep v o q r) (hr : r.target? = some addr) :
    q.target? = some addr ∨ ∃ index, o = .copySelected index ∧ q = .picked index ∧
      addr = (v.kbd.scanDev index).addr := by
  cases h with
  | stays | setConnecting addr => exact .inl hr
  | announced _ hshows =>
    cases r with
    | selected addr => exact .inl hr
    | chosen addr => cases hshows
    | announcing next => cases hshows
    | _ => cases hr
  | chosen index =>
    cases hr
    exact .inr ⟨index, rfl, rfl, rfl⟩
  | answered site | repairing site => cases site <;> cases hr
  | _ => cases hr

end View.PhaseStep

/-! ## The invariant -/

/-- The main task is on its way from a selection to its open. -/
structure SelectionInv (v : View) : Prop where
  queued : CallsQueued v
  picking : ∀ param, v.ctl.phase = .picking param →
    ∃ call ∈ currentSelection v.trace, call.1 = .selectDevice param
  picked : ∀ index, v.ctl.phase = .picked index → index < v.kbd.scanDevs.devs.length ∧
    ∃ call ∈ currentSelection v.trace, ShownAt call (v.kbd.scanDev index).addr
  target : ∀ addr, v.ctl.phase.target? = some addr →
    ∃ call ∈ currentSelection v.trace, ShownAt call addr
  opens : Obeys OpensChosen v.trace

namespace SelectionInv

variable {s : Sys} {o : Op} {c : Choice} {v v' : View}

/-- A step that receives and opens nothing. -/
theorem of_frame (h : SelectionInv v) (hqueued : CallsQueued v') {l : List Obs}
    (htrace : v'.trace = l ++ v.trace) (hphase : v'.ctl.phase = v.ctl.phase)
    (hscan : v.kbd.scanDevs.fixed <+: v'.kbd.scanDevs.fixed)
    (hl : ∀ o ∈ l, o.keepsSelection = true) : SelectionInv v' where
  queued := hqueued
  picking param hph := by
    rw [htrace, currentSelection_append hl]
    exact h.picking param (hphase ▸ hph)
  picked index hph := by
    obtain ⟨hindex, hshown⟩ := h.picked index (hphase ▸ hph)
    obtain ⟨hindex', haddr⟩ := addr_of_prefix hscan hindex
    refine ⟨hindex', ?_⟩
    rwa [htrace, currentSelection_append hl, scanDev_eq hindex', haddr, ← scanDev_eq hindex]
  target addr hph := by
    rw [htrace, currentSelection_append hl]
    exact h.target addr (hphase ▸ hph)
  opens := by
    rw [htrace]
    refine h.opens.append fun o ho past => ?_
    have hkeeps := hl o ho
    cases o with
    | openCall site addr known => cases site <;> trivial
    | _ => trivial

theorem effect {e : Event} (h : SelectionInv v) (heff : View.Effect e v v') : SelectionInv v' := by
  obtain ⟨l, hl, hall⟩ := heff.records
  refine h.of_frame (h.queued.effect heff) hl (congrArg Ctl.phase heff.ctl) ?_ fun o ho => ?_
  · rw [heff.scanDevs]
    split
    · exact ScanDevs.fixed_collect ..
    · exact List.prefix_rfl
  · have hby := hall o ho
    cases o <;> first | rfl | exact hby.elim

/-- Between a selection and its open no command is received. -/
theorem keepsSelection_noted (hat : o.At s.ctl) (hselecting : s.ctl.phase.selecting = true)
    (hopen : ∀ addr, o ≠ .openCall .selected addr) :
    ∀ obs ∈ (s.view.noted o c).toList, obs.keepsSelection = true := by
  intro obs hobs
  have hnoted := View.noted_origin (Option.mem_toList.mp hobs)
  cases obs with
  | openCall site addr known =>
    cases site with
    | bonded => rfl
    | selected => exact absurd hnoted (hopen addr)
  | selection param =>
    obtain ⟨⟨since, ticks, rfl⟩, -⟩ := hnoted
    rcases hat.1 with hph | hph | ⟨site, -, hph⟩ <;> rw [hph] at hselecting <;> cases hselecting
  | _ => rfl

/-- The open of the selected device. -/
theorem openCall (h : SelectionInv s.view) {addr : Bda}
    (hat : (Op.openCall .selected addr).At s.ctl) :
    SelectionInv (s.view.exec (.openCall .selected addr) c) where
  queued := h.queued.exec
  picking _ hph := nomatch hph
  picked _ hph := nomatch hph
  target _ hph := nomatch hph
  opens := by
    have hph : s.view.ctl.phase = .selected addr := congrArg Ctl.phase hat
    exact obeys_cons.mpr ⟨h.target addr (by rw [hph]; rfl), h.opens⟩

/-- **An admitted operation keeps the selection.** -/
theorem exec (h : SelectionInv s.view) (hshows : Obeys ShowsList s.trace)
    (hlisted : s.kbd.scanDevs = listed s.trace) (hg : chosenFromList.main o c s = true)
    (hat : o.At s.ctl) : SelectionInv (s.view.exec o c) := by
  by_cases hopen : ∃ addr, o = .openCall .selected addr
  · obtain ⟨addr, rfl⟩ := hopen
    exact h.openCall hat
  have hopen' : ∀ addr, o ≠ .openCall .selected addr := fun addr ho => hopen ⟨addr, ho⟩
  have htrace : (s.view.exec o c).trace = (s.view.noted o c).toList ++ s.view.trace :=
    View.exec_trace ..
  have hstep := View.phaseStep (v := s.view) hat
  rw [← View.exec_phase o c s.view] at hstep
  have hcurrent : s.ctl.phase.selecting = true →
      currentSelection (s.view.exec o c).trace = currentSelection s.trace := fun hselecting => by
    rw [htrace, currentSelection_append (keepsSelection_noted hat hselecting hopen')]
    rfl
  constructor
  · exact h.queued.exec
  · intro param hph
    rcases (hph ▸ hstep).picking_cases with hq | ⟨⟨since, ticks, rfl⟩, hhead⟩
    · have hselecting : s.ctl.phase.selecting = true := by
        rw [show s.ctl.phase = _ from hq]
        rfl
      rw [hcurrent hselecting]
      exact h.picking param hq
    · rw [htrace, View.noted, hhead]
      have hcalls := h.queued
      unfold CallsQueued at hcalls
      rw [← hcalls, List.head?_map] at hhead
      obtain ⟨call, hcall, hcmd⟩ := Option.map_eq_some_iff.mp hhead
      exact ⟨call, hcall, hcmd⟩
  · intro index hph
    rcases (hph ▸ hstep).picked_cases with hq | ⟨param, rfl, hq, hvalid, rfl⟩
    · have hselecting : s.ctl.phase.selecting = true := by
        rw [show s.ctl.phase = _ from hq]
        rfl
      have hscan : (s.view.exec o c).kbd.scanDevs = s.view.kbd.scanDevs := by
        rw [View.exec_scanDevs]
        cases o with
        | resetScan =>
          rcases hat.1 with hph' | hph' <;> rw [show s.ctl.phase = _ from hq] at hph' <;> cases hph'
        | _ => rfl
      rw [hcurrent hselecting, Kbd.scanDev, hscan]
      exact h.picked index hq
    · obtain ⟨call, hcall, hcmd⟩ := h.picking param hq
      have hstill : s.listStill param = true := by
        have hvalid' : s.kbd.validSelection param = true := hvalid
        simpa [chosenFromList, hvalid'] using hg
      obtain ⟨hlow, hhigh⟩ := of_decide_eq_true hvalid
      refine ⟨?_, call, hcall, shownAt_of_listStill hshows hlisted hcall hcmd hlow hstill⟩
      have hlt : param < s.view.kbd.scanDevs.devs.length := hhigh
      change param.toNat < s.view.kbd.scanDevs.devs.length
      omega
  · intro addr hph
    rcases hstep.target_cases hph with hq | ⟨index, rfl, hq, rfl⟩
    · have hselecting : s.ctl.phase.selecting = true := by
        have hq' : s.ctl.phase.target? = some addr := hq
        exact Phase.selecting_of_target hq'
      rw [hcurrent hselecting]
      exact h.target addr hq
    · exact (h.picked index hq).2
  · rw [htrace]
    refine h.opens.append fun obs hobs past => ?_
    have hnoted := View.noted_origin (Option.mem_toList.mp hobs)
    cases obs with
    | openCall site addr known =>
      cases site with
      | bonded => trivial
      | selected => exact absurd hnoted (hopen' addr)
    | _ => trivial

end SelectionInv

theorem selectionInv {cfg : KbdConfig} {bonds : List (Bda × UInt8)} {c : HostConfig}
    (h : Reach host chosenFromList (boot cfg bonds) c) : SelectionInv c.state.view := by
  refine reach_keeps_of_known
    (J := fun s => Obeys ShowsList s.trace ∧ s.kbd.scanDevs = listed s.trace)
    (I := fun s => SelectionInv s.view) h (fun _ h => ⟨showsList h, scanDevs_eq_listed h⟩) ?_ ?_ ?_
  · exact ⟨rfl, nofun, nofun, nofun, obeys_nil⟩
  · intro o ch s hknown hinv _ _ hg hat
    rw [exec_view]
    exact hinv.exec hknown.1 hknown.2 hg hat
  · exact fun e s s' _ hinv _ _ hstep => hinv.effect (eventStep_view hstep)

/-! ## The result -/

/-- **The application's choice is opened.** In every run in which accepted indices refer to the list
that is there. -/
theorem opensChosen_of_listStill {cfg : KbdConfig} {bonds : List (Bda × UInt8)} {c : HostConfig}
    (h : Reach host chosenFromList (boot cfg bonds) c) : Obeys OpensChosen c.state.trace :=
  (selectionInv h).opens

/-! ## Runs -/

/-- From boot to a scan that has found a device and shown it. -/
def shownRun (addr : Bda) : List (Move Choice Event) :=
  scanRun addr ++ mains 2 ++ [.env (.tick 50)] ++ mains 10

/-- Whether the device opened last, for a selection, has the address. -/
def opened (addr : Bda) (s : Sys) : Bool :=
  match s.trace with
  | .openCall .selected addr' _ :: _ => addr' == addr
  | _ => false

/-- The device that was shown is opened. -/
theorem opensChosen_shown : ∃ c, host.run chosenFromList
    (shownRun 7 ++ [.env (.selectDevice 0)] ++ mains 8 ++ [.env (.tick 30)] ++ mains 8)
    (boot {} []) = some c ∧ opened 7 c.state = true ∧ Obeys OpensChosen c.state.trace := by
  obtain ⟨c, hrun, hopened⟩ := exists_run chosenFromList
    (shownRun 7 ++ [.env (.selectDevice 0)] ++ mains 8 ++ [.env (.tick 30)] ++ mains 8)
    (boot {} []) (fun c => opened 7 c.state) (by decide +kernel)
  exact ⟨c, hrun, hopened, opensChosen_of_listStill (Reach.of_run hrun)⟩

/-- The list is emptied and refilled between the call and the lookup: another device is opened. -/
theorem not_opensChosen_refilled : ∃ c, Reach host .free (boot {} []) c ∧
    ¬Obeys OpensChosen c.state.trace := by
  let run := shownRun 7 ++ [.env .startPairing, .env (.selectDevice 0)] ++ mains 9 ++
    [.env (.advertised ⟨advInd, some [66], 9, 0, -40⟩)] ++ mains 13 ++ [.env (.tick 30)] ++ mains 8
  obtain ⟨c, hrun, hopened⟩ := exists_run .free run (boot {} [])
    (fun c => opened 9 c.state &&
      (currentSelection c.state.trace.tail).any fun call =>
        (call.2.findSome? Obs.snapshot?).any fun devs => devs.map (·.addr) == [7])
    (by decide +kernel)
  refine ⟨c, .of_run hrun, fun hobeys => ?_⟩
  obtain ⟨hlast, hselection⟩ := Bool.and_eq_true_iff.mp hopened
  unfold opened at hlast
  split at hlast
  · rename_i addr known past htrace
    obtain ⟨call, hcall, param, devs, dev, -, hdevs, -, hdev, haddr⟩ :=
      (obeys_cons.mp (htrace ▸ hobeys)).1
    obtain ⟨call', hcall', hshown⟩ := (Option.any_eq_true _ _).mp hselection
    rw [htrace] at hcall'
    obtain rfl : call = call' := Option.some.inj (hcall.symm.trans hcall')
    rw [hdevs] at hshown
    have haddrs : devs.map (·.addr) = [7] := beq_iff_eq.mp hshown
    have hmem : dev.addr ∈ devs.map (·.addr) := List.mem_map_of_mem (List.mem_of_getElem? hdev)
    rw [haddrs, haddr, beq_iff_eq.mp hlast] at hmem
    exact absurd (List.mem_singleton.mp hmem) (by decide)
  · cases hlast

end BleKbdHost.Host
