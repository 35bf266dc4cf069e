import BleKbdHost.Conc.Trace
import BleKbdHost.Host.EventLog
import BleKbdHost.Host.Phases

/-!
# The scan list

What one advertising report does to the scan list (`ScanDevs.Collects`), and the list as a function
of what happened since it was last emptied (`listed`). Entries stay where they are: what is listed
at one time is a prefix of what is listed later, until the list is emptied.
-/

namespace BleKbdHost.Host

open Hid Keys Conc

/-! ## One report -/

/-- The scan callback looks at named connectable advertisements only. -/
def AdvReport.counts (d : AdvReport) : Bool := d.eventType == advInd && d.name.any (!·.isEmpty)

/-- What a refresh does not change. -/
def ScanDev.fixed (dev : ScanDev) : Bda × UInt8 × List UInt8 := (dev.addr, dev.addrType, dev.name)

namespace ScanDevs

def addrs (scan : ScanDevs) : List Bda := scan.devs.map (·.addr)

def fixed (scan : ScanDevs) : List (Bda × UInt8 × List UInt8) := scan.devs.map ScanDev.fixed

/-- The entry with its latest signal strength. -/
def refresh (d : AdvReport) (dev : ScanDev) : ScanDev :=
  if dev.addr = d.addr then { dev with rssi := d.rssi } else dev

@[simp] theorem refresh_addr (d : AdvReport) (dev : ScanDev) : (refresh d dev).addr = dev.addr := by
  unfold refresh
  split <;> rfl

@[simp] theorem refresh_addrType (d : AdvReport) (dev : ScanDev) :
    (refresh d dev).addrType = dev.addrType := by
  unfold refresh
  split <;> rfl

@[simp] theorem refresh_name (d : AdvReport) (dev : ScanDev) : (refresh d dev).name = dev.name := by
  unfold refresh
  split <;> rfl

/-- What `collect_scan_cb` can do to the list. -/
inductive Collects (scan : ScanDevs) (d : AdvReport) (scan' : ScanDevs) : Prop
  | ignored (h : d.counts = false) (hsame : scan' = scan)
  | refreshed (h : d.counts = true) (hlisted : d.addr ∈ scan.addrs)
      (hdevs : scan'.devs = scan.devs.map (refresh d))
  | added (name : List UInt8) (h : d.counts = true) (hname : d.name = some name)
      (hnew : d.addr ∉ scan.addrs) (hroom : scan.devs.length < 8)
      (hdevs : scan'.devs = scan.devs ++ [⟨d.addr, d.addrType, name.take 32 ++ [0], d.rssi⟩])
  | full (h : d.counts = true) (hnew : d.addr ∉ scan.addrs) (hfull : scan.devs.length = 8)
      (hsame : scan' = scan)

theorem collect_cases (scan : ScanDevs) (d : AdvReport) : Collects scan d (scan.collect d) := by
  unfold collect
  split
  · rename_i htype
    exact .ignored (by simp [AdvReport.counts, htype]) rfl
  · rename_i htype
    split
    · rename_i hname
      exact .ignored (by simp [AdvReport.counts, hname]) rfl
    · rename_i hname
      exact .ignored (by simp [AdvReport.counts, hname]) rfl
    · rename_i name hne hname
      have hcounts : d.counts = true := by
        have hne' : name ≠ [] := fun heq => hne heq
        simpa [AdvReport.counts, hname] using ⟨Decidable.not_not.mp htype, hne'⟩
      have hany : scan.devs.any (·.addr == d.addr) = true ↔ d.addr ∈ scan.addrs := by
        simp [addrs]
      split
      · rename_i hlisted
        exact .refreshed hcounts (hany.mp hlisted) rfl
      · rename_i hnew
        have hnew' : d.addr ∉ scan.addrs := fun hmem => hnew (hany.mpr hmem)
        split
        · rename_i hroom
          exact .added name hcounts hname hnew' hroom rfl
        · rename_i hroom
          exact .full hcounts hnew' (Nat.le_antisymm scan.bounded (Nat.not_lt.mp hroom)) rfl

/-- An entry stays in its place, with its address, address type and name. -/
theorem fixed_collect (scan : ScanDevs) (d : AdvReport) : scan.fixed <+: (scan.collect d).fixed := by
  cases collect_cases scan d with
  | ignored _ hsame | full _ _ _ hsame => rw [hsame]
  | refreshed _ _ hdevs =>
    have hkept : (ScanDev.fixed ∘ refresh d) = ScanDev.fixed := by
      funext dev
      simp [ScanDev.fixed]
    rw [fixed, fixed, hdevs, List.map_map, hkept]
  | added name _ _ _ _ hdevs =>
    rw [fixed, fixed, hdevs, List.map_append]
    exact List.prefix_append _ _

end ScanDevs

/-! ## The list of a trace -/

/-- What the reports since the last reset make of an empty list. -/
def listed : List Obs → ScanDevs
  | [] | .scanReset :: _ => .empty
  | .advertised d :: trace => (listed trace).collect d
  | _ :: trace => listed trace

/-- Happenings that concern the scan list. -/
def Obs.ofScan : Obs → Bool
  | .scanReset | .advertised _ => true
  | _ => false

theorem listed_append {l trace : List Obs} (h : ∀ o ∈ l, o.ofScan = false) :
    listed (l ++ trace) = listed trace := by
  induction l with
  | nil => rfl
  | cons o l ih =>
    have ho := h o List.mem_cons_self
    rw [List.cons_append, ← ih fun o' ho' => h o' (List.mem_cons_of_mem o ho')]
    cases o <;> first | rfl | cases ho

/-- Until the list is emptied, what is listed stays where it is. -/
theorem fixed_listed_prefix {l trace : List Obs} (h : .scanReset ∉ l) :
    (listed trace).fixed <+: (listed (l ++ trace)).fixed := by
  induction l with
  | nil => exact List.prefix_rfl
  | cons o l ih =>
    have hl := ih fun hmem => h (List.mem_cons_of_mem o hmem)
    cases o with
    | scanReset => exact absurd List.mem_cons_self h
    | advertised d => exact hl.trans (ScanDevs.fixed_collect ..)
    | _ => exact hl

namespace View

/-- Only the reset touches the list. -/
theorem exec_scanDevs (o : Op) (c : Choice) (v : View) :
    (v.exec o c).kbd.scanDevs =
      match o with
      | .resetScan => .empty
      | _ => v.kbd.scanDevs := by
  cases o with
  | awaitDisconnect _ _ | peekCmd _ | emitKey _ | devMalloc _ _ | reconnectReturns _ =>
    simp only [exec]
    split <;> rfl
  | gapConnect kind d =>
    simp only [exec]
    split
    · rfl
    · split <;> rfl
  | readConnId kind d =>
    simp only [exec]
    split <;> rfl
  | _ => rfl

theorem Effect.scanDevs {e : Event} {v v' : View} (h : Effect e v v') :
    v'.kbd.scanDevs =
      match e with
      | .advertised d => v.kbd.scanDevs.collect d
      | _ => v.kbd.scanDevs := by
  cases h with
  | quiet _ h => cases e <;> first | rfl | simp [inner] at h
  | disconnected _ link reason hfind hroom => rw [linkDown_kbd]
  | popped _ p ps hnone hitems => rw [setHandling_kbd]
  | stepped _ p step steps hsome =>
    rw [setHandling_kbd]
    cases step <;> rfl
  | settled _ p hsome => rw [setHandling_kbd]
  | _ => rfl

end View

/-! ## Every run -/

/-- An operation other than the reset records nothing that concerns the list. -/
theorem noted_ofScan {o : Op} {c : Choice} {v : View} (ho : o ≠ .resetScan) :
    ∀ obs ∈ (v.noted o c).toList, obs.ofScan = false := by
  intro obs hobs
  have hnoted := View.noted_origin (Option.mem_toList.mp hobs)
  cases obs with
  | scanReset => exact absurd hnoted ho
  | advertised d => exact hnoted.elim
  | _ => rfl

theorem listed_exec {o : Op} {c : Choice} {v : View} (h : v.kbd.scanDevs = listed v.trace) :
    (v.exec o c).kbd.scanDevs = listed (v.exec o c).trace := by
  by_cases ho : o = .resetScan
  · subst ho
    rfl
  · rw [View.exec_trace, listed_append (noted_ofScan ho), ← h, View.exec_scanDevs]
    cases o <;> first | rfl | exact absurd rfl ho

theorem listed_effect {e : Event} {v v' : View} (h : v.kbd.scanDevs = listed v.trace)
    (heff : View.Effect e v v') : v'.kbd.scanDevs = listed v'.trace := by
  rw [heff.scanDevs, h]
  by_cases he : ∃ d, e = .advertised d
  · obtain ⟨d, rfl⟩ := he
    cases heff with
    | quiet _ hinner => cases hinner
    | advertised => rfl
  · obtain ⟨l, hl, hall⟩ := heff.records
    rw [hl, listed_append fun o ho => ?_]
    · cases e with
      | advertised d => exact absurd ⟨d, rfl⟩ he
      | _ => rfl
    · have hby := hall o ho
      cases o with
      | scanReset => exact hby.elim
      | advertised d => exact absurd ⟨d, hby⟩ he
      | _ => rfl

/-- **The scan list is that of the trace.** -/
theorem scanDevs_eq_listed {g : Guard Op Choice Sys Event} {cfg : KbdConfig}
    {bonds : List (Bda × UInt8)} {c : HostConfig} (h : Reach host g (boot cfg bonds) c) :
    c.state.kbd.scanDevs = listed c.state.trace := by
  refine reach_keeps (I := fun s => s.view.kbd.scanDevs = listed s.view.trace) h rfl ?_ ?_
  · intro o ch s hinv _ _ _ _
    rw [exec_view]
    exact listed_exec hinv
  · exact fun e s s' hinv _ _ hstep => listed_effect hinv (eventStep_view hstep)

/-- What was recorded stays recorded. -/
theorem trace_suffix {g : Guard Op Choice Sys Event} {c c' : HostConfig}
    (h : Reach host g c c') : c.state.trace <:+ c'.state.trace := by
  induction h with
  | start => exact List.suffix_rfl
  | @step m c₁ c₂ _ _ hstep ih =>
    refine ih.trans ?_
    rcases m with ch | e
    · rcases System.step_main_cases hstep with ⟨l, -, -, rfl⟩ | ⟨o, k, -, -, -, rfl⟩
      · exact List.suffix_rfl
      · have htrace : (o.exec ch c₁.state).view.trace = _ := exec_view o ch c₁.state ▸
          View.exec_trace o ch c₁.state.view
        exact ⟨_, htrace.symm⟩
    · obtain ⟨l, hl, -⟩ := (eventStep_view (System.step_env_cases hstep).2.2).records
      exact ⟨l, hl.symm⟩

/-! ## Snapshots -/

def Obs.isReset : Obs → Bool
  | .scanReset => true
  | _ => false

def Obs.snapshot? : Obs → Option (List ScanDev)
  | .scanUpdated devs => some devs
  | _ => none

/-- The last snapshot since the last reset. -/
def lastSnapshot (trace : List Obs) : Option (List ScanDev) :=
  ((since Obs.isReset trace).filterMap Obs.snapshot?).head?

theorem lastSnapshot_append {l trace : List Obs}
    (h : ∀ o ∈ l, o.isReset = false ∧ o.snapshot? = none) :
    lastSnapshot (l ++ trace) = lastSnapshot trace := by
  rw [lastSnapshot, since_append fun o ho => (h o ho).1, List.filterMap_append,
    List.filterMap_eq_nil_iff.mpr fun o ho => (h o ho).2]
  rfl

/-- Only the copy of the list comes before its callback. -/
theorem View.PhaseStep.copied_cases {o : Op} {v : View} {q : Phase} {devs : List ScanDev}
    (h : View.PhaseStep v o q (.copied devs)) :
    q = .copied devs ∨ o = .copyScan ∧ devs = v.kbd.scanDevs.devs := by
  generalize hr : Phase.copied devs = r at h
  cases h with
  | stays => exact .inl rfl
  | announced next hshows =>
    subst hr
    cases hshows
  | copied =>
    cases hr
    exact .inr ⟨rfl, rfl⟩
  | _ => cases hr

/-- The last snapshot, the copy that is about to be shown, and the list continue each other. -/
structure SnapshotsListed (v : View) : Prop where
  shown : ∀ devs ∈ lastSnapshot v.trace, devs.map ScanDev.fixed <+: v.kbd.scanDevs.fixed
  copied : ∀ devs, v.ctl.phase = .copied devs → devs.map ScanDev.fixed <+: v.kbd.scanDevs.fixed
  next : ∀ devs, v.ctl.phase = .copied devs → ∀ before ∈ lastSnapshot v.trace,
    before.map ScanDev.fixed <+: devs.map ScanDev.fixed

namespace SnapshotsListed

variable {s : Sys} {o : Op} {c : Choice} {v v' : View}

/-- A step that shows nothing, copies nothing and only adds to the list. -/
theorem of_frame (h : SnapshotsListed v) (hsnapshot : lastSnapshot v'.trace = lastSnapshot v.trace)
    (hgrows : v.kbd.scanDevs.fixed <+: v'.kbd.scanDevs.fixed)
    (hcopied : ∀ devs, v'.ctl.phase = .copied devs → v.ctl.phase = .copied devs) :
    SnapshotsListed v' where
  shown devs hdevs := (h.shown devs (hsnapshot ▸ hdevs)).trans hgrows
  copied devs hph := (h.copied devs (hcopied devs hph)).trans hgrows
  next devs hph before hbefore := h.next devs (hcopied devs hph) before (hsnapshot ▸ hbefore)

theorem exec (h : SnapshotsListed s.view) (hat : o.At s.ctl) : SnapshotsListed (s.view.exec o c) := by
  have hphase : (s.view.exec o c).ctl.phase = s.view.nextPhase o := View.exec_phase ..
  have htrace : (s.view.exec o c).trace = (s.view.noted o c).toList ++ s.view.trace :=
    View.exec_trace ..
  by_cases hreset : o = .resetScan
  · subst hreset
    have hnext : ∀ devs, (s.view.exec .resetScan c).ctl.phase ≠ .copied devs := by
      intro devs hph
      rw [hphase] at hph
      rcases hat.1 with hq | hq <;> simp [View.nextPhase, Sys.view, hq, Phase.clearScan] at hph
    exact ⟨fun _ hshown => (by cases hshown), fun devs hph => absurd hph (hnext devs),
      fun devs hph => absurd hph (hnext devs)⟩
  by_cases hshow : ∃ devs, o = .onScanUpdated devs
  · obtain ⟨devs, rfl⟩ := hshow
    have hq : s.view.ctl.phase = .copied devs := congrArg Ctl.phase hat
    have hnext : ∀ devs', (s.view.exec (.onScanUpdated devs) c).ctl.phase ≠ .copied devs' :=
      fun _ hph => by cases hph
    refine ⟨fun devs' hdevs' => ?_, fun _ hph => absurd hph (hnext _),
      fun _ hph => absurd hph (hnext _)⟩
    rw [htrace] at hdevs'
    simp only [View.noted] at hdevs'
    split at hdevs'
    · obtain rfl := Option.some.inj hdevs'
      exact h.copied devs hq
    · exact h.shown devs' hdevs'
  have hquiet : ∀ obs ∈ (s.view.noted o c).toList, obs.isReset = false ∧ obs.snapshot? = none := by
    intro obs hobs
    have hnoted := View.noted_origin (Option.mem_toList.mp hobs)
    cases obs with
    | scanReset => exact absurd hnoted hreset
    | scanUpdated devs => exact absurd ⟨devs, hnoted⟩ hshow
    | _ => exact ⟨rfl, rfl⟩
  have hsnapshot : lastSnapshot (s.view.exec o c).trace = lastSnapshot s.view.trace := by
    rw [htrace, lastSnapshot_append hquiet]
  have hscan : (s.view.exec o c).kbd.scanDevs = s.view.kbd.scanDevs := by
    rw [View.exec_scanDevs]
    cases o <;> first | rfl | exact absurd rfl hreset
  by_cases hcopy : o = .copyScan
  · subst hcopy
    refine ⟨h.shown, fun devs hph => ?_, fun devs hph before hbefore => ?_⟩
    · cases hph
      exact List.prefix_rfl
    · cases hph
      exact h.shown before hbefore
  · refine h.of_frame hsnapshot (hscan ▸ List.prefix_rfl) fun devs hph => ?_
    rw [hphase] at hph
    exact (hph ▸ View.phaseStep (v := s.view) hat).copied_cases.resolve_right fun hcopied =>
      hcopy hcopied.1

theorem effect {e : Event} (h : SnapshotsListed v) (heff : View.Effect e v v') :
    SnapshotsListed v' := by
  obtain ⟨l, hl, hall⟩ := heff.records
  refine h.of_frame ?_ ?_ fun devs hph => heff.ctl ▸ hph
  · rw [hl]
    refine lastSnapshot_append fun o ho => ?_
    have hby := hall o ho
    cases o <;> first | exact ⟨rfl, rfl⟩ | exact hby.elim
  · rw [heff.scanDevs]
    split
    · exact ScanDevs.fixed_collect ..
    · exact List.prefix_rfl

end SnapshotsListed

theorem snapshotsListed {g : Guard Op Choice Sys Event} {cfg : KbdConfig}
    {bonds : List (Bda × UInt8)} {c : HostConfig} (h : Reach host g (boot cfg bonds) c) :
    SnapshotsListed c.state.view := by
  refine reach_keeps (I := fun s => SnapshotsListed s.view) h ⟨nofun, nofun, nofun⟩ ?_ ?_
  · intro o ch s hinv _ _ _ hat
    rw [exec_view]
    exact hinv.exec hat
  · exact fun e s s' hinv _ _ hstep => hinv.effect (eventStep_view hstep)

/-! ## Snapshots of the past -/

/-- What is shown is part of the list. -/
def ShowsList : Obs → List Obs → Prop
  | .scanUpdated devs, past => devs.map ScanDev.fixed <+: (listed past).fixed
  | _, _ => True

theorem showsList {g : Guard Op Choice Sys Event} {cfg : KbdConfig} {bonds : List (Bda × UInt8)}
    {c : HostConfig} (h : Reach host g (boot cfg bonds) c) : Obeys ShowsList c.state.trace := by
  refine reach_keeps_of_known
    (J := fun s => SnapshotsListed s.view ∧ s.view.kbd.scanDevs = listed s.view.trace)
    (I := fun s => Obeys ShowsList s.view.trace) h
    (fun _ h => ⟨snapshotsListed h, scanDevs_eq_listed h⟩) obeys_nil ?_ ?_
  · intro o ch s hknown hinv _ _ _ hat
    rw [exec_view, View.exec_trace]
    cases hnoted : s.view.noted o ch with
    | none => exact hinv
    | some obs =>
      refine obeys_cons.mpr ⟨?_, hinv⟩
      cases obs with
      | scanUpdated devs =>
        obtain rfl : o = .onScanUpdated devs := View.noted_origin hnoted
        have hcopied := hknown.1.copied devs (congrArg Ctl.phase hat)
        rwa [hknown.2] at hcopied
      | _ => trivial
  · intro e s s' _ hinv _ _ hstep
    obtain ⟨l, hl, hall⟩ := (eventStep_view hstep).records
    rw [hl]
    refine hinv.append fun o ho past => ?_
    have hby := hall o ho
    cases o <;> trivial

/-- The last snapshot is part of the list. -/
theorem lastSnapshot_isPrefix {trace : List Obs} (h : Obeys ShowsList trace) :
    ∀ devs ∈ lastSnapshot trace, devs.map ScanDev.fixed <+: (listed trace).fixed := by
  induction trace with
  | nil => exact nofun
  | cons o trace ih =>
    obtain ⟨hrule, hpast⟩ := obeys_cons.mp h
    intro devs hdevs
    cases o with
    | scanReset => cases hdevs
    | scanUpdated devs' =>
      obtain rfl := Option.some.inj hdevs
      exact hrule
    | advertised d => exact (ih hpast devs hdevs).trans (ScanDevs.fixed_collect ..)
    | _ => exact ih hpast devs hdevs

end BleKbdHost.Host
