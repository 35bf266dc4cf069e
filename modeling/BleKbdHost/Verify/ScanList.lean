import BleKbdHost.Host.Scan

/-!
# What the scan list represents

The entries against the advertising reports since the list was last emptied: which addresses there
are, with which names and signal strengths, which are missing, and how the snapshots given to the
application continue each other.
-/

namespace BleKbdHost.Host

open Hid Keys Conc

/-! ## The property -/

def Obs.sighting? : Obs → Option AdvReport
  | .advertised d => if d.counts then some d else none
  | _ => none

/-- The named connectable advertisements since the last reset, newest first. -/
def sightings (trace : List Obs) : List AdvReport :=
  (since Obs.isReset trace).filterMap Obs.sighting?

def firstSighting (seen : List AdvReport) (addr : Bda) : Option AdvReport :=
  seen.reverse.find? (·.addr == addr)

def lastSighting (seen : List AdvReport) (addr : Bda) : Option AdvReport :=
  seen.find? (·.addr == addr)

/-- What the list says about the advertisements `seen`, newest first. -/
structure Represents (scan : ScanDevs) (seen : List AdvReport) : Prop where
  bounded : scan.devs.length ≤ 8
  distinct : scan.addrs.Nodup
  named : ∀ dev ∈ scan.devs, ∃ d name, firstSighting seen dev.addr = some d ∧
    d.name = some name ∧ dev.name = name.take 32 ++ [0] ∧ dev.addrType = d.addrType
  rssi : ∀ dev ∈ scan.devs, (lastSighting seen dev.addr).map (·.rssi) = some dev.rssi
  missing : ∀ newer d older, seen = newer ++ d :: older → d.addr ∉ scan.addrs →
    scan.devs.length = 8 ∧ ∀ addr ∈ scan.addrs, addr ∈ older.map (·.addr)

/-- A snapshot extends the one before it, if the list was not emptied in between. -/
def SnapshotExtends : Obs → List Obs → Prop
  | .scanUpdated devs, past =>
    ∀ before ∈ lastSnapshot past, before.map (·.addr) <+: devs.map (·.addr)
  | _, _ => True

structure ScanListCorrect (g : Guard Op Choice Sys Event) (c : HostConfig) : Prop where
  represents : Represents c.state.kbd.scanDevs (sightings c.state.trace)
  snapshots : Obeys SnapshotExtends c.state.trace
  grows : ∀ c', Reach host g c c' → c'.state.trace.count .scanReset = c.state.trace.count .scanReset →
    c.state.kbd.scanDevs.fixed <+: c'.state.kbd.scanDevs.fixed

/-! ## One advertisement -/

theorem firstSighting_cons_of_some {seen : List AdvReport} {addr : Bda} {d₀ : AdvReport}
    (h : firstSighting seen addr = some d₀) (d : AdvReport) :
    firstSighting (d :: seen) addr = some d₀ := by
  unfold firstSighting at h ⊢
  rw [List.reverse_cons, List.find?_append, h]
  rfl

theorem firstSighting_cons_of_new {seen : List AdvReport} {d : AdvReport}
    (h : d.addr ∉ seen.map (·.addr)) : firstSighting (d :: seen) d.addr = some d := by
  have hnone : seen.reverse.find? (·.addr == d.addr) = none := by
    refine List.find?_eq_none.mpr fun d' hd' heq => h ?_
    exact List.mem_map.mpr ⟨d', List.mem_reverse.mp hd', beq_iff_eq.mp heq⟩
  unfold firstSighting
  rw [List.reverse_cons, List.find?_append, hnone]
  simp

theorem lastSighting_cons_self (d : AdvReport) (seen : List AdvReport) :
    lastSighting (d :: seen) d.addr = some d :=
  List.find?_cons_of_pos (beq_self_eq_true _)

theorem lastSighting_cons_of_ne {d : AdvReport} {addr : Bda} (h : d.addr ≠ addr)
    (seen : List AdvReport) : lastSighting (d :: seen) addr = lastSighting seen addr :=
  List.find?_cons_of_neg (by simpa using h)

namespace Represents

variable {scan scan' : ScanDevs} {seen : List AdvReport} {d : AdvReport}

theorem empty : Represents .empty [] where
  bounded := Nat.zero_le 8
  distinct := List.nodup_nil
  named := nofun
  rssi := nofun
  missing newer d older h := by simp at h

/-- A listed address was advertised. -/
theorem sighted (h : Represents scan seen) {addr : Bda} (hmem : addr ∈ scan.addrs) :
    addr ∈ seen.map (·.addr) := by
  obtain ⟨dev, hdev, rfl⟩ := List.mem_map.mp hmem
  obtain ⟨d, name, hfirst, -⟩ := h.named dev hdev
  have haddr : d.addr = dev.addr := by simpa using List.find?_some hfirst
  exact List.mem_map.mpr ⟨d, List.mem_reverse.mp (List.mem_of_find?_eq_some hfirst), haddr⟩

/-- While there is room, every advertised address is listed. -/
theorem unsighted (h : Represents scan seen) (hroom : scan.devs.length < 8) (hnew : d.addr ∉ scan.addrs) :
    d.addr ∉ seen.map (·.addr) := by
  intro hmem
  obtain ⟨d', hd', haddr⟩ := List.mem_map.mp hmem
  obtain ⟨newer, older, hsplit⟩ := List.append_of_mem hd'
  have hfull := (h.missing newer d' older hsplit (haddr ▸ hnew)).1
  omega

/-- A report from an address that is listed, or that finds the list full, adds no gap. -/
theorem missing_cons (h : Represents scan seen) (haddrs : scan'.addrs = scan.addrs)
    (hlength : scan'.devs.length = scan.devs.length)
    (hd : d.addr ∉ scan.addrs → scan.devs.length = 8) (newer : List AdvReport) (d₀ : AdvReport)
    (older : List AdvReport) (hsplit : d :: seen = newer ++ d₀ :: older)
    (hmissing : d₀.addr ∉ scan'.addrs) :
    scan'.devs.length = 8 ∧ ∀ addr ∈ scan'.addrs, addr ∈ older.map (·.addr) := by
  rw [haddrs] at hmissing ⊢
  rw [hlength]
  cases newer with
  | nil =>
    obtain ⟨rfl, rfl⟩ := List.cons.inj hsplit
    exact ⟨hd hmissing, fun addr => h.sighted⟩
  | cons d₁ newer =>
    obtain ⟨-, hseen⟩ := List.cons.inj hsplit
    exact h.missing newer d₀ older hseen hmissing

theorem refreshed (h : Represents scan seen) (hlisted : d.addr ∈ scan.addrs)
    (hdevs : scan'.devs = scan.devs.map (ScanDevs.refresh d)) : Represents scan' (d :: seen) := by
  have haddrs : scan'.addrs = scan.addrs := by
    rw [ScanDevs.addrs, hdevs, List.map_map, ScanDevs.addrs]
    exact List.map_congr_left fun dev _ => ScanDevs.refresh_addr d dev
  have hlength : scan'.devs.length = scan.devs.length := by rw [hdevs, List.length_map]
  constructor
  · exact scan'.bounded
  · exact haddrs ▸ h.distinct
  · intro dev' hdev'
    obtain ⟨dev, hdev, rfl⟩ := List.mem_map.mp (hdevs ▸ hdev')
    obtain ⟨d₀, name, hfirst, hname⟩ := h.named dev hdev
    refine ⟨d₀, name, ?_, by simpa using hname⟩
    rw [ScanDevs.refresh_addr]
    exact firstSighting_cons_of_some hfirst d
  · intro dev' hdev'
    obtain ⟨dev, hdev, rfl⟩ := List.mem_map.mp (hdevs ▸ hdev')
    rw [ScanDevs.refresh_addr]
    by_cases haddr : dev.addr = d.addr
    · rw [haddr, lastSighting_cons_self, ScanDevs.refresh, if_pos haddr]
      rfl
    · rw [lastSighting_cons_of_ne (Ne.symm haddr), ScanDevs.refresh, if_neg haddr]
      exact h.rssi dev hdev
  · exact h.missing_cons haddrs hlength fun hnew => absurd hlisted hnew

theorem added (h : Represents scan seen) {name : List UInt8} (hname : d.name = some name)
    (hnew : d.addr ∉ scan.addrs) (hroom : scan.devs.length < 8)
    (hdevs : scan'.devs = scan.devs ++ [⟨d.addr, d.addrType, name.take 32 ++ [0], d.rssi⟩]) :
    Represents scan' (d :: seen) := by
  have haddrs : scan'.addrs = scan.addrs ++ [d.addr] := by
    rw [ScanDevs.addrs, hdevs, List.map_append, ScanDevs.addrs]
    rfl
  have hold : ∀ dev ∈ scan.devs, d.addr ≠ dev.addr := fun dev hdev heq =>
    hnew (heq ▸ List.mem_map_of_mem hdev)
  constructor
  · exact scan'.bounded
  · rw [haddrs]
    refine List.nodup_append.mpr ⟨h.distinct, by simp, fun a ha b hb hab => hnew ?_⟩
    rwa [← List.mem_singleton.mp hb, ← hab]
  · intro dev hdev
    rw [hdevs] at hdev
    rcases List.mem_append.mp hdev with hdev | hdev
    · obtain ⟨d₀, name₀, hfirst, hrest⟩ := h.named dev hdev
      exact ⟨d₀, name₀, firstSighting_cons_of_some hfirst d, hrest⟩
    · rw [List.mem_singleton.mp hdev]
      exact ⟨d, name, firstSighting_cons_of_new (h.unsighted hroom hnew), hname, rfl, rfl⟩
  · intro dev hdev
    rw [hdevs] at hdev
    rcases List.mem_append.mp hdev with hdev | hdev
    · rw [lastSighting_cons_of_ne (hold dev hdev)]
      exact h.rssi dev hdev
    · rw [List.mem_singleton.mp hdev, lastSighting_cons_self]
      rfl
  · intro newer d₀ older hsplit hmissing
    rw [haddrs] at hmissing
    cases newer with
    | nil =>
      obtain ⟨rfl, -⟩ := List.cons.inj hsplit
      exact absurd (List.mem_append_right _ (List.mem_singleton.mpr rfl)) hmissing
    | cons d₁ newer =>
      obtain ⟨-, hseen⟩ := List.cons.inj hsplit
      have hfull := (h.missing newer d₀ older hseen fun hmem =>
        hmissing (List.mem_append_left _ hmem)).1
      omega

theorem full (h : Represents scan seen) (hfull : scan.devs.length = 8)
    (hnew : d.addr ∉ scan.addrs) : Represents scan (d :: seen) := by
  have hold : ∀ dev ∈ scan.devs, d.addr ≠ dev.addr := fun dev hdev heq =>
    hnew (heq ▸ List.mem_map_of_mem hdev)
  constructor
  · exact h.bounded
  · exact h.distinct
  · intro dev hdev
    obtain ⟨d₀, name, hfirst, hrest⟩ := h.named dev hdev
    exact ⟨d₀, name, firstSighting_cons_of_some hfirst d, hrest⟩
  · intro dev hdev
    rw [lastSighting_cons_of_ne (hold dev hdev)]
    exact h.rssi dev hdev
  · exact h.missing_cons rfl rfl fun _ => hfull

/-- **The scan callback keeps the representation.** -/
theorem collect (h : Represents scan seen) (d : AdvReport) :
    Represents (scan.collect d) (if d.counts then d :: seen else seen) := by
  cases scan.collect_cases d with
  | ignored hcounts hsame =>
    rw [hsame, if_neg (by simp [hcounts])]
    exact h
  | refreshed hcounts hlisted hdevs =>
    rw [if_pos hcounts]
    exact h.refreshed hlisted hdevs
  | added name hcounts hname hnew hroom hdevs =>
    rw [if_pos hcounts]
    exact h.added hname hnew hroom hdevs
  | full hcounts hnew hfull hsame =>
    rw [if_pos hcounts, hsame]
    exact h.full hfull hnew

end Represents

/-- **The list of any trace represents its advertisements.** -/
theorem represents_listed (trace : List Obs) : Represents (listed trace) (sightings trace) := by
  induction trace with
  | nil => exact .empty
  | cons o trace ih =>
    cases o with
    | scanReset => exact .empty
    | advertised d =>
      have hstep := ih.collect d
      by_cases hcounts : d.counts = true <;>
        simpa [listed, sightings, since, Obs.isReset, Obs.sighting?, hcounts] using hstep
    | _ => exact ih

/-! ## Snapshots -/

theorem addrs_prefix {before devs : List ScanDev}
    (h : before.map ScanDev.fixed <+: devs.map ScanDev.fixed) :
    before.map (·.addr) <+: devs.map (·.addr) := by
  have hfst : ∀ l : List ScanDev, l.map (·.addr) = (l.map ScanDev.fixed).map Prod.fst := by
    intro l
    rw [List.map_map]
    rfl
  rw [hfst, hfst]
  exact h.map _

theorem snapshotExtends_exec {s : Sys} {o : Op} {c : Choice} (hlisted : SnapshotsListed s.view)
    (h : Obeys SnapshotExtends s.view.trace) (hat : o.At s.ctl) :
    Obeys SnapshotExtends (s.view.exec o c).trace := by
  rw [View.exec_trace]
  cases hnoted : s.view.noted o c with
  | none => exact h
  | some obs =>
    refine obeys_cons.mpr ⟨?_, h⟩
    cases obs with
    | scanUpdated devs =>
      obtain rfl : o = .onScanUpdated devs := View.noted_origin hnoted
      exact fun before hbefore =>
        addrs_prefix (hlisted.next devs (congrArg Ctl.phase hat) before hbefore)
    | _ => trivial

theorem snapshotExtends_effect {e : Event} {v v' : View} (h : Obeys SnapshotExtends v.trace)
    (heff : View.Effect e v v') : Obeys SnapshotExtends v'.trace := by
  obtain ⟨l, hl, hall⟩ := heff.records
  rw [hl]
  refine h.append fun o ho past => ?_
  have hby := hall o ho
  cases o <;> trivial

theorem snapshotExtends {g : Guard Op Choice Sys Event} {cfg : KbdConfig}
    {bonds : List (Bda × UInt8)} {c : HostConfig} (h : Reach host g (boot cfg bonds) c) :
    Obeys SnapshotExtends c.state.trace := by
  refine reach_keeps_of_known (J := fun s => SnapshotsListed s.view)
    (I := fun s => Obeys SnapshotExtends s.view.trace) h (fun _ => snapshotsListed) obeys_nil ?_ ?_
  · intro o ch s hlisted hinv _ _ _ hat
    rw [exec_view]
    exact snapshotExtends_exec hlisted hinv hat
  · exact fun e s s' _ hinv _ _ hstep => snapshotExtends_effect hinv (eventStep_view hstep)

/-! ## The result -/

/-- **The scan list is correct** in every state of every run. -/
theorem scanListCorrect {g : Guard Op Choice Sys Event} {cfg : KbdConfig}
    {bonds : List (Bda × UInt8)} {c : HostConfig} (h : Reach host g (boot cfg bonds) c) :
    ScanListCorrect g c where
  represents := by
    rw [scanDevs_eq_listed h]
    exact represents_listed _
  snapshots := snapshotExtends h
  grows c' h' hresets := by
    obtain ⟨l, hl⟩ := trace_suffix h'
    have hnone : .scanReset ∉ l := by
      rw [← hl, List.count_append] at hresets
      exact List.count_eq_zero.mp (by omega)
    rw [scanDevs_eq_listed h, scanDevs_eq_listed (h.trans h'), ← hl]
    exact fixed_listed_prefix hnone

/-- A device with a long name is found, shown, and found again. -/
theorem scanListCorrect_found : ∃ c, host.run .free (mains 16 ++
    [.env (.advertised ⟨advInd, some (List.replicate 40 65), 7, 0, -40⟩)] ++ mains 2 ++
    [.env (.tick 50)] ++ mains 10 ++ [.env (.advertised ⟨advInd, some [66], 7, 0, -30⟩)])
      (boot {} []) = some c ∧
      (lastSnapshot c.state.trace).map List.length = some 1 ∧
      c.state.kbd.scanDevs.devs = [⟨7, 0, List.replicate 32 65 ++ [0], -30⟩] ∧
      ScanListCorrect .free c := by
  obtain ⟨c, hrun, hdevs⟩ := exists_run .free (mains 16 ++
    [.env (.advertised ⟨advInd, some (List.replicate 40 65), 7, 0, -40⟩)] ++ mains 2 ++
    [.env (.tick 50)] ++ mains 10 ++ [.env (.advertised ⟨advInd, some [66], 7, 0, -30⟩)]) (boot {} [])
    (fun c => (lastSnapshot c.state.trace).map List.length == some 1 &&
      c.state.kbd.scanDevs.devs == [⟨7, 0, List.replicate 32 65 ++ [0], -30⟩])
    (by decide +kernel)
  rw [Bool.and_eq_true, beq_iff_eq, beq_iff_eq] at hdevs
  exact ⟨c, hrun, hdevs.1, hdevs.2, scanListCorrect (Reach.of_run hrun)⟩

end BleKbdHost.Host
