import BleKbdHost.Conc.Collection
import BleKbdHost.Host.Devices

/-!
# What discovery collects

The three result arrays of `read_device_services`, their counters, and the log of discovery. The
services, the characteristics of a service and the descriptors of a characteristic are collected
alike; each request of the main task begins such a collection, and only the callbacks of that request
add to it.
-/

namespace BleKbdHost.Host

open Hid Keys Conc

/-! ## The collections -/

namespace DiscObs

def svcStep? : DiscObs → Option (CollectStep GattSvc)
  | .svcsRequested => some .requested
  | .svcReported svc => some (.reported svc)
  | .svcProcessed svc => some (.processed svc)
  | .svcsDone => some .done
  | _ => none

def chrStep? : DiscObs → Option (CollectStep GattChr)
  | .chrsRequested => some .requested
  | .chrReported chr => some (.reported chr)
  | .chrProcessed chr => some (.processed chr)
  | .chrsDone => some .done
  | _ => none

def dscStep? : DiscObs → Option (CollectStep GattDsc)
  | .dscsRequested => some .requested
  | .dscReported dsc => some (.reported dsc)
  | .dscProcessed dsc => some (.processed dsc)
  | .dscsDone => some .done
  | _ => none

end DiscObs

/-- The result arrays and their counters, with the log. -/
structure Search where
  serviceResult : List (Option GattSvc)
  servicesDiscovered : Nat
  charResult : List (Option GattChr)
  chrsDiscovered : Nat
  descrResult : List (Option GattDsc)
  dscsDiscovered : Nat
  log : List DiscObs

def Sys.search (s : Sys) : Search where
  serviceResult := s.nimble.serviceResult
  servicesDiscovered := s.nimble.servicesDiscovered
  charResult := s.nimble.charResult
  chrsDiscovered := s.nimble.chrsDiscovered
  descrResult := s.nimble.descrResult
  dscsDiscovered := s.nimble.dscsDiscovered
  log := s.discLog

namespace Search

def svcs (r : Search) : Collection GattSvc :=
  ⟨r.serviceResult, r.servicesDiscovered, r.log.filterMap DiscObs.svcStep?⟩

def chrs (r : Search) : Collection GattChr :=
  ⟨r.charResult, r.chrsDiscovered, r.log.filterMap DiscObs.chrStep?⟩

def dscs (r : Search) : Collection GattDsc :=
  ⟨r.descrResult, r.dscsDiscovered, r.log.filterMap DiscObs.dscStep?⟩

/-- There is room for what the callback of a request brings. -/
def Fits (r : Search) : GattReq → GattRsp → Prop
  | .services _, .svc _ => r.svcs.count < r.svcs.slots.length
  | .chrs _ _ _, .chr _ => r.chrs.count < r.chrs.slots.length
  | .dscs _ _ _, .dsc _ => r.dscs.count < r.dscs.slots.length
  | _, _ => True

/-- What the callback of a request does. -/
def answer (r : Search) : GattReq → GattRsp → Search
  | .services _, .svc svc =>
    { r with
      serviceResult := r.serviceResult.set r.servicesDiscovered (some svc)
      servicesDiscovered := r.servicesDiscovered + 1
      log := .svcReported svc :: r.log }
  | .chrs _ _ _, .chr chr =>
    { r with
      charResult := r.charResult.set r.chrsDiscovered (some chr)
      chrsDiscovered := r.chrsDiscovered + 1
      log := .chrReported chr :: r.log }
  | .dscs _ _ _, .dsc dsc =>
    { r with
      descrResult := r.descrResult.set r.dscsDiscovered (some dsc)
      dscsDiscovered := r.dscsDiscovered + 1
      log := .dscReported dsc :: r.log }
  | _, _ => r

theorem answer_of_terminal (r : Search) (req : GattReq) {rsp : GattRsp} (h : rsp.terminal = true) :
    r.answer req rsp = r := by
  cases rsp with
  | done | error _ => cases req <;> rfl
  | svc _ | chr _ | dsc _ | data _ => cases h

end Search

/-! ## Operations -/

/-- The operations that request, read, or are done with, a collection. -/
def Op.collects : Op → Bool
  | .discAllSvcs _ | .discAllChrs _ _ _ | .discAllDscs _ _ _ | .readSvc _ | .readChr _
  | .readDefHandle _ | .readDsc _ | .svcsDone | .resetChrs | .resetDscs => true
  | _ => false

theorem absorb_search {α : Type} {s : Sys} {r : Except Fault α} {f : α → Sys}
    (h : ∀ a, (f a).search = s.search) : (s.absorb r f).search = s.search := by
  cases r with
  | ok a => exact h a
  | error _ => rfl

/-- **The other operations leave the collections.** -/
theorem exec_search {o : Op} (c : Choice) (s : Sys) (ho : o.collects = false) :
    (o.exec c s).search = s.search := by
  cases o with
  | setField d field =>
    rcases exec_setField_cases s d field c with ⟨fault, hexec⟩ | ⟨_, _, -, -, hexec⟩ <;> rw [hexec] <;>
      rfl
  | readReportMap _ _ => exact absorb_search fun _ => rfl
  | freeBuf buf => cases buf <;> rfl
  | parseReportMap buf =>
    cases buf with
    | none => rfl
    | some buf =>
      simp only [Op.exec]
      split
      · rfl
      · exact absorb_search fun _ => rfl
  | awaitDisconnect _ _ | peekCmd _ | emitKey _ | gapDisc | reconnectReturns _ | assertStatus
  | readConnId _ _ | devMalloc _ _ | mallocReportMaps _ | mallocProtocolMode _ =>
    simp only [Op.exec]
    split <;> rfl
  | gapConnect kind d =>
    simp only [Op.exec]
    split
    · rfl
    · split <;> rfl
  | discAllSvcs _ | discAllChrs _ _ _ | discAllDscs _ _ _ | readSvc _ | readChr _ | readDefHandle _
  | readDsc _ | svcsDone | resetChrs | resetDscs => cases ho
  | _ => rfl

/-! ## Events -/

theorem svcDisced_search {s : Sys} (conn : UInt16) (svc : GattSvc)
    (hfits : s.search.Fits (.services conn) (.svc svc)) :
    (svcDisced s conn svc).search = s.search.answer (.services conn) (.svc svc) := by
  rcases svcDisced_cases s conn svc with ⟨hfull, -⟩ | ⟨-, hnimble, hlog, -⟩
  · exact absurd hfits (Nat.not_lt_of_le hfull)
  · rw [Sys.search, hnimble, hlog]
    rfl

/-- **A GATT callback adds to the collection of its request.** -/
theorem gattCb_search {s s' : Sys} {i : Nat} {rsp : GattRsp} (h : gattCb s i rsp = some s')
    (hfits : ∀ req, s.radio.gatt[i]? = some req → s.search.Fits req rsp) :
    ∃ req, s.radio.gatt[i]? = some req ∧ s'.search = s.search.answer req rsp := by
  cases gattCb_cases h with
  | svc svc hreq => exact ⟨_, hreq, svcDisced_search _ svc (hfits _ hreq)⟩
  | chr chr hreq =>
    refine ⟨_, hreq, ?_⟩
    have hroom : s.nimble.chrsDiscovered < s.nimble.charResult.length := hfits _ hreq
    rw [chrDisced, Sys.store, if_pos hroom]
    rfl
  | dsc dsc hreq =>
    refine ⟨_, hreq, ?_⟩
    have hroom : s.nimble.dscsDiscovered < s.nimble.descrResult.length := hfits _ hreq
    rw [descDisced, Sys.store, if_pos hroom]
    rfl
  | found hreq _ | lost hreq _ _ | unread hreq _ =>
    exact ⟨_, hreq, (s.search.answer_of_terminal _ rfl).symm⟩
  | data bytes hreq =>
    refine ⟨_, hreq, ?_⟩
    simp only [onReadData]
    split <;> rfl
  | read hreq =>
    refine ⟨_, hreq, ?_⟩
    unfold onReadDone
    split <;> rfl
  | written hreq hrsp =>
    refine ⟨_, hreq, ?_⟩
    rw [s.search.answer_of_terminal _ hrsp]
    unfold onWrite
    split <;> rfl

/-- The other events leave the collections. -/
theorem eventStep_search {e : Event} {s s' : Sys} (h : eventStep e s = some s')
    (he : ∀ i rsp, e ≠ .gattCb i rsp) : s'.search = s.search := by
  obtain ⟨hcore, hlog, -⟩ := eventStep_core h he
  have hsearch : ∀ s : Sys, s.search =
      { s.search with
        serviceResult := s.nimble.core.serviceResult
        servicesDiscovered := s.nimble.core.servicesDiscovered
        charResult := s.nimble.core.charResult
        chrsDiscovered := s.nimble.core.chrsDiscovered
        descrResult := s.nimble.core.descrResult
        dscsDiscovered := s.nimble.core.dscsDiscovered
        log := s.discLog } := fun _ => rfl
  rw [hsearch s', hcore, hlog]
  rfl

/-! ## The log -/

/-- An attribute that the peer reported. -/
def DiscObs.reports : DiscObs → Bool
  | .svcReported _ | .chrReported _ | .dscReported _ => true
  | _ => false

/-- **Events only add what the peer reports.** -/
theorem eventStep_discLog {e : Event} {s s' : Sys} (h : eventStep e s = some s') :
    ∃ l, s'.discLog = l ++ s.discLog ∧ ∀ o ∈ l, o.reports = true := by
  have hone : ∀ o : DiscObs, o.reports = true → s'.discLog = o :: s.discLog →
      ∃ l, s'.discLog = l ++ s.discLog ∧ ∀ o ∈ l, o.reports = true :=
    fun o ho hlog => ⟨[o], hlog, by simpa using ho⟩
  have hsame : s'.discLog = s.discLog → ∃ l, s'.discLog = l ++ s.discLog ∧
      ∀ o ∈ l, o.reports = true := fun hlog => ⟨[], hlog, by simp⟩
  by_cases he : ∃ i rsp, e = .gattCb i rsp
  · obtain ⟨i, rsp, rfl⟩ := he
    cases gattCb_cases h with
    | @svc conn svc hreq =>
      refine hone (.svcReported svc) rfl ?_
      rcases svcDisced_cases s conn svc with ⟨-, hfail⟩ | ⟨-, -, hlog, -⟩
      · rw [hfail]
        rfl
      · exact hlog
    | chr chr _ =>
      exact hone (.chrReported chr) rfl
        (Sys.store_of (P := fun s' => s'.discLog = _) rfl fun _ => rfl)
    | dsc dsc _ =>
      exact hone (.dscReported dsc) rfl
        (Sys.store_of (P := fun s' => s'.discLog = _) rfl fun _ => rfl)
    | found _ _ | lost _ _ _ | unread _ _ => exact hsame rfl
    | data bytes _ =>
      refine hsame ?_
      simp only [onReadData]
      split <;> rfl
    | read _ =>
      refine hsame ?_
      unfold onReadDone
      split <;> rfl
    | written _ _ =>
      refine hsame ?_
      unfold onWrite
      split <;> rfl
  · exact hsame (eventStep_core h fun i rsp heq => he ⟨i, rsp, heq⟩).2.1

/-- Beginning and end of a discovery. -/
def DiscObs.bounds : DiscObs → Bool
  | .svcsRequested | .svcsDone => true
  | _ => false

/-- The latest discovery came to its end. -/
def Completed (log : List DiscObs) : Prop := log.find? DiscObs.bounds = some .svcsDone

theorem completed_append {l log : List DiscObs} (h : Completed log)
    (hl : ∀ o ∈ l, o.reports = true) : Completed (l ++ log) := by
  have hnone : l.find? DiscObs.bounds = none := by
    refine List.find?_eq_none.mpr fun o ho => ?_
    have hreports := hl o ho
    cases o with
    | svcReported _ | chrReported _ | dscReported _ => simp [DiscObs.bounds]
    | _ => cases hreports
  rw [Completed, List.find?_append, hnone, Option.none_or]
  exact h

/-! ## How far an open has come -/

/-- The device of an open whose discovery is over. -/
def Stage.finished? : Stage → Option DevId
  | .linked .open d .discovered | .marked .open d | .opened .open d => some d
  | _ => Option.none

/-- The allocations of discovery. -/
def Op.allocates : Op → Bool
  | .mallocReportMaps _ | .mallocProtocolMode _ | .mallocReport => true
  | _ => false

/-- An open whose discovery is over has completed it, unless it gave up; and then it waits for a
callback that does not come. -/
structure Session (s : Sys) : Prop where
  basics : Basics s
  completed : ∀ d, s.ctl.stage.finished? = some d → Completed s.discLog
  gaveUp : ∀ kind d, s.ctl.stage = .linked kind d .abandoned →
    s.ctl.awaiting = true ∧ s.waits.tokens = 0

namespace Session

variable {s s' : Sys} {o : Op} {c : Choice}

theorem boot (cfg : KbdConfig) (bonds : List (Bda × UInt8)) : Session (boot cfg bonds).state where
  basics := .boot cfg bonds
  completed _ h := by cases h
  gaveUp _ _ h := by cases h

/-- Discovery is over only behind the end of the service loop. -/
theorem finished_cases (h : Session s) (hat : o.At s.ctl) {d : DevId}
    (hd : (o.exec c s).ctl.stage.finished? = some d) :
    s.ctl.stage.finished? = some d ∧ o.collects = false ∨
      o = .svcsDone ∧ s.ctl.stage = .linked .open d .secured := by
  have hstage : (o.exec c s).ctl.stage = s.view.nextStage o c := by
    rw [exec_ctl, View.exec_stage]
  rw [hstage] at hd
  have hsearching : (∃ d', s.ctl.stage = .linked .open d' .secured) →
      s.ctl.stage.finished? ≠ some d := by
    rintro ⟨d', hst⟩
    rw [hst]
    exact fun hd => by cases hd
  cases o with
  | svcsDone =>
    obtain ⟨⟨d', hst⟩, -⟩ := hat
    have hst' : s.view.ctl.stage = .linked .open d' .secured := hst
    simp only [View.nextStage, hst', Stage.advance, Stage.finished?, Option.some.injEq] at hd
    subst hd
    exact .inr ⟨rfl, hst⟩
  | setConnected kind d' =>
    obtain ⟨⟨step, hst, hlast⟩, hawait⟩ := hat
    cases kind with
    | reconnect => cases hd
    | «open» =>
      cases hd
      rcases hlast with rfl | rfl
      · exact .inl ⟨by rw [hst]; rfl, rfl⟩
      · have hstuck := (h.gaveUp _ _ hst).1
        rw [hawait] at hstuck
        cases hstuck
  | postOpen kind d' =>
    cases kind with
    | reconnect => cases hd
    | «open» =>
      cases hd
      exact .inl ⟨by rw [hat.1]; rfl, rfl⟩
  | openCall site bda =>
    simp only [View.nextStage] at hd
    split at hd <;> cases hd
  | devMalloc bda addrType =>
    simp only [View.nextStage] at hd
    split at hd <;> cases hd
  | gapConnect kind d' =>
    have hst : s.view.ctl.stage = .begun kind d' := hat.1
    simp only [View.nextStage, hst] at hd
    split at hd
    · cases hd
    · split at hd <;> cases hd
  | readConnId kind d' =>
    have hst : s.view.ctl.stage = .connecting kind d' := hat.1
    simp only [View.nextStage, hst] at hd
    split at hd
    · cases hd
    · split at hd <;> cases kind <;> cases hd
  | securityInitiate d' | takeSec d' _ _ =>
    obtain ⟨⟨kind, hst⟩, -⟩ := hat
    have hst' : s.view.ctl.stage = .linked kind d' .fresh := hst
    simp only [View.nextStage, hst', Stage.advance] at hd
    cases kind <;> first | cases hd | (split at hd <;> cases hd)
  | discAllSvcs d' | mallocReportMaps d' | mallocProtocolMode d' =>
    have hst : s.view.ctl.stage = .linked .open d' .secured := hat.1
    simp only [View.nextStage, hst, Stage.advance] at hd
    split at hd <;> cases hd
  | mallocReport =>
    obtain ⟨⟨d', hst⟩, -⟩ := hat
    have hst' : s.view.ctl.stage = .linked .open d' .secured := hst
    simp only [View.nextStage, hst', Stage.advance] at hd
    split at hd <;> cases hd
  | discAllChrs d' _ _ | discAllDscs d' _ _ => exact absurd hd (hsearching ⟨d', hat.1⟩)
  | readSvc _ | readChr _ | readDefHandle _ | resetChrs | readDsc _ | resetDscs =>
    exact absurd hd (hsearching hat.1)
  | reconnectCall _ | devFree _ | openReturns _ | reconnectReturns _ => cases hd
  | _ => exact .inl ⟨hd, rfl⟩

theorem exec_gaveUp (h : Session s) (hready : o.ready s = true)
    (hmalloc : o.allocates = true → c.rc = 0) (hat : o.At s.ctl) {kind : CallKind} {d : DevId}
    (hst : (o.exec c s).ctl.stage = .linked kind d .abandoned) :
    (o.exec c s).ctl.awaiting = true ∧ (o.exec c s).waits.tokens = 0 := by
  have hstage : (o.exec c s).ctl.stage = s.view.nextStage o c := by
    rw [exec_ctl, View.exec_stage]
  rw [hstage] at hst
  have hstay : s.ctl.stage ≠ .linked kind d .abandoned := by
    intro hst'
    obtain ⟨hawait, htokens⟩ := h.gaveUp kind d hst'
    by_cases hwait : o = .waitCb
    · subst hwait
      have hgiven : s.nimble.cbSemaphore = true := hready
      simp [Waits.tokens, Sys.waits, hgiven] at htokens
    · rw [hat.awaiting_eq_false hwait] at hawait
      cases hawait
  cases o with
  | discAllSvcs d' =>
    have hst' : s.view.ctl.stage = .linked .open d' .secured := hat.1
    simp only [View.nextStage, hst', Stage.advance] at hst
    split at hst
    · cases hst
    · rename_i hrc
      refine ⟨rfl, ?_⟩
      rw [exec_waits, Sys.waitsAfter, tokens_request h.basics.tokens hat.2, beq_eq_false_iff_ne.mpr hrc]
      rfl
  | mallocReportMaps _ | mallocProtocolMode _ | mallocReport =>
    have hrc : c.rc = 0 := hmalloc rfl
    rw [View.nextStage, if_pos hrc] at hst
    exact absurd hst hstay
  | svcsDone =>
    obtain ⟨⟨d', hst'⟩, -⟩ := hat
    rw [View.nextStage, show s.view.ctl.stage = _ from hst'] at hst
    cases hst
  | securityInitiate d' | takeSec d' _ _ =>
    obtain ⟨⟨kind', hst'⟩, -⟩ := hat
    simp only [View.nextStage, show s.view.ctl.stage = _ from hst', Stage.advance] at hst
    first | cases hst | (split at hst <;> cases hst)
  | openCall site bda =>
    simp only [View.nextStage] at hst
    split at hst <;> cases hst
  | devMalloc bda addrType =>
    simp only [View.nextStage] at hst
    split at hst <;> cases hst
  | gapConnect kind' d' =>
    simp only [View.nextStage] at hst
    split at hst
    · exact absurd hst hstay
    · split at hst <;> cases hst
  | readConnId kind' d' =>
    simp only [View.nextStage] at hst
    split at hst
    · exact absurd hst hstay
    · split at hst <;> cases hst
  | reconnectCall _ | devFree _ | openReturns _ | reconnectReturns _ | setConnected _ _
  | postOpen _ _ => cases hst
  | _ => exact absurd hst hstay

/-- **An operation at its place keeps it**, where no allocation of discovery fails. -/
theorem exec (h : Session s) (hready : o.ready s = true) (hmalloc : o.allocates = true → c.rc = 0)
    (hat : o.At s.ctl) : Session (o.exec c s) where
  basics := h.basics.exec hready hat
  completed d hd := by
    rcases h.finished_cases hat hd with ⟨hd', ho⟩ | ⟨rfl, -⟩
    · have hlog : (o.exec c s).discLog = s.discLog := congrArg Search.log (exec_search c s ho)
      rw [hlog]
      exact h.completed d hd'
    · rfl
  gaveUp _ _ := h.exec_gaveUp hready hmalloc hat

/-- **So does an event.** -/
theorem event {e : Event} (h : Session s) (hstep : eventStep e s = some s') : Session s' := by
  have hctl := eventStep_ctl hstep
  refine ⟨h.basics.event hstep, ?_, ?_⟩
  · rw [hctl]
    intro d hd
    obtain ⟨l, hlog, hl⟩ := eventStep_discLog hstep
    rw [hlog]
    exact completed_append (h.completed d hd) hl
  · rw [hctl]
    intro kind d hst
    obtain ⟨hawait, htokens⟩ := h.gaveUp kind d hst
    exact ⟨hawait, Nat.eq_zero_of_le_zero (htokens ▸ (eventStep_waits hstep).tokens_le)⟩

/-- Discovery that gave up does not go on. -/
theorem not_gaveUp (h : Session s) {kind : CallKind} {d : DevId}
    (hstage : s.ctl.stage = .linked kind d .abandoned) (hawait : s.ctl.awaiting = false) : False := by
  have hstuck := (h.gaveUp kind d hstage).1
  rw [hawait] at hstuck
  cases hstuck

end Session

end BleKbdHost.Host
