import Mathlib.Data.List.DropRight
import BleKbdHost.Host.Connections
import BleKbdHost.Host.EventLog
import BleKbdHost.Host.Tokens

/-!
# Encrypted connections

Whether a connection is reported open, and keystrokes are accepted over it, only after its
encryption. The opener asks for security and goes on without it where the request is refused; where
it is not, it waits for `BLE_GAP_EVENT_ENC_CHANGE` on a semaphore that says nothing about the status
or the connection, and does not look at how the wait ended.
-/

namespace BleKbdHost.Host

open Hid Keys Conc

/-! ## The property -/

/-- The device's latest connection became encrypted while its link was up. -/
def Encrypted (d : DevId) (trace : List Obs) : Prop :=
  ∃ link, lastLink? d trace = some link ∧
    .encChange link.handle 0 ∈ (sinceLink d trace).rtakeWhile (· != .linkDown link)

/-- It became encrypted, or security was refused for it. -/
def Vouched (d : DevId) (trace : List Obs) : Prop :=
  Encrypted d trace ∨ .secured d true ∈ sinceLink d trace

/-- The opener is done with the security of the device's latest connection. -/
def SecurityOver (d : DevId) (trace : List Obs) : Prop :=
  ∃ refused, .secured d refused ∈ sinceLink d trace

/-- A connection is reported open, and notifications are accepted on a link once its security is
over, only where it is vouched for. -/
def SecurityRule : Obs → List Obs → Prop
  | .posted ⟨_, .open d status⟩, before => status = 0 → Vouched d before
  | .posted ⟨_, .input d _ _ _ _⟩, before =>
    (∃ link, HasLink d link before) ∧ (SecurityOver d before → Vouched d before)
  | _, _ => True

/-- The same without the exceptions: encryption comes first. -/
def EncryptionRule : Obs → List Obs → Prop
  | .posted ⟨_, .open d status⟩, before => status = 0 → Encrypted d before
  | .posted ⟨_, .input d _ _ _ _⟩, before => Encrypted d before
  | _, _ => True

/-! ## The condition -/

/-- The device of the call in progress, from its connection request to the end of security. -/
def Stage.pairing? : Stage → Option DevId
  | .connecting _ d | .linked _ d .fresh => some d
  | _ => Option.none

/-- Every wait for security ends by its event, which reports the encryption of the connection it was
asked for. -/
def attested : Guard Op Choice Sys Event where
  main o _ s :=
    match o with
    | .gapConnect _ _ => !s.nimble.secSemaphore
    | .takeSec _ _ _ => s.nimble.secSemaphore
    | _ => true
  env e s :=
    match e with
    | .encChange handle status =>
      match s.ctl.stage.pairing? with
      | some d => s.radio.connecting.isNone && status == 0 &&
          (s.getByConnId handle).any (·.id == d)
      | none => true
    | _ => true

/-! ## Growing traces -/

theorem mem_rtakeWhile_append {α : Type} {p : α → Bool} {a : α} {l : List α} (l' : List α)
    (h : a ∈ l.rtakeWhile p) : a ∈ (l' ++ l).rtakeWhile p := by
  rw [List.rtakeWhile, List.mem_reverse] at h ⊢
  rw [List.reverse_append, List.takeWhile_append]
  split
  · exact List.mem_append_left _ ((List.takeWhile_prefix p).subset h)
  · exact h

theorem Encrypted.append {d : DevId} {l trace : List Obs} (h : Encrypted d trace)
    (hl : ∀ o ∈ l, o.linkTo? d = none) : Encrypted d (l ++ trace) := by
  obtain ⟨link, hlast, hmem⟩ := h
  refine ⟨link, (lastLink?_append hl).trans hlast, ?_⟩
  rw [sinceLink_append hl]
  exact mem_rtakeWhile_append l hmem

theorem Vouched.append {d : DevId} {l trace : List Obs} (h : Vouched d trace)
    (hl : ∀ o ∈ l, o.linkTo? d = none) : Vouched d (l ++ trace) := by
  refine h.imp (·.append hl) fun hmem => ?_
  rw [sinceLink_append hl]
  exact List.mem_append_right _ hmem

/-- The encryption of a link that is up. -/
theorem HasLink.encrypted {d : DevId} {link : Link} {trace : List Obs} (h : HasLink d link trace) :
    Encrypted d (.encChange link.handle 0 :: trace) := by
  have hquiet : ∀ o ∈ [Obs.encChange link.handle 0], o.linkTo? d = none := by simp [Obs.linkTo?]
  refine ⟨link, (lastLink?_append (l := [_]) hquiet).trans h.last, ?_⟩
  have hsince : sinceLink d (.encChange link.handle 0 :: trace) =
      .encChange link.handle 0 :: sinceLink d trace := sinceLink_append (l := [_]) hquiet
  rw [hsince, List.rtakeWhile_eq_self_iff.mpr]
  · exact List.mem_cons_self
  · intro o ho
    rcases List.mem_cons.mp ho with rfl | ho
    · rfl
    · exact bne_iff_ne.mpr fun heq => h.up (heq ▸ ho)

/-! ## The invariant -/

/-- The device of the call in progress, from the end of security to its open event. -/
def Stage.vouched? : Stage → Option DevId
  | .linked _ _ .fresh => Option.none
  | .linked _ d _ | .marked _ d => some d
  | _ => Option.none

structure SecurityInv (v : View) : Prop where
  attempt : v.connecting.isSome = true → v.secSem = false ∧ ∃ kind d, v.ctl.stage = .connecting kind d
  pairing : ∀ d, v.ctl.stage.pairing? = some d → v.connecting = none → v.secSem = true →
    Encrypted d v.trace
  vouched : ∀ d, v.ctl.stage.vouched? = some d → Vouched d v.trace
  complete : ∀ d, SecurityOver d v.trace → Vouched d v.trace
  rule : Obeys SecurityRule v.trace

namespace SecurityInv

variable {v v' : View} {o : Op} {c : Choice}

/-- Happenings that the rule and the invariant do not speak of. -/
def silent : Obs → Bool
  | .posted ⟨_, .open _ _⟩ | .posted ⟨_, .input _ _ _ _ _⟩ | .secured _ _ | .linkUp _ _ => false
  | _ => true

theorem linkTo?_of_silent {l : List Obs} (h : ∀ obs ∈ l, silent obs = true) (d : DevId) :
    ∀ obs ∈ l, obs.linkTo? d = none := by
  intro obs hobs
  have hsilent := h obs hobs
  cases obs with
  | linkUp _ _ => cases hsilent
  | _ => rfl

theorem over_append {l trace : List Obs} (hl : ∀ d, ∀ obs ∈ l, obs.linkTo? d = none)
    (hsecured : ∀ d refused, .secured d refused ∉ l) (h : ∀ d, SecurityOver d trace → Vouched d trace)
    (d : DevId) (hover : SecurityOver d (l ++ trace)) : Vouched d (l ++ trace) := by
  obtain ⟨refused, hmem⟩ := hover
  rw [sinceLink_append (hl d)] at hmem
  have hmem := (List.mem_append.mp hmem).resolve_left (hsecured d refused)
  exact (h d ⟨refused, hmem⟩).append (hl d)

theorem rule_append {l trace : List Obs} (hl : ∀ obs ∈ l, silent obs = true)
    (h : Obeys SecurityRule trace) : Obeys SecurityRule (l ++ trace) := by
  refine h.append fun obs hobs before => ?_
  have hsilent := hl obs hobs
  cases obs with
  | posted p =>
    obtain ⟨seq, event⟩ := p
    cases event with
    | «open» _ _ | input _ _ _ _ _ => cases hsilent
    | _ => trivial
  | _ => trivial

/-- A step on which security does not depend. -/
theorem of_silent {l : List Obs} (h : SecurityInv v) (htrace : v'.trace = l ++ v.trace)
    (hl : ∀ obs ∈ l, silent obs = true)
    (hattempt : v'.connecting.isSome = true → v'.secSem = false ∧
      ∃ kind d, v'.ctl.stage = .connecting kind d)
    (hpairing : ∀ d, v'.ctl.stage.pairing? = some d → v'.connecting = none → v'.secSem = true →
      Encrypted d v.trace)
    (hvouched : ∀ d, v'.ctl.stage.vouched? = some d → Vouched d v.trace) : SecurityInv v' := by
  have hlinks := linkTo?_of_silent hl
  have hsecured : ∀ d refused, .secured d refused ∉ l := fun d refused hmem => by cases hl _ hmem
  constructor
  · exact hattempt
  · rw [htrace]
    exact fun d hst hnone hsem => (hpairing d hst hnone hsem).append (hlinks d)
  · rw [htrace]
    exact fun d hst => (hvouched d hst).append (hlinks d)
  · rw [htrace]
    exact over_append hlinks hsecured h.complete
  · rw [htrace]
    exact rule_append hl h.rule

/-! ### Operations -/

/-- The operations that record something about security, or post. -/
def secures : Op → Bool
  | .securityInitiate _ | .takeSec _ _ _ | .postOpen _ _ => true
  | _ => false

theorem silent_noted (h : secures o = false) :
    ∀ obs ∈ (v.noted o c).toList, silent obs = true := by
  intro obs hobs
  have hnoted := View.noted_origin (Option.mem_toList.mp hobs)
  cases obs with
  | posted p =>
    obtain ⟨kind, d, rfl, -⟩ := hnoted
    cases h
  | secured d refused =>
    cases refused with
    | false =>
      obtain ⟨since, ticks, rfl⟩ := hnoted
      cases h
    | true =>
      obtain rfl : o = .securityInitiate d := hnoted
      cases h
  | linkUp _ _ => exact hnoted.elim
  | _ => rfl

/-- An operation that does not connect or secure anything. -/
theorem exec_frame {t : Stage} (h : SecurityInv v) (hsecures : secures o = false)
    (hconnecting : v.nextConnecting o c = v.connecting) (hstage : v.nextStage o c = t)
    (hattempt : v.connecting = none ∨ t = v.ctl.stage)
    (hpairing : ∀ d, t.pairing? = some d → v.ctl.stage.pairing? = some d)
    (hvouched : ∀ d, t.vouched? = some d → v.ctl.stage.vouched? = some d) :
    SecurityInv (v.exec o c) := by
  have hstage' : (v.exec o c).ctl.stage = t := (View.exec_stage o c v).trans hstage
  have hconnecting' : (v.exec o c).connecting = v.connecting :=
    (View.exec_connecting o c v).trans hconnecting
  have hsem : (v.exec o c).secSem = true → v.secSem = true := by
    rw [View.exec_secSem]
    cases o with
    | drainSec => exact nofun
    | takeSec _ _ _ => cases hsecures
    | _ => exact id
  refine h.of_silent (View.exec_trace o c v) (silent_noted hsecures) ?_ ?_ ?_
  · rw [hconnecting', hstage']
    intro hsome
    obtain ⟨hfree, hst⟩ := h.attempt hsome
    refine ⟨Bool.eq_false_iff.mpr fun hgiven => ?_, ?_⟩
    · rw [hsem hgiven] at hfree
      cases hfree
    · rcases hattempt with hnone | hsame
      · rw [hnone] at hsome
        cases hsome
      · rwa [hsame]
  · rw [hconnecting', hstage']
    exact fun d hst hnone hgiven => h.pairing d (hpairing d hst) hnone (hsem hgiven)
  · rw [hstage']
    exact fun d hst => h.vouched d (hvouched d hst)

/-- The opener is done with security, and the connection is vouched for. -/
theorem secured {kind : CallKind} {d : DevId} {refused : Bool} (h : SecurityInv v)
    (htrace : v'.trace = .secured d refused :: v.trace) (hconnecting : v'.connecting = none)
    (hstage : v'.ctl.stage = .linked kind d .secured)
    (hvouched : refused = false → Encrypted d v.trace) : SecurityInv v' := by
  have hlinks : ∀ d', ∀ obs ∈ [Obs.secured d refused], obs.linkTo? d' = none := by
    simp [Obs.linkTo?]
  have hsince : ∀ d', sinceLink d' (.secured d refused :: v.trace) =
      .secured d refused :: sinceLink d' v.trace := fun d' => sinceLink_append (l := [_]) (hlinks d')
  have hnow : Vouched d (.secured d refused :: v.trace) := by
    cases refused with
    | false => exact .inl ((hvouched rfl).append (l := [_]) (hlinks d))
    | true =>
      refine .inr ?_
      rw [hsince]
      exact List.mem_cons_self
  constructor
  · rw [hconnecting]
    simp
  · rw [hstage]
    exact fun _ h => by cases h
  · rw [hstage, htrace]
    intro d' hst
    cases hst
    exact hnow
  · rw [htrace]
    rintro d' ⟨refused', hmem⟩
    rw [hsince] at hmem
    rcases List.mem_cons.mp hmem with heq | hmem
    · cases heq
      exact hnow
    · exact (h.complete d' ⟨refused', hmem⟩).append (l := [_]) (hlinks d')
  · rw [htrace]
    exact obeys_cons.mpr ⟨trivial, h.rule⟩

/-- A connection is reported open. -/
theorem postOpen {kind : CallKind} {d : DevId} (h : SecurityInv v)
    (hconnecting : v.connecting = none) (hstage : v.ctl.stage = .marked kind d) :
    SecurityInv (v.exec (.postOpen kind d) c) := by
  have hlinks : ∀ d', ∀ obs ∈ [Obs.posted ⟨v.nextSeq, .open d 0⟩], obs.linkTo? d' = none := by
    simp [Obs.linkTo?]
  constructor
  · intro hsome
    have hsome' : v.connecting.isSome = true := hsome
    rw [hconnecting] at hsome'
    cases hsome'
  · exact fun _ h => by cases h
  · exact fun _ h => by cases h
  · exact over_append (l := [_]) hlinks (by simp) h.complete
  · exact obeys_cons.mpr ⟨fun _ => h.vouched d (by rw [hstage]; rfl), h.rule⟩

/-- **An operation at its place, in a run whose waits are attested.** -/
theorem exec {s : Sys} (h : SecurityInv s.view)
    (hidle : o ≠ .waitCb → s.view.connecting = none) (hg : attested.main o c s = true)
    (hat : o.At s.ctl) : SecurityInv (s.view.exec o c) := by
  have hmove : ∀ (o : Op) (t : Stage), secures o = false → s.view.connecting = none →
      s.view.nextConnecting o c = s.view.connecting → s.view.nextStage o c = t →
      (∀ d, t.pairing? = some d → s.view.ctl.stage.pairing? = some d) →
      (∀ d, t.vouched? = some d → s.view.ctl.stage.vouched? = some d) →
      SecurityInv (s.view.exec o c) :=
    fun o t hsecures hnone hconnecting hstage hpairing hvouched =>
      h.exec_frame hsecures hconnecting hstage (.inl hnone) hpairing hvouched
  have hstay : ∀ o : Op, secures o = false → s.view.nextConnecting o c = s.view.connecting →
      s.view.nextStage o c = s.view.ctl.stage → SecurityInv (s.view.exec o c) :=
    fun o hsecures hconnecting hstage => h.exec_frame hsecures hconnecting hstage (.inr rfl)
      (fun _ => id) fun _ => id
  -- discovery is at its place in a secured connection, and stays there
  have hdisc : ∀ (o : Op) (d : DevId) (step : LinkStep), secures o = false →
      s.view.connecting = none → s.view.nextConnecting o c = s.view.connecting →
      s.view.ctl.stage = .linked .open d .secured → step ≠ .fresh →
      s.view.nextStage o c = .linked .open d step → SecurityInv (s.view.exec o c) := by
    intro o d step hsecures hnone hconnecting hlinked hne hstage
    refine hmove o _ hsecures hnone hconnecting hstage ?_ ?_ <;> intro d' hst
    · cases step <;> first | exact absurd rfl hne | cases hst
    · rw [hlinked]
      cases step <;> first | exact absurd rfl hne | exact hst
  cases o with
  | waitCb => exact hstay _ rfl rfl rfl
  | openCall site bda =>
    refine hmove _ _ rfl (hidle (by simp)) rfl rfl ?_ ?_ <;> intro d hst <;>
    · simp only [View.nextStage] at hst
      split at hst <;> cases hst
  | reconnectCall _ | devFree _ | openReturns _ | reconnectReturns _ =>
    exact hmove _ _ rfl (hidle (by simp)) rfl rfl (by exact fun _ h => by cases h)
      (by exact fun _ h => by cases h)
  | devMalloc bda addrType =>
    refine hmove _ _ rfl (hidle (by simp)) rfl rfl ?_ ?_ <;> intro d hst <;>
    · simp only [View.nextStage] at hst
      split at hst <;> cases hst
  | gapConnect kind d =>
    have hnone := hidle (by simp)
    cases hkey : s.view.key? d with
    | none =>
      exact hstay _ rfl (by simp [View.nextConnecting, hkey]) (by simp [View.nextStage, hkey])
    | some key =>
      have hfree : s.nimble.secSemaphore = false := by simpa [attested] using hg
      by_cases haccept : s.view.accepts c key.bda = true
      · refine h.of_silent (l := []) (View.exec_trace ..) (by simp) ?_ ?_ ?_
        · refine fun _ => ⟨(View.exec_secSem ..).trans hfree, kind, d, ?_⟩
          rw [View.exec_stage]
          simp [View.nextStage, hkey, haccept]
        · intro d' _ hconnecting
          rw [View.exec_connecting] at hconnecting
          simp [View.nextConnecting, hkey, haccept] at hconnecting
        · intro d' hst
          rw [View.exec_stage] at hst
          simp [View.nextStage, hkey, haccept, Stage.vouched?] at hst
      · refine hmove _ (.failed kind d) rfl hnone ?_ ?_ (by exact fun _ h => by cases h)
          (by exact fun _ h => by cases h)
        · simp [View.nextConnecting, hkey, haccept]
        · simp [View.nextStage, hkey, haccept]
  | readConnId kind d =>
    have hconnecting : s.view.ctl.stage = .connecting kind d := hat.1
    cases hkey : s.view.key? d with
    | none => exact hstay _ rfl rfl (by simp [View.nextStage, hkey])
    | some key =>
      refine hmove _ (if 0 ≤ key.connId then .linked kind d .fresh else .failed kind d) rfl
        (hidle (by simp)) rfl (by simp [View.nextStage, hkey]) ?_ ?_ <;> intro d' hst
      · rw [hconnecting]
        split at hst <;> first | exact hst | cases hst
      · split at hst <;> cases hst
  | securityInitiate d =>
    obtain ⟨kind, hlinked⟩ := hat.1
    have hlinked' : s.view.ctl.stage = .linked kind d .fresh := hlinked
    by_cases hrc : c.rc = 0
    · have hsame : s.view.exec (.securityInitiate d) c = s.view := by simp [View.exec, hrc]
      rwa [hsame]
    · have htrace : (s.view.exec (.securityInitiate d) c).trace =
          .secured d true :: s.view.trace := by
        rw [View.exec_trace]
        simp [View.noted, hrc]
      refine h.secured htrace ?_ (?_ : _ = Stage.linked kind d .secured) (by simp)
      · rw [View.exec_connecting]
        exact hidle (by simp)
      · rw [View.exec_stage]
        simp [View.nextStage, hrc, hlinked', Stage.advance]
  | takeSec d since ticks =>
    obtain ⟨kind, hlinked⟩ := hat.1
    have hlinked' : s.view.ctl.stage = .linked kind d .fresh := hlinked
    have hgiven : s.view.secSem = true := hg
    have htrace : (s.view.exec (.takeSec d since ticks) c).trace =
        .secured d false :: s.view.trace := View.exec_trace ..
    refine h.secured htrace ?_ (?_ : _ = Stage.linked kind d .secured) fun _ => ?_
    · rw [View.exec_connecting]
      exact hidle (by simp)
    · rw [View.exec_stage]
      simp [View.nextStage, hlinked', Stage.advance]
    · exact h.pairing d (by rw [hlinked']; rfl) (hidle (by simp)) hgiven
  | setConnected kind d =>
    obtain ⟨step, hlinked, hlast⟩ := hat.1
    have hlinked' : s.view.ctl.stage = .linked kind d step := hlinked
    refine hmove _ (.marked kind d) rfl (hidle (by simp)) rfl rfl (by exact fun _ h => by cases h)
      fun d' hst => ?_
    rw [hlinked']
    cases step with
    | fresh => cases kind <;> simp [LinkStep.Last] at hlast
    | _ => exact hst
  | postOpen kind d => exact h.postOpen (hidle (by simp)) hat.1
  | discAllSvcs d =>
    have hlinked : s.view.ctl.stage = .linked .open d .secured := hat.1
    by_cases hrc : c.rc = 0
    · exact hstay _ rfl rfl (by simp [View.nextStage, hrc])
    · exact hdisc _ d .abandoned rfl (hidle (by simp)) rfl hlinked (by simp)
        (by simp [View.nextStage, hrc, hlinked, Stage.advance])
  | mallocReportMaps d =>
    have hlinked : s.view.ctl.stage = .linked .open d .secured := hat.1
    by_cases hrc : c.rc = 0
    · exact hstay _ rfl rfl (by simp [View.nextStage, hrc])
    · exact hdisc _ d .abandoned rfl (hidle (by simp)) rfl hlinked (by simp)
        (by simp [View.nextStage, hrc, hlinked, Stage.advance])
  | mallocProtocolMode d =>
    have hlinked : s.view.ctl.stage = .linked .open d .secured := hat.1
    by_cases hrc : c.rc = 0
    · exact hstay _ rfl rfl (by simp [View.nextStage, hrc])
    · exact hdisc _ d .abandoned rfl (hidle (by simp)) rfl hlinked (by simp)
        (by simp [View.nextStage, hrc, hlinked, Stage.advance])
  | mallocReport =>
    obtain ⟨⟨d, hlinked⟩, -⟩ := hat
    have hlinked' : s.view.ctl.stage = .linked .open d .secured := hlinked
    by_cases hrc : c.rc = 0
    · exact hstay _ rfl rfl (by simp [View.nextStage, hrc])
    · exact hdisc _ d .abandoned rfl (hidle (by simp)) rfl hlinked' (by simp)
        (by simp [View.nextStage, hrc, hlinked', Stage.advance])
  | svcsDone =>
    obtain ⟨⟨d, hlinked⟩, -⟩ := hat
    have hlinked' : s.view.ctl.stage = .linked .open d .secured := hlinked
    exact hdisc _ d .discovered rfl (hidle (by simp)) rfl hlinked' (by simp)
      (by simp [View.nextStage, hlinked', Stage.advance])
  | _ => exact hstay _ rfl rfl rfl

/-! ### Events -/

/-- The encryption that a wait is for. -/
theorem encChange {handle : UInt16} {rc : Int} (h : SecurityInv v) (hconn : Connections v)
    (hg : ∀ d, v.ctl.stage.pairing? = some d → v.connecting = none ∧ rc = 0 ∧
      ∃ key, v.byConnId handle = some key ∧ key.id = d) :
    SecurityInv ({ v with secSem := true }.note (.encChange handle rc)) := by
  have hlinks : ∀ d, ∀ obs ∈ [Obs.encChange handle rc], obs.linkTo? d = none := by
    simp [Obs.linkTo?]
  constructor
  · intro hsome
    obtain ⟨-, kind, d, hstage⟩ := h.attempt hsome
    obtain ⟨hnone, -⟩ := hg d (by rw [hstage]; rfl)
    have hsome' : v.connecting.isSome = true := hsome
    rw [hnone] at hsome'
    cases hsome'
  · intro d hst _ _
    obtain ⟨-, rfl, key, hkey, rfl⟩ := hg d hst
    obtain ⟨link, rfl, hhas⟩ := hconn.byConnId hkey
    exact hhas.encrypted
  · exact fun d hst => (h.vouched d hst).append (l := [_]) (hlinks d)
  · exact over_append (l := [_]) hlinks (by simp) h.complete
  · exact obeys_cons.mpr ⟨trivial, h.rule⟩

/-- A link comes up: its device is without encryption. -/
theorem linkUp {link : Link} (h : SecurityInv v) (hconnecting : v.connecting = some link.peer) :
    SecurityInv (v.linkUp link) := by
  obtain ⟨hfree, kind, d, hstage⟩ := h.attempt (by rw [hconnecting]; rfl)
  constructor
  · exact nofun
  · intro _ _ _ hgiven
    have hgiven' : v.secSem = true := hgiven
    rw [hfree] at hgiven'
    cases hgiven'
  · intro d' hst
    have hst' : v.ctl.stage.vouched? = some d' := hst
    rw [hstage] at hst'
    cases hst'
  · intro d' hover
    simp only [View.linkUp] at hover ⊢
    generalize ((v.byBda link.ota).or (v.byBda link.identity)).map DevKey.id = d? at hover ⊢
    by_cases hd : d? = some d'
    · obtain ⟨refused, hmem⟩ := hover
      rw [hd, sinceLink_linkUp] at hmem
      cases hmem
    · have hother : ∀ obs ∈ [Obs.linkUp link d?], obs.linkTo? d' = none := by simp [Obs.linkTo?, hd]
      obtain ⟨refused, hmem⟩ := hover
      rw [← List.singleton_append, sinceLink_append hother] at hmem
      have hmem := (List.mem_append.mp hmem).resolve_left (by simp)
      exact (h.complete d' ⟨refused, hmem⟩).append (l := [_]) hother
  · exact obeys_cons.mpr ⟨trivial, h.rule⟩

/-- A notification is accepted on the link of its device. -/
theorem notified {handle : UInt16} {event : HidhEvent} {key : DevKey} (h : SecurityInv v)
    (hconn : Connections v) (hkey : v.byConnId handle = some key) (hdev : event.dev = key.id)
    (hopen : ∀ d rc, event ≠ .open d rc) : SecurityInv (v.post event) := by
  have hlinks : ∀ d, ∀ obs ∈ [Obs.posted ⟨v.nextSeq, event⟩], obs.linkTo? d = none := by
    simp [Obs.linkTo?]
  constructor
  · exact h.attempt
  · exact fun d hst hnone hgiven => (h.pairing d hst hnone hgiven).append (l := [_]) (hlinks d)
  · exact fun d hst => (h.vouched d hst).append (l := [_]) (hlinks d)
  · exact over_append (l := [_]) hlinks (by simp) h.complete
  · refine obeys_cons.mpr ⟨?_, h.rule⟩
    cases event with
    | «open» d rc => exact absurd rfl (hopen d rc)
    | input d _ _ _ _ =>
      obtain ⟨link, -, hhas⟩ := hconn.byConnId hkey
      obtain rfl : d = key.id := hdev
      exact ⟨⟨link, hhas⟩, h.complete key.id⟩
    | _ => trivial

/-- **An event, in a run whose waits are attested.** -/
theorem effect {e : Event} (h : SecurityInv v) (hconn : Connections v) (heff : View.Effect e v v')
    (hg : ∀ handle rc, e = .encChange handle rc → ∀ d, v.ctl.stage.pairing? = some d →
      v.connecting = none ∧ rc = 0 ∧ ∃ key, v.byConnId handle = some key ∧ key.id = d) :
    SecurityInv v' := by
  have hstay : (∀ handle rc, e ≠ .encChange handle rc) →
      (∀ handle ota identity, e ≠ .connected handle ota identity) →
      (∀ handle attr data, e ≠ .notifyRx handle attr data) →
      (v'.connecting = v.connecting ∨ v'.connecting = none ∧ v.secSem = false) →
      SecurityInv v' := by
    intro henc hup hnotify hconnecting
    obtain ⟨l, htrace, hby⟩ := heff.records
    have hsem := heff.secSem henc
    refine h.of_silent htrace (fun obs hobs => ?_) ?_ ?_ ?_
    · have hrec := hby obs hobs
      cases obs with
      | posted p =>
        obtain ⟨-, ⟨_, _, _, _, he, -⟩ | ⟨_, _, _, -, -, -, hevent⟩⟩ := hrec
        · exact absurd he (hnotify _ _ _)
        · obtain ⟨seq, event⟩ := p
          obtain rfl : event = _ := hevent
          rfl
      | linkUp link d => exact absurd hrec.1 (hup _ _ _)
      | secured _ _ => exact hrec.elim
      | _ => rfl
    · rw [hsem, heff.ctl]
      rcases hconnecting with hsame | ⟨hnone, -⟩
      · rw [hsame]
        exact h.attempt
      · rw [hnone]
        exact nofun
    · rw [hsem, heff.ctl]
      rcases hconnecting with hsame | ⟨-, hfree⟩
      · rw [hsame]
        exact h.pairing
      · rw [hfree]
        exact fun _ _ _ => nofun
    · rw [heff.ctl]
      exact h.vouched
  have hkept : (∀ handle rc, e ≠ .encChange handle rc) →
      (∀ handle ota identity, e ≠ .connected handle ota identity) →
      (∀ handle attr data, e ≠ .notifyRx handle attr data) → (∀ rc, e ≠ .connectFailed rc) →
      SecurityInv v' := fun henc hup hnotify hfailed =>
    hstay henc hup hnotify (.inl (heff.connecting hup hfailed))
  cases heff with
  | quiet _ hinner => exact h
  | encChange _ handle rc => exact h.encChange hconn (hg handle rc rfl)
  | connected _ link hconnecting hfresh => exact h.linkUp hconnecting
  | notified _ handle attr data event key hkey hdev hopen hclose hroom =>
    exact h.notified hconn hkey hdev hopen
  | connectFailed _ rc hsome => exact hstay nofun nofun nofun (.inr ⟨rfl, (h.attempt hsome).1⟩)
  | _ => exact hkept nofun nofun nofun nofun

end SecurityInv

theorem securityInv {cfg : KbdConfig} {bonds : List (Bda × UInt8)} {c : HostConfig}
    (h : Reach host attested (boot cfg bonds) c) : SecurityInv c.state.view := by
  refine reach_keeps_of_known (J := fun s => Connections s.view ∧ TokenBound s)
    (I := fun s => SecurityInv s.view) h (fun _ hreach => ⟨connections hreach, tokenBound hreach⟩)
    ?_ ?_ ?_
  · refine ⟨nofun, nofun, nofun, fun d hover => ?_, obeys_nil⟩
    obtain ⟨_, hmem⟩ := hover
    cases hmem
  · rintro o ch s ⟨-, htokens⟩ hinv _ _ hg hat
    rw [exec_view]
    refine hinv.exec (fun hne => ?_) hg hat
    exact (tokens_eq_zero htokens (hat.awaiting_eq_false hne)).2.2
  · rintro e s s' ⟨hconn, -⟩ hinv _ hg hstep
    refine hinv.effect hconn (eventStep_view hstep) ?_
    rintro handle rc rfl d hst
    have hst' : s.ctl.stage.pairing? = some d := hst
    simp only [attested, hst', Bool.and_eq_true, Option.isNone_iff_eq_none, beq_iff_eq] at hg
    obtain ⟨⟨hnone, hrc⟩, hdev⟩ := hg
    obtain ⟨dev, hdev, hid⟩ := (Option.any_eq_true _ _).mp hdev
    refine ⟨hnone, hrc, dev.key, ?_, beq_iff_eq.mp hid⟩
    rw [byConnId_view, hdev]
    rfl

/-! ## The result -/

/-- **A connection is reported open only if it is encrypted or security was refused for it**, and
over a connection whose security is over notifications are accepted only then. In every run in which
each wait for security ends by the event it is for. -/
theorem securityKept_of_attested {cfg : KbdConfig} {bonds : List (Bda × UInt8)} {c : HostConfig}
    (h : Reach host attested (boot cfg bonds) c) : Obeys SecurityRule c.state.trace :=
  (securityInv h).rule

/-! ## Runs -/

/-- From the allocation to discovery, with security. -/
def secureLinkRun (addr : Bda) : List (Move Choice Event) :=
  mains 4 ++ [.env (.connected 5 addr addr)] ++ mains 3 ++ [.main {}, .env (.encChange 5 0)] ++ mains 3

/-- A connection is encrypted and reported open. -/
theorem securityKept_opened : ∃ c, host.run attested
    (scanRun 7 ++ selectRun ++ secureLinkRun 7 ++ openRun) (boot {} []) = some c ∧
      .posted ⟨0, .open 0 0⟩ ∈ c.state.trace ∧ .encChange 5 0 ∈ c.state.trace ∧
      Obeys SecurityRule c.state.trace := by
  obtain ⟨c, hrun, hopened⟩ := exists_run attested
    (scanRun 7 ++ selectRun ++ secureLinkRun 7 ++ openRun) (boot {} [])
    (fun c => c.state.trace.contains (.posted ⟨0, .open 0 0⟩) &&
      c.state.trace.contains (.encChange 5 0)) (by decide +kernel)
  obtain ⟨hposted, henc⟩ := Bool.and_eq_true_iff.mp hopened
  exact ⟨c, hrun, List.contains_iff_mem.mp hposted, List.contains_iff_mem.mp henc,
    securityKept_of_attested (Reach.of_run hrun)⟩

/-- Security is refused; the connection is reported open all the same. -/
theorem not_encrypted_refused :
    ∃ c, Reach host .free (boot {} []) c ∧ ¬Obeys EncryptionRule c.state.trace := by
  let run := scanRun 7 ++ selectRun ++ linkRun 7 ++ mains 1 ++ [.env (.gattCb 0 .done)] ++ mains 12
  obtain ⟨c, hrun, hopened⟩ := exists_run .free run (boot {} [])
    (fun c => c.state.trace[1]? == some (.posted ⟨0, .open 0 0⟩) &&
      c.state.trace.all fun o => o != .encChange 5 0 && (o.linkTo? 0).all (·.handle == 5))
    (by decide +kernel)
  refine ⟨c, .of_run hrun, fun hobeys => ?_⟩
  obtain ⟨hposted, hnever⟩ := Bool.and_eq_true_iff.mp hopened
  have hsuffix : .posted ⟨0, .open 0 0⟩ :: c.state.trace.drop 2 <:+ c.state.trace := by
    obtain ⟨hlt, hget⟩ := List.getElem?_eq_some_iff.mp (beq_iff_eq.mp hposted)
    rw [← hget, ← List.drop_eq_getElem_cons hlt]
    exact List.drop_suffix 1 _
  obtain ⟨link, hlast, hmem⟩ : Encrypted 0 (c.state.trace.drop 2) := hobeys _ _ hsuffix rfl
  have hnever' : ∀ o ∈ c.state.trace.drop 2, o ≠ .encChange 5 0 ∧
      ∀ link, o.linkTo? 0 = some link → link.handle = 5 := by
    intro o ho
    have hall := List.all_eq_true.mp hnever o (List.mem_of_mem_drop ho)
    simpa [Option.all_eq_true] using hall
  obtain ⟨o, ho, hlink⟩ := List.exists_of_findSome?_eq_some hlast
  have hhandle := (hnever' o ho).2 link hlink
  have htrace := mem_of_mem_since ((List.rtakeWhile_suffix _ _).subset hmem)
  exact (hnever' _ htrace).1 (by rw [hhandle])

end BleKbdHost.Host
