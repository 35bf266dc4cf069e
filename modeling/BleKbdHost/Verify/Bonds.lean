import BleKbdHost.Conc.Along
import BleKbdHost.Host.Phases

/-!
# Erasing bonds

`ble_store_clear` stands at the head of `do_pair`, which is reached after a re-pair request, but
also when no bonds are counted at the top and when a connection attempt has failed. A bond that is
there at that time is lost.
-/

namespace BleKbdHost.Host

open Hid Keys Conc

/-! ## The property -/

/-- The bond with `peer` has just been stored: in an earlier boot, or by NimBLE. -/
inductive Stored (c₀ : HostConfig) (peer : Bda) : HostConfig → Prop
  | boot : peer ∈ c₀.state.radio.ourSec → Stored c₀ peer c₀
  | bonded {c₁ c₂ : HostConfig} {addrType : UInt8} : Reach host .free c₀ c₁ →
    host.step (.env (.bonded peer addrType)) c₁ = some c₂ → Stored c₀ peer c₂

/-- The move leaves the bond in the store. -/
def KeepsBond (peer : Bda) (m : Move Choice Event) (c : HostConfig) : Prop :=
  ∀ c', host.step m c = some c' → peer ∈ c'.state.radio.ourSec

/-- `ble_store_clear` comes next. -/
def AtClear (c : HostConfig) : Prop := c.state.fault = none ∧ ∃ k, c.task = .op .storeClear k

/-- `force_repair` was set, and the store was not cleared yet. -/
def Forced (cfg : KbdConfig) (c : HostConfig) : Prop :=
  cfg.forceRepair = true ∧ .storeClear ∉ c.state.trace

/-- Between `c₂` and `c` a re-pair request was taken from the queue. -/
def RepairedSince (c₂ c : HostConfig) : Prop :=
  ∃ l, c.state.trace = l ++ c₂.state.trace ∧ .repair ∈ l

/-- If the store is cleared next, of a bond that was stored at `c₂`, this was asked for. -/
def ErasedIfAsked (cfg : KbdConfig) (c₂ c : HostConfig) : Prop :=
  AtClear c → RepairedSince c₂ c ∨ Forced cfg c

/-! ## The condition -/

/-- A re-pair request is at the head of the queue. -/
def Sys.requested (s : Sys) : Bool := s.kbd.cmdQueue.items.head? == some .startPairing

/-- The operation at the head of `t` decides for `do_pair`: it takes a re-pair request, misses the
bonds at the top, finds that the connection failed or that `force_repair` is set. -/
def Decides (t : Prog Label) (o : Op) (c : Choice) (s : Sys) : Prop :=
  match o with
  | .receiveCmd _ _ => s.requested = true
  | .storeCount => t = top ∧ (c.rc ≠ 0 ∨ s.radio.ourSec = [])
  | .takeConnected => t = connectDecide ∧ s.kbd.connectedSem = false
  | .look => s.kbd.cfg.forceRepair = true
  | _ => False

/-- Only the main task takes a request from the head of the queue. -/
def Op.receives : Op → Bool
  | .receiveCmd _ _ => true
  | _ => false

def Op.clears : Op → Bool
  | .storeClear => true
  | _ => false

/-- Without a further decision the task does not come to `ble_store_clear`; `seen` if a request is
at the head of the queue. -/
def Undecided : Bool → Prog Label → Prop
  | _, .ret l => l ≠ .doPair
  | seen, .op o k => o.clears = false ∧ ∀ c s, (seen = true → s.requested = true) →
      Decides (.op o k) o c s ∨ Undecided (!o.receives && s.requested) (k c s)

/-- The main task is not on its way to `ble_store_clear`, unless by `force_repair`. -/
def Open (cfg : KbdConfig) (c : HostConfig) : Prop :=
  Forced cfg c ∨ Undecided c.state.requested c.task

/-- At the top the bonds are counted, and an attempt to connect to a selected device finds
`s_connected_sem` given. -/
structure Succeeds (m : Move Choice Event) (c : HostConfig) : Prop where
  counts : ∀ ch, m = .main ch → c.task = top → ch.rc = 0
  connects : ∀ ch, m = .main ch → c.task = connectDecide → c.state.kbd.connectedSem = true

/-! ## Transport calls leave the store alone -/

section Transport

variable {α β : Type} {d : DevId}

/-- The task does not clear the store. -/
def Lenient (t : Prog α) : Prop := t.Only (·.clears = false)

namespace Lenient

theorem ret (a : α) : Lenient (pure a) := trivial

theorem ask {o : Op} {r : Choice → Sys → α} (h : o.clears = false) : Lenient (.ask o r) :=
  Task.only_ask.mpr h

theorem bind {t : Prog α} {f : α → Prog β} (ht : Lenient t) (hf : ∀ a, Lenient (f a)) :
    Lenient (t >>= f) :=
  Task.Only.bind ht hf

/-- An operation, and what follows it. -/
theorem step {o : Op} {r : Choice → Sys → α} {f : α → Prog β} (h : o.clears = false)
    (hf : ∀ a, Lenient (f a)) : Lenient (.ask o r >>= f) :=
  bind (ask h) hf

theorem when {p : Prop} [Decidable p] {t : Prog Unit} (ht : Lenient t) : Lenient (.when p t) :=
  Task.Only.when ht

theorem ite {p : Prop} [Decidable p] {t u : Prog α} (ht : Lenient t) (hu : Lenient u) :
    Lenient (if p then t else u) :=
  Task.Only.ite ht hu

end Lenient

open Lenient

theorem lenient_waitDisc : Lenient waitDisc := step rfl fun _ => ask rfl

theorem lenient_readLongValue (handle uuid : UInt16) (out : ReadVar) :
    Lenient (readLongValue d handle uuid out) :=
  step rfl fun _ => ite (ret _) (step rfl fun _ => ask rfl)

theorem lenient_readInto (chr : GattChr) (v : DiscVars) (field : ReadVar → DevField) :
    Lenient (readInto d chr v field) :=
  bind (lenient_readLongValue _ _ _) fun _ => bind (when (ask rfl)) fun _ => ret _

theorem lenient_readPnpId (chr : GattChr) (v : DiscVars) : Lenient (readPnpId d chr v) :=
  bind (lenient_readLongValue _ _ _) fun _ => bind (when (ask rfl)) fun _ => step rfl fun _ => ret _

theorem lenient_hidChr (chr : GattChr) (v : DiscVars) : Lenient (hidChr d chr v) := by
  refine ite (ite ?_ (ret _)) (ite (ite ?_ (ret _)) (ite ?_ (ret _)))
  · exact bind (lenient_readInto _ _ _) fun _ => ret _
  · exact bind (lenient_readInto _ _ _) fun _ => ret _
  · exact step rfl fun _ => ite (ret _) (ret _)

theorem lenient_examineChr (suuid : UInt16) (chr : GattChr) (v : DiscVars) :
    Lenient (examineChr d suuid chr v) := by
  refine ite ?_ (ite ?_ (ite ?_ (lenient_hidChr _ _)))
  · exact step rfl fun _ => ite (bind (lenient_readInto _ _ _) fun _ => ret _) (ret _)
  · exact ite (step rfl fun _ => ret _) (ret _)
  · refine ite (ite (lenient_readPnpId _ _) (ite ?_ (ite ?_ (ret _)))) (ret _)
    · exact bind (lenient_readInto _ _ _) fun _ => ret _
    · exact bind (lenient_readInto _ _ _) fun _ => ret _

theorem lenient_readReportRef (dsc : GattDsc) (report : DevReport) (v : DiscVars) :
    Lenient (readReportRef d dsc report v) :=
  bind (lenient_readLongValue _ _ _) fun _ => ite (step rfl fun _ => ret _) (ret _)

theorem lenient_examineDsc (suuid : UInt16) (chr : GattChr) (dsc : GattDsc) (v : DiscVars) :
    Lenient (examineDsc d suuid chr dsc v) := by
  refine ite (bind (when (ask rfl)) fun _ => ret _) ?_
  split
  · exact ite (ite (ret _) (ite (lenient_readReportRef _ _ _) (ret _))) (ret _)
  · exact ret _

theorem lenient_dscLoop (suuid : UInt16) (chr : GattChr) (n i : Nat) (v : DiscVars) :
    Lenient (dscLoop d suuid chr n i v) := by
  induction n generalizing i v with
  | zero => exact ret _
  | succ n ih => exact step rfl fun _ => bind (lenient_examineDsc _ _ _ _) fun _ => ih _ _

theorem lenient_chrDescriptors (suuid : UInt16) (chr : GattChr) (endHandle : UInt16)
    (v : DiscVars) : Lenient (chrDescriptors d suuid chr endHandle v) := by
  refine step rfl fun _ => bind lenient_waitDisc fun _ => step rfl fun _ =>
    bind (lenient_dscLoop _ _ _ _ _) fun v => bind ?_ fun _ => step rfl fun _ => ret _
  unfold pushReport
  split
  · exact when (ask rfl)
  · exact ret _

theorem lenient_chrLoop (svc : GattSvc) (n i : Nat) (v : DiscVars) :
    Lenient (chrLoop d svc n i v) := by
  induction n generalizing i v with
  | zero => exact ret _
  | succ n ih =>
    refine step rfl fun _ => bind (lenient_examineChr _ _ _) fun next => ?_
    cases next with
    | stop => exact ret _
    | skip v => exact ih _ _
    | descriptors v =>
      exact bind (ite (ret _) (ask rfl)) fun _ =>
        bind (lenient_chrDescriptors _ _ _ _) fun _ => ih _ _

theorem lenient_examineSvc (svc : GattSvc) (v : DiscVars) : Lenient (examineSvc d svc v) := by
  refine ite (step rfl fun _ => bind lenient_waitDisc fun _ => step rfl fun _ =>
    bind (lenient_chrLoop _ _ _ _) fun v? => ?_) (ret _)
  cases v? with
  | none => exact ret _
  | some v => exact step rfl fun _ => ite (ret _) (ret _)

theorem lenient_svcLoop (n i : Nat) (v : DiscVars) : Lenient (svcLoop d n i v) := by
  induction n generalizing i v with
  | zero => exact ret _
  | succ n ih =>
    refine step rfl fun svc => bind (lenient_examineSvc _ _) fun v? => ?_
    cases v? with
    | none => exact ret _
    | some v => exact ih _ _

theorem lenient_mapLoop (n i : Nat) : Lenient (mapLoop d n i) := by
  induction n generalizing i with
  | zero => exact ret _
  | succ n ih =>
    refine step rfl fun _ => ite (ih _) (step rfl fun _ => ite (ih _) (step rfl fun map? => ?_))
    cases map? with
    | none => exact ih _
    | some map => exact step rfl fun _ => bind (when (ask rfl)) fun _ => step rfl fun _ => ih _

theorem lenient_readDeviceServices : Lenient (readDeviceServices d) := by
  refine step rfl fun _ => bind lenient_waitDisc fun _ => step rfl fun _ => ite ?_ (ret _)
  refine step rfl fun _ => ite (ret _) (step rfl fun _ => ite (ret _) ?_)
  refine bind (lenient_svcLoop _ _ _) fun v? => ?_
  cases v? with
  | none => exact ret _
  | some v => exact step rfl fun _ => step rfl fun _ => lenient_mapLoop _ _

theorem lenient_subscribe (handle cccHandle : UInt16) : Lenient (subscribe d handle cccHandle) :=
  step rfl fun _ => bind (step rfl fun _ => ask rfl) fun _ =>
    when (step rfl fun _ => step rfl fun _ => ask rfl)

theorem lenient_subscribeReports (reports : List DevReport) :
    Lenient (subscribeReports d reports) := by
  induction reports with
  | nil => exact ret _
  | cons report reports ih => exact bind (when (lenient_subscribe _ _)) fun _ => ih

theorem lenient_attachReportListeners : Lenient (attachReportListeners d) :=
  step rfl fun _ => bind (when (lenient_subscribe _ _)) fun _ => lenient_subscribeReports _

theorem lenient_initiateSecurity : Lenient (initiateSecurity d) :=
  step rfl fun _ => step rfl fun _ => step rfl fun _ => when (ask rfl)

/-- The request to connect, up to the look at what came of it. -/
theorem lenient_connect (kind : CallKind) {t u w : Prog α} (ht : Lenient t) (hu : Lenient u)
    (hw : Lenient w) :
    Lenient (drainSemaphores >>= fun _ => bleGapConnect kind d >>= fun accepted =>
      if accepted then waitForLink kind d >>= fun linked => if linked then t else u else w) :=
  bind (step rfl fun _ => ask rfl) fun _ => step rfl fun _ =>
    ite (bind (step rfl fun _ => step rfl fun _ => ret _) fun _ => ite ht hu) hw

theorem lenient_openLinked : Lenient (openLinked d) :=
  step rfl fun _ => bind lenient_initiateSecurity fun _ =>
    bind lenient_readDeviceServices fun _ => step rfl fun _ => step rfl fun _ =>
      bind lenient_attachReportListeners fun _ => ret _

theorem lenient_espHidhDevOpen (site : OpenSite) (bda : Bda) (addrType : UInt8) :
    Lenient (espHidhDevOpen site bda addrType) := by
  have hfree : ∀ d, Lenient (.perform (.devFree d) >>= fun _ => pure (none : Option DevId)) :=
    fun d => step rfl fun _ => ret _
  refine step rfl fun _ => bind (ite (ret _) (step rfl fun dev => ?_)) fun _ =>
    step rfl fun _ => ret _
  cases dev with
  | none => exact ret _
  | some d => exact lenient_connect .open lenient_openLinked (hfree d) (hfree d)

theorem lenient_reconnectLinked : Lenient (reconnectLinked d) :=
  bind lenient_initiateSecurity fun _ => step rfl fun _ =>
    bind lenient_attachReportListeners fun _ => step rfl fun _ => ret _

theorem lenient_reconnectInUse : Lenient (reconnectInUse d) :=
  lenient_connect .reconnect lenient_reconnectLinked (ret none) (ret none)

theorem lenient_espBleHidhDevReconnect : Lenient (espBleHidhDevReconnect d) :=
  step rfl fun _ => bind (ite lenient_reconnectInUse (ret _)) fun _ => step rfl fun _ => ret _

end Transport

/-! ## The blocks -/

section Undecided

variable {α : Type} {seen : Bool} {t : Prog Label}

theorem Undecided.of_not_seen (h : Undecided false t) : Undecided seen t := by
  cases t with
  | ret l => exact h
  | op o k => exact ⟨h.1, fun c s _ => h.2 c s nofun⟩

/-- What decides nothing. -/
theorem Lenient.undecided {t : Prog α} {f : α → Prog Label} (ht : Lenient t)
    (hf : ∀ a, Undecided false (f a)) : Undecided seen (t >>= f) := by
  change Undecided seen (t.bind f)
  induction t generalizing seen with
  | ret a => exact (hf a).of_not_seen
  | op o k ih => exact ⟨ht.1, fun c s _ => .inr (ih c s (ht.2 c s))⟩

/-- An operation that decides nothing. -/
theorem Undecided.step {o : Op} {r : Choice → Sys → α} {f : α → Prog Label}
    (h : o.clears = false) (hf : ∀ a, Undecided false (f a)) : Undecided seen (.ask o r >>= f) :=
  (Lenient.ask h).undecided hf

theorem Undecided.ite {p : Prop} [Decidable p] {t u : Prog Label} (ht : Undecided seen t)
    (hu : Undecided seen u) : Undecided seen (if p then t else u) := by
  split
  · exact ht
  · exact hu

open Lenient

theorem undecided_ret {l : Label} (hl : l ≠ .doPair) : Undecided seen (pure l) := hl

theorem lenient_setState (st : KbdState) (line1 line2 : Line) :
    Lenient (setState st line1 line2) :=
  step rfl fun _ => ask rfl

theorem lenient_xSemaphoreTake (sem : Sem) (ms : Nat) : Lenient (xSemaphoreTake sem ms) :=
  step rfl fun _ => step rfl fun _ => ask rfl

theorem lenient_vTaskDelay (ms : Nat) : Lenient (vTaskDelay ms) :=
  step rfl fun _ => step rfl fun _ => ask rfl

/-- A request that is taken decides; nothing else that is received does. -/
theorem undecided_receive {ticks : UInt32} {f : Option KbdCmd → Prog Label}
    (hf : ∀ cmd, cmd ≠ some .startPairing → Undecided false (f cmd)) :
    Undecided seen (xQueueReceive ticks >>= f) := by
  refine ⟨rfl, fun _ _ _ => .inr ⟨rfl, fun c s _ => ?_⟩⟩
  by_cases hhead : s.kbd.cmdQueue.items.head? = some .startPairing
  · exact .inl (beq_iff_eq.mpr hhead)
  · exact .inr (hf _ hhead)

/-- A request that is seen is taken. -/
theorem undecided_receive_seen {ticks : UInt32} {f : Option KbdCmd → Prog Label} :
    Undecided true (xQueueReceive ticks >>= f) :=
  ⟨rfl, fun _ _ hs => .inr ⟨rfl, fun _ _ hs' => .inl (hs' (hs rfl))⟩⟩

theorem undecided_top : Undecided seen top := by
  refine ⟨rfl, fun c s _ => ?_⟩
  by_cases hcount : c.rc ≠ 0 ∨ s.radio.ourSec = []
  · exact .inl ⟨rfl, hcount⟩
  have hpos : 0 < if c.rc = 0 then s.radio.ourSec.length else 0 := by
    rw [not_or, Decidable.not_not] at hcount
    rw [if_pos hcount.1]
    exact List.length_pos_iff.mpr hcount.2
  refine .inr ⟨rfl, fun _ s' _ => ?_⟩
  cases hforce : s'.kbd.cfg.forceRepair with
  | true => exact .inl hforce
  | false =>
    refine .inr ?_
    simp only [Task.ret_bind, hforce, hpos, Bool.not_false, Bool.true_and, decide_true,
      ↓reduceIte]
    exact (lenient_setState _ _ _).undecided fun _ => undecided_ret nofun

theorem undecided_connectDecide : Undecided seen connectDecide := by
  refine ⟨rfl, fun c s _ => ?_⟩
  cases hsem : s.kbd.connectedSem with
  | false => exact .inl ⟨rfl, hsem⟩
  | true =>
    refine .inr ?_
    simp only [hsem, Task.when, Task.ret_bind, ↓reduceIte]
    exact ⟨rfl, fun _ _ _ => .inr (undecided_ret (l := .connected) nofun)⟩

theorem undecided_waitForStartPairing (site : WaitSite) (deadline : UInt32) :
    Undecided seen (waitForStartPairing site deadline) := by
  refine Undecided.step rfl fun _ => Undecided.step rfl fun _ =>
    undecided_receive fun cmd hcmd => ?_
  rcases cmd with _ | _ | param
  · exact .ite (undecided_ret (by cases site <;> exact nofun)) (undecided_ret nofun)
  · exact absurd rfl hcmd
  · exact undecided_ret nofun

theorem undecided_poll (site : PollSite) {u w : Prog Label} (hu : Undecided true u)
    (hw : Undecided false w) :
    Undecided seen (peekStartPairing site >>= fun requested => if requested then u else w) := by
  refine ⟨rfl, fun c s _ => .inr ?_⟩
  change Undecided s.requested (if s.requested then u else w)
  cases s.requested with
  | true => exact hu
  | false => exact hw

theorem undecided_bondedDecide : Undecided seen bondedDecide := by
  refine Lenient.undecided (bind (ask rfl) fun ok => bind (when (ask rfl)) fun _ => ret _)
    fun ok => ?_
  exact .ite (undecided_ret nofun) (Undecided.step rfl fun _ => undecided_ret nofun)

theorem undecided_bondedWait (deadline : UInt32) : Undecided seen (bondedWait deadline) := by
  refine Undecided.step rfl fun _ => .ite ?_ undecided_bondedDecide
  refine (lenient_xSemaphoreTake _ _).undecided fun _ => .ite undecided_bondedDecide ?_
  exact undecided_poll .bonded (Undecided.step rfl fun _ => undecided_ret nofun)
    (undecided_ret nofun)

theorem undecided_connecting (deadline : UInt32) : Undecided seen (connecting deadline) := by
  refine Undecided.step rfl fun _ => .ite ?_ undecided_connectDecide
  refine (lenient_xSemaphoreTake _ _).undecided fun _ => .ite undecided_connectDecide ?_
  exact undecided_poll .connecting undecided_receive_seen (undecided_ret nofun)

theorem undecided_connectedWait : Undecided seen connectedWait := by
  refine Lenient.undecided (step rfl fun _ => step rfl fun _ => ask rfl) fun _ => .ite ?_ ?_
  · exact (lenient_setState _ _ _).undecided fun _ => (lenient_vTaskDelay _).undecided fun _ =>
      undecided_ret nofun
  · exact undecided_poll .connected undecided_receive_seen (undecided_ret nofun)

theorem undecided_tryReconnect : Undecided seen tryReconnect := by
  refine Undecided.step rfl fun dev => ?_
  cases dev with
  | some d =>
    refine lenient_espBleHidhDevReconnect.undecided fun dev => ?_
    cases dev <;> exact undecided_ret nofun
  | none =>
    refine Undecided.step rfl fun count => .ite (undecided_ret nofun) ?_
    refine Undecided.step rfl fun peer => ?_
    rcases peer with _ | ⟨bda, addrType⟩
    · exact undecided_ret nofun
    · exact (lenient_xSemaphoreTake _ _).undecided fun _ =>
        (lenient_espHidhDevOpen _ _ _).undecided fun _ => Undecided.step rfl fun _ =>
          Undecided.step rfl fun _ => undecided_ret nofun

theorem undecided_checkScanTimeout (scanStart lastUpdate : UInt32) :
    Undecided seen (checkScanTimeout scanStart lastUpdate) := by
  refine Undecided.step rfl fun _ => Undecided.step rfl fun _ =>
    Undecided.step rfl fun _ => Undecided.step rfl fun _ =>
      .ite ?_ (undecided_ret nofun)
  exact Undecided.step rfl fun _ => Undecided.step rfl fun _ =>
    (lenient_vTaskDelay _).undecided fun _ => Undecided.step rfl fun _ => undecided_ret nofun

theorem undecided_scanning (scanStart lastUpdate : UInt32) :
    Undecided seen (scanning scanStart lastUpdate) := by
  refine Lenient.undecided (step rfl fun _ => step rfl fun _ =>
    ite (step rfl fun _ => step rfl fun _ => ret _) (ret _)) fun _ => ?_
  refine Undecided.step rfl fun _ => undecided_receive fun cmd hcmd => ?_
  rcases cmd with _ | _ | param
  · exact undecided_checkScanTimeout _ _
  · exact absurd rfl hcmd
  · exact Undecided.step rfl fun _ =>
      .ite (undecided_ret nofun) (undecided_checkScanTimeout _ _)

theorem undecided_selected (index : Nat) : Undecided seen (selected index) :=
  Undecided.step rfl fun _ => (lenient_vTaskDelay _).undecided fun _ =>
    Undecided.step rfl fun _ => (lenient_setState _ _ _).undecided fun _ =>
      (lenient_xSemaphoreTake _ _).undecided fun _ =>
        (lenient_espHidhDevOpen _ _ _).undecided fun _ => Undecided.step rfl fun _ =>
          Undecided.step rfl fun _ => undecided_ret nofun

/-- **Only `do_pair` clears the store without a decision of its own.** -/
theorem undecided_kbdMainTask {l : Label} (hl : l ≠ .doPair) :
    Undecided seen (kbdMainTask l) := by
  cases l with
  | top => exact undecided_top
  | reconnecting => exact Undecided.step rfl fun _ => undecided_ret nofun
  | waitForStartPairing site deadline => exact undecided_waitForStartPairing site deadline
  | tryReconnect => exact undecided_tryReconnect
  | bondedWait deadline => exact undecided_bondedWait deadline
  | reconnectFailed =>
    exact Undecided.step rfl fun _ => Undecided.step rfl fun _ =>
      Undecided.step rfl fun _ => Undecided.step rfl fun _ => undecided_ret nofun
  | doPair => exact absurd rfl hl
  | restartScan =>
    exact Undecided.step rfl fun _ => .ite
      ((lenient_vTaskDelay _).undecided fun _ => undecided_ret nofun)
      (Undecided.step rfl fun _ => undecided_ret nofun)
  | scanning scanStart lastUpdate => exact undecided_scanning scanStart lastUpdate
  | selected index => exact undecided_selected index
  | connecting deadline => exact undecided_connecting deadline
  | connected =>
    exact (lenient_setState _ _ _).undecided fun _ => Undecided.step rfl fun _ =>
      Undecided.step rfl fun _ => undecided_ret nofun
  | connectedWait => exact undecided_connectedWait

end Undecided

/-! ## `force_repair` -/

/-- With `force_repair` set, `do_pair` is entered at once. -/
def Entering : Prog Label → Prop
  | .ret l => l = .top ∨ l = .doPair
  | .op o k => o = .clearForceRepair ∨
      (o = .look ∨ o = .storeCount) ∧ ∀ c s, s.kbd.cfg.forceRepair = true → Entering (k c s)

theorem entering_kbdMainTask {l : Label} (h : l = .top ∨ l = .doPair) :
    Entering (kbdMainTask l) := by
  rcases h with rfl | rfl
  · refine .inr ⟨.inr rfl, fun c s _ => .inr ⟨.inl rfl, fun c' s' hforce => ?_⟩⟩
    simp only [Task.ret_bind, hforce, Bool.not_true, Bool.false_and]
    exact .inr rfl
  · exact .inl rfl

/-- What a move adds to the trace. -/
theorem step_trace {m : Move Choice Event} {c c' : HostConfig} (h : host.step m c = some c') :
    ∃ l, c'.state.trace = l ++ c.state.trace ∧
      (.storeClear ∈ l → AtClear c ∧ c'.state.radio.ourSec = []) := by
  rcases m with ch | e
  · rcases System.step_main_cases h with ⟨l, -, -, rfl⟩ | ⟨o, k, htask, hlive, -, rfl⟩
    · exact ⟨[], rfl, nofun⟩
    · have hview := congrArg View.trace (exec_view o ch c.state)
      refine ⟨_, hview.trans (View.exec_trace o ch c.state.view), fun hmem => ?_⟩
      obtain rfl := View.noted_origin (Option.mem_toList.mp hmem)
      exact ⟨⟨live_iff.mp hlive, k, htask⟩, rfl⟩
  · obtain ⟨-, -, henv⟩ := System.step_env_cases h
    obtain ⟨l, htrace, hby⟩ := (eventStep_view henv).records
    exact ⟨l, htrace, fun hmem => (hby _ hmem).elim⟩

theorem Forced.step {cfg : KbdConfig} {m : Move Choice Event} {c c' : HostConfig}
    (h : Forced cfg c) (hstep : host.step m c = some c')
    (hclear : AtClear c → c'.state.radio.ourSec ≠ []) : Forced cfg c' := by
  obtain ⟨l, htrace, hl⟩ := step_trace hstep
  refine ⟨h.1, fun hmem => ?_⟩
  rw [htrace] at hmem
  rcases List.mem_append.mp hmem with hmem | hmem
  · exact hclear (hl hmem).1 (hl hmem).2
  · exact h.2 hmem

/-- While `force_repair` is set, the store was not cleared. -/
theorem forced_of_forceRepair {cfg : KbdConfig} {bonds : List (Bda × UInt8)} {c : HostConfig}
    (h : Reach host .free (boot cfg bonds) c) (hforce : c.state.kbd.cfg.forceRepair = true) :
    Entering c.task ∧ Forced cfg c := by
  induction h with
  | start => exact ⟨.inl rfl, hforce, nofun⟩
  | @step m c c' _ _ hstep ih =>
    rcases m with ch | e
    · rcases System.step_main_cases hstep with
        ⟨l, htask, -, rfl⟩ | ⟨o, k, htask, -, -, rfl⟩
      · obtain ⟨hentering, hforced⟩ := ih hforce
        rw [htask] at hentering
        exact ⟨entering_kbdMainTask hentering, hforced⟩
      · have hcfg := congrArg (fun v => v.kbd.cfg) (exec_view o ch c.state)
        have hcfg' := hcfg.trans (View.exec_cfg o ch c.state.view)
        by_cases ho : o = .clearForceRepair
        · subst ho
          cases hforce
        have hbefore : c.state.kbd.cfg.forceRepair = true := by
          refine (congrArg KbdConfig.forceRepair (hcfg'.trans ?_)).symm.trans hforce
          cases o <;> first | rfl | exact absurd rfl ho
        obtain ⟨hentering, hforced⟩ := ih hbefore
        rw [htask] at hentering
        obtain ⟨hop, hnext⟩ := hentering.resolve_left ho
        refine ⟨hnext ch c.state hbefore, ?_⟩
        rcases hop with rfl | rfl <;> exact hforced
    · obtain ⟨-, htask, henv⟩ := System.step_env_cases hstep
      have hcfg : c'.state.kbd.cfg = c.state.kbd.cfg := (eventStep_view henv).cfg
      obtain ⟨hentering, hforced⟩ := ih (hcfg ▸ hforce)
      refine ⟨htask ▸ hentering, hforced.step hstep ?_⟩
      rintro ⟨-, k, hclear⟩ -
      rw [hclear] at hentering
      rcases hentering with h | ⟨h | h, -⟩ <;> cases h

/-! ## The invariant -/

/-- The bond is in the store, and the main task is not on its way to clear it unasked. -/
structure BondKept (cfg : KbdConfig) (peer : Bda) (c₂ c : HostConfig) : Prop where
  held : peer ∈ c.state.radio.ourSec
  later : ∃ l, c.state.trace = l ++ c₂.state.trace
  asked : RepairedSince c₂ c ∨ Open cfg c

variable {cfg : KbdConfig} {bonds : List (Bda × UInt8)} {peer : Bda} {c₂ c c' : HostConfig}

theorem requested_exec {o : Op} (ch : Choice) (s : Sys) (ho : o.receives = false) :
    (o.exec ch s).requested = s.requested := by
  have hqueue := congrArg (fun v => v.kbd.cmdQueue) (exec_view o ch s)
  have hsame : (o.exec ch s).kbd.cmdQueue = s.kbd.cmdQueue := by
    refine (hqueue.trans (View.exec_cmdQueue o ch s.view)).trans ?_
    cases o <;> first | rfl | cases ho
  rw [Sys.requested, hsame, Sys.requested]

theorem requested_env {e : Event} {s s' : Sys} (h : eventStep e s = some s')
    (hs : s.requested = true) : s'.requested = true := by
  have hqueue : s'.kbd.cmdQueue = _ := (eventStep_view h).cmdQueue
  have hsend : ∀ cmd, ((s.kbd.cmdQueue.send cmd).items.head? == some .startPairing) = true := by
    intro cmd
    have hhead : s.kbd.cmdQueue.items.head? = some .startPairing := beq_iff_eq.mp hs
    rw [BoundedQueue.items_send]
    split
    · rw [List.head?_append, hhead]
      rfl
    · exact hs
  rw [Sys.requested, hqueue]
  cases e with
  | startPairing | selectDevice _ => exact hsend _
  | _ => exact hs

/-- **One move.** -/
theorem BondKept.step {m : Move Choice Event} (h : BondKept cfg peer c₂ c)
    (hforce : c.state.kbd.cfg.forceRepair = true → Forced cfg c) (hkeeps : KeepsBond peer m c)
    (hsucceeds : Succeeds m c) (hstep : host.step m c = some c') : BondKept cfg peer c₂ c' := by
  obtain ⟨before, hbefore⟩ := h.later
  obtain ⟨l, htrace, -⟩ := step_trace hstep
  have hlater : c'.state.trace = (l ++ before) ++ c₂.state.trace := by
    rw [htrace, hbefore, List.append_assoc]
  refine ⟨hkeeps c' hstep, ⟨_, hlater⟩, ?_⟩
  have hforced : Forced cfg c → Forced cfg c' :=
    fun hforced => hforced.step hstep fun _ => List.ne_nil_of_mem (hkeeps c' hstep)
  rcases h.asked with ⟨l', hl', hmem⟩ | hforced' | hundecided
  · refine .inl ⟨l ++ l', ?_, List.mem_append_right _ hmem⟩
    rw [htrace, hl', List.append_assoc]
  · exact .inr (.inl (hforced hforced'))
  rcases m with ch | e
  · rcases System.step_main_cases hstep with ⟨l, hret, -, rfl⟩ | ⟨o, k, hop, -, -, rfl⟩
    · rw [hret] at hundecided
      exact .inr (.inr (undecided_kbdMainTask hundecided))
    · rw [hop] at hundecided
      rcases hundecided.2 ch c.state id with hdecides | hnext
      · cases o with
        | receiveCmd since ticks =>
          refine .inl ⟨.repair :: before, ?_, List.mem_cons_self⟩
          have hhead : c.state.kbd.cmdQueue.items.head? = some .startPairing :=
            beq_iff_eq.mp hdecides
          change (c.state.kbd.cmdQueue.items.head?.map KbdCmd.obs).toList ++ c.state.trace = _
          rw [hhead, hbefore]
          rfl
        | storeCount =>
          obtain ⟨htop, hmissed⟩ := hdecides
          rcases hmissed with hfails | hnone
          · exact absurd (hsucceeds.counts ch rfl (hop.trans htop)) hfails
          · exact absurd hnone (List.ne_nil_of_mem h.held)
        | takeConnected =>
          obtain ⟨hdecide, hrefused⟩ := hdecides
          cases hrefused.symm.trans (hsucceeds.connects ch rfl (hop.trans hdecide))
        | look => exact .inr (.inl (hforced (hforce hdecides)))
        | _ => exact hdecides.elim
      · refine .inr (.inr ?_)
        cases ho : o.receives with
        | true =>
          rw [ho] at hnext
          exact hnext.of_not_seen
        | false =>
          rw [ho] at hnext
          change Undecided (o.exec ch c.state).requested (k ch c.state)
          rw [requested_exec ch _ ho]
          exact hnext
  · obtain ⟨-, htask, henv⟩ := System.step_env_cases hstep
    refine .inr (.inr ?_)
    rw [htask]
    cases hs : c.state.requested with
    | false =>
      rw [hs] at hundecided
      exact hundecided.of_not_seen
    | true =>
      rw [hs] at hundecided
      rw [requested_env henv hs]
      exact hundecided

/-! ## The result -/

variable {c₀ : HostConfig}

theorem Stored.reach (h : Stored c₀ peer c₂) : Reach host .free c₀ c₂ := by
  cases h with
  | boot _ => exact .start
  | bonded hreach hstep => exact .step hreach rfl hstep

theorem Stored.held (h : Stored c₀ peer c₂) : peer ∈ c₂.state.radio.ourSec := by
  cases h with
  | boot hmem => exact hmem
  | bonded _ hstep =>
    obtain ⟨-, -, henv⟩ := System.step_env_cases hstep
    rw [← Option.some.inj henv]
    exact List.mem_append_right _ List.mem_cons_self

/-- **No bond is erased unasked**, if it is stored while the main task is not on its way to clear
the store, and as long as the bonds are counted at the top and connection attempts succeed. -/
theorem erasedIfAsked_of_succeeds (hstored : Stored (boot cfg bonds) peer c₂)
    (hopen : Open cfg c₂) (h : Along host (fun m c => KeepsBond peer m c ∧ Succeeds m c) c₂ c) :
    ErasedIfAsked cfg c₂ c := by
  have hkept : BondKept cfg peer c₂ c := by
    refine h.invariant (J := fun c => Reach host .free (boot cfg bonds) c)
      (fun _ => hstored.reach.trans_along) ⟨hstored.held, ⟨[], rfl⟩, .inr hopen⟩ ?_
    intro m c c' hreach hkept hm hstep
    exact hkept.step (fun hforce => (forced_of_forceRepair hreach hforce).2) hm.1 hm.2 hstep
  rintro ⟨-, k, hclear⟩
  rcases hkept.asked with hrepaired | hforced | hundecided
  · exact .inl hrepaired
  · exact .inr hforced
  · rw [hclear] at hundecided
    cases hundecided.1

/-! ## Runs -/

instance (peer : Bda) (m : Move Choice Event) (c : HostConfig) : Decidable (KeepsBond peer m c) :=
  decidable_of_iff ((host.step m c).all fun c' => decide (peer ∈ c'.state.radio.ourSec)) <| by
    cases h : host.step m c <;> simp [KeepsBond, h]

/-- Every count succeeds, and every test of `s_connected_sem` finds it given. -/
def smooth (m : Move Choice Event) (c : HostConfig) : Bool :=
  match m, c.task with
  | .main ch, .op .storeCount _ => ch.rc == 0
  | .main _, .op .takeConnected _ => c.state.kbd.connectedSem
  | _, _ => true

theorem succeeds_of_smooth {m : Move Choice Event} {c : HostConfig} (h : smooth m c = true) :
    Succeeds m c where
  counts ch hm htask := by
    subst hm
    unfold smooth at h
    rw [htask] at h
    exact beq_iff_eq.mp h
  connects ch hm htask := by
    subst hm
    unfold smooth at h
    rw [htask] at h
    exact h

/-- `ble_store_clear` comes next, and no request was taken. -/
def clearing (repaired : Bool) (c : HostConfig) : Bool :=
  c.state.fault.isNone && (c.state.trace.contains .repair == repaired) &&
    match c.task with
    | .op .storeClear _ => true
    | _ => false

theorem atClear_of_clearing {c : HostConfig} {repaired : Bool} (h : clearing repaired c = true) :
    AtClear c ∧ c.state.trace.contains .repair = repaired := by
  simp only [clearing, Bool.and_eq_true] at h
  obtain ⟨⟨hlive, hrepaired⟩, htask⟩ := h
  refine ⟨⟨Option.isNone_iff_eq_none.mp hlive, ?_⟩, beq_iff_eq.mp hrepaired⟩
  split at htask
  · exact ⟨_, ‹_›⟩
  · cases htask

/-- With a bond from an earlier boot, the store is cleared after a request. -/
theorem erasedIfAsked_repaired : ∃ c, Along host (fun m c => KeepsBond 9 m c ∧ Succeeds m c)
    (boot {} [(9, 0)]) c ∧ AtClear c ∧ ErasedIfAsked {} (boot {} [(9, 0)]) c := by
  let p : Move Choice Event → HostConfig → Bool := fun m c => decide (KeepsBond 9 m c) && smooth m c
  have hany : (host.follow p ([.env .startPairing] ++ mains 14) (boot {} [(9, 0)])).any
      (clearing true) = true := by decide +kernel
  obtain ⟨c, hrun, hclear⟩ := (Option.any_eq_true _ _).mp hany
  have halong : Along host (fun m c => KeepsBond 9 m c ∧ Succeeds m c) (boot {} [(9, 0)]) c := by
    refine .of_follow (fun m c hm => ?_) hrun
    obtain ⟨hkeeps, hsmooth⟩ := Bool.and_eq_true_iff.mp hm
    exact ⟨of_decide_eq_true hkeeps, succeeds_of_smooth hsmooth⟩
  refine ⟨c, halong, (atClear_of_clearing hclear).1, ?_⟩
  exact erasedIfAsked_of_succeeds (.boot (by decide)) (.inr nofun) halong

/-- The link of a selected device is up, and security is under way. -/
def securingRun : List (Move Choice Event) :=
  scanRun 7 ++ selectRun ++ mains 4 ++ [.env (.connected 5 7 7)] ++ mains 6 ++ [.env (.encChange 5 0)]

/-- Discovery, then the open event and at once the close event. -/
def dropRun : List (Move Choice Event) :=
  mains 2 ++ [.env (.gattCb 0 .done)] ++ mains 17 ++ List.replicate 4 (.env .dispatch) ++
  [.env (.disconnected 5 0)] ++ List.replicate 3 (.env .dispatch) ++ mains 5 ++ [.env (.tick 100)] ++
  mains 3

/-- Pairing stores the bond, then the link is lost: the store is cleared, although no request was
made. -/
theorem not_erasedIfAsked_dropped : ∃ c₂ c, Stored (boot {} []) 9 c₂ ∧
    Along host (KeepsBond 9) c₂ c ∧ ¬ErasedIfAsked {} c₂ c := by
  obtain ⟨c₁, hrun₁, hnext⟩ := exists_run .free securingRun (boot {} [])
    (fun c₁ => (host.step (.env (.bonded 9 0)) c₁).any fun c₂ =>
      (host.follow (fun m c => decide (KeepsBond 9 m c)) dropRun c₂).any (clearing false))
    (by decide +kernel)
  obtain ⟨c₂, hbonded, hnext⟩ := (Option.any_eq_true _ _).mp hnext
  obtain ⟨c, hrun, hclear⟩ := (Option.any_eq_true _ _).mp hnext
  obtain ⟨hclear, hunasked⟩ := atClear_of_clearing hclear
  refine ⟨c₂, c, .bonded (.of_run hrun₁) hbonded,
    .of_follow (fun m c hm => of_decide_eq_true hm) hrun, fun herased => ?_⟩
  rcases herased hclear with ⟨l, htrace, hmem⟩ | ⟨hforce, -⟩
  · rw [htrace, List.contains_eq_mem, decide_eq_false_iff_not] at hunasked
    exact hunasked (List.mem_append_left _ hmem)
  · cases hforce

end BleKbdHost.Host
