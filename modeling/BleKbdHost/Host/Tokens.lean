import BleKbdHost.Host.Frame

/-!
# What a wait for a callback waits for

The callback semaphore, the outstanding GATT requests and the connection attempt under way. There
is at most one of them at a time, and none unless the main task is about to wait for a callback.
-/

namespace BleKbdHost.Host

open Hid Keys Conc

/-- The semaphore and what will give it. -/
structure Waits where
  cb : Bool
  gatt : List GattReq
  connecting : Option Bda
  deriving DecidableEq

def Sys.waits (s : Sys) : Waits := ⟨s.nimble.cbSemaphore, s.radio.gatt, s.radio.connecting⟩

/-- How many of them there are. -/
def Waits.tokens (w : Waits) : Nat :=
  w.cb.toNat + w.gatt.length + w.connecting.isSome.toNat

/-! ## Operations -/

/-- A GATT request, outstanding if it is accepted. -/
def Waits.request (w : Waits) (c : Choice) (req : GattReq) : Waits :=
  if c.rc = 0 then { w with gatt := w.gatt ++ [req] } else w

/-- What an operation does to the waits. -/
def Sys.waitsAfter (s : Sys) (c : Choice) : Op → Waits
  | .drainCb | .waitCb => { s.waits with cb := false }
  | .gapConnect _ d =>
    match s.dev? d with
    | none => s.waits
    | some dev =>
      if connectAccepted c s dev.bda then { s.waits with connecting := some dev.bda } else s.waits
  | .discAllSvcs d => s.waits.request c (.services (s.connHandle d))
  | .discAllChrs d startHandle endHandle =>
    s.waits.request c (.chrs (s.connHandle d) startHandle endHandle)
  | .discAllDscs d startHandle endHandle =>
    s.waits.request c (.dscs (s.connHandle d) startHandle endHandle)
  | .readLong d handle _ => s.waits.request c (.read (s.connHandle d) handle)
  | .writeFlat conn handle value => s.waits.request c (.write conn handle value conn)
  | _ => s.waits

theorem absorb_waits {α : Type} {s : Sys} {r : Except Fault α} {f : α → Sys}
    (h : ∀ a, (f a).waits = s.waits) : (s.absorb r f).waits = s.waits := by
  cases r with
  | ok a => exact h a
  | error _ => rfl

theorem exec_waits (o : Op) (c : Choice) (s : Sys) : (o.exec c s).waits = s.waitsAfter c o := by
  cases o with
  | awaitDisconnect _ _ | peekCmd _ | emitKey _ | gapDisc | devMalloc _ _ | reconnectReturns _
  | assertStatus | mallocReportMaps _ | mallocProtocolMode _ =>
    simp only [Op.exec]
    split <;> rfl
  | gapConnect kind d =>
    simp only [Op.exec, Sys.waitsAfter]
    cases s.dev? d with
    | none => rfl
    | some dev =>
      by_cases haccept : connectAccepted c s dev.bda = true
      · simp only [haccept]
        rfl
      · simp only [haccept, Bool.false_eq_true, ↓reduceIte]
        rfl
  | readConnId kind d =>
    simp only [Op.exec]
    split <;> rfl
  | discAllSvcs _ | discAllChrs _ _ _ | discAllDscs _ _ _ | readLong _ _ _ | writeFlat _ _ _ =>
    simp only [Op.exec, Sys.waitsAfter, Waits.request, Sys.request, Sys.waits, Sys.setAwaiting,
      Sys.setStage, Sys.log]
    split <;> rfl
  | readSvc _ | readChr _ | readDefHandle _ | readDsc _ | readReportMap _ _ =>
    exact absorb_waits fun _ => rfl
  | setField d field =>
    simp only [Op.exec]
    split
    · rfl
    · exact absorb_waits fun _ => rfl
  | freeBuf buf => cases buf <;> rfl
  | parseReportMap data =>
    cases data with
    | none => rfl
    | some buf =>
      simp only [Op.exec]
      split
      · rfl
      · exact absorb_waits fun _ => rfl
  | _ => rfl

/-! ## GATT callbacks -/

theorem store_waits {α : Type} {s s₀ : Sys} {arr : List (Option α)} {i : Nat} {a : α}
    {f : List (Option α) → Sys} (hs : s.waits = s₀.waits) (h : ∀ arr, (f arr).waits = s₀.waits) :
    (s.store arr i a f).waits = s₀.waits := by
  unfold Sys.store
  split
  · exact h _
  · exact hs

theorem svcDisced_waits (s : Sys) (conn : UInt16) (svc : GattSvc) :
    (svcDisced s conn svc).waits = s.waits := by
  refine store_waits rfl fun arr => ?_
  simp only
  split
  · rfl
  · split <;> rfl

/-- What the end of a request does: the request is gone, and its callback gives the semaphore. -/
def Waits.ended (w : Waits) (i : Nat) (given : Bool) : Waits :=
  { w with cb := w.cb || given, gatt := w.gatt.eraseIdx i }

/-- Whether the terminal callback of a request gives the semaphore. That of a long read does not on
an error, and must have been preceded by data. -/
def Sys.gives (s : Sys) : GattReq → GattRsp → Bool
  | .read _ _, .done => s.nimble.readDataVal.isSome
  | .read _ _, _ => false
  | .write conn _ _ arg, _ => arg == conn
  | _, _ => true

theorem Sys.gives_of_discovers (s : Sys) {req : GattReq} (h : req.discovers = true)
    (rsp : GattRsp) : s.gives req rsp = true := by
  cases req with
  | services _ | chrs _ _ _ | dscs _ _ _ => rfl
  | read _ _ | write _ _ _ _ => cases h

/-- **A GATT callback either leaves the waits alone or ends its request.** -/
theorem gattCb_waits {s s' : Sys} {i : Nat} {rsp : GattRsp} (h : gattCb s i rsp = some s') :
    ∃ req, s.radio.gatt[i]? = some req ∧
      s'.waits = if rsp.terminal then s.waits.ended i (s.gives req rsp) else s.waits := by
  cases gattCb_cases h with
  | svc svc hreq => exact ⟨_, hreq, svcDisced_waits ..⟩
  | chr _ hreq | dsc _ hreq => exact ⟨_, hreq, store_waits rfl fun _ => rfl⟩
  | found hreq hdisc | lost hreq hdisc _ =>
    refine ⟨_, hreq, ?_⟩
    simp [s.gives_of_discovers hdisc, Sys.waits, Waits.ended, discEnded, GattRsp.terminal]
  | data bytes hreq =>
    refine ⟨_, hreq, ?_⟩
    simp only [onReadData, GattRsp.terminal, Bool.false_eq_true, ↓reduceIte]
    split <;> rfl
  | read hreq =>
    refine ⟨_, hreq, ?_⟩
    simp only [onReadDone, GattRsp.terminal, Sys.gives, ↓reduceIte]
    split <;> simp_all [Sys.waits, Waits.ended]
  | unread hreq hstatus =>
    exact ⟨_, hreq, by simp [onReadError, GattRsp.terminal, Sys.gives, Sys.waits, Waits.ended]⟩
  | written hreq hrsp =>
    refine ⟨_, hreq, ?_⟩
    simp only [onWrite, hrsp, Sys.gives, ↓reduceIte]
    split <;> simp_all [Sys.waits, Waits.ended]

/-! ## Events -/

theorem linkUp_waits {s : Sys} (link : Link) :
    (connectEvent s link).waits = { s.waits with cb := true, connecting := none } := by
  simp only [connectEvent]
  split <;> rfl

theorem disconnectEvent_waits (s : Sys) (link : Link) (reason : Int) :
    (disconnectEvent s link reason).waits = s.waits := by
  simp only [disconnectEvent]
  split
  · rfl
  · split <;> rfl

theorem HidhStep.exec_waits (s : Sys) (step : HidhStep) : (step.exec s).waits = s.waits := by
  cases step <;> rfl

theorem handling_waits (s : Sys) (p : Posted) (steps : List HidhStep) :
    (s.handling p steps).waits = s.waits := by
  cases steps <;> rfl

theorem dispatch_waits {s s' : Sys} (h : dispatch s = some s') : s'.waits = s.waits := by
  unfold dispatch at h
  split at h
  · cases h
    rw [handling_waits, HidhStep.exec_waits]
  · cases h
    rw [handling_waits]
  · split at h
    · cases h
    · cases h
      rw [handling_waits]
      rfl

/-- What an event does to the waits: the end of a request, the result of a connection attempt, or
nothing. -/
inductive Waits.Effect (s : Sys) : Event → Waits → Prop
  | gattCb (i : Nat) (rsp : GattRsp) (req : GattReq) (h : s.radio.gatt[i]? = some req) :
      Effect s (.gattCb i rsp)
        (if rsp.terminal then s.waits.ended i (s.gives req rsp) else s.waits)
  | connection {e : Event} (h : s.radio.connecting.isSome = true) :
      Effect s e { s.waits with cb := true, connecting := none }
  | other {e : Event} (h : ∀ i rsp, e ≠ .gattCb i rsp) : Effect s e s.waits

/-- No event requests anything. -/
theorem Waits.Effect.gatt_subset {s : Sys} {e : Event} {w : Waits} (h : Waits.Effect s e w) :
    w.gatt ⊆ s.waits.gatt := by
  cases h with
  | gattCb i rsp req _ =>
    split
    · exact List.eraseIdx_subset
    · exact List.Subset.refl _
  | connection _ | other _ => exact List.Subset.refl _

theorem eventStep_waits {e : Event} {s s' : Sys} (h : eventStep e s = some s') :
    Waits.Effect s e s'.waits := by
  cases e with
  | gattCb i rsp =>
    obtain ⟨req, hreq, hwaits⟩ := gattCb_waits h
    rw [hwaits]
    exact .gattCb i rsp req hreq
  | connected handle ota identity =>
    simp only [eventStep, gapConnected] at h
    split at h
    · cases h
    · rename_i peer hpeer
      split at h
      · cases h
      · cases h
        rw [linkUp_waits]
        exact .connection (by rw [hpeer]; rfl)
  | connectFailed status =>
    simp only [eventStep, gapConnectFailed, Option.ite_none_right_eq_some, Option.some.injEq,
      Bool.and_eq_true] at h
    obtain ⟨⟨hsome, -⟩, rfl⟩ := h
    exact .connection hsome
  | disconnected handle reason =>
    simp only [eventStep, gapDisconnected] at h
    split at h
    · cases h
    · split at h
      · cases h
      · cases h
        rw [disconnectEvent_waits]
        exact .other (by simp)
  | advertised report =>
    simp only [eventStep, Option.ite_none_right_eq_some, Option.some.injEq] at h
    obtain ⟨-, rfl⟩ := h
    exact .other (by simp)
  | encChange handle status =>
    simp only [eventStep, gapEncChange, Option.ite_none_right_eq_some, Option.some.injEq] at h
    obtain ⟨-, rfl⟩ := h
    exact .other (by simp)
  | repeatPairing handle =>
    simp only [eventStep, gapRepeatPairing] at h
    split at h
    · cases h
    · cases h
      exact .other (by simp)
  | notifyRx handle attr data mem =>
    obtain rfl | ⟨fault, _, -, rfl⟩ | ⟨dev, event, -, -, -, -, rfl⟩ := gapNotifyRx_cases h <;>
      exact .other (by simp)
  | mtuExchanged handle =>
    simp only [eventStep, gapMtuExchanged, Option.ite_none_right_eq_some, Option.some.injEq] at h
    obtain ⟨-, rfl⟩ := h
    exact .other (by simp)
  | dispatch =>
    rw [dispatch_waits h]
    exact .other (by simp)
  | tick _ | startPairing | selectDevice _ | bonded _ _ =>
    cases h
    exact .other (by simp)

/-! ## The invariant -/

/-- At most one token, and none unless the main task is about to wait. -/
def TokenBound (s : Sys) : Prop := s.waits.tokens ≤ s.ctl.awaiting.toNat

theorem tokens_eq_zero {s : Sys} (h : TokenBound s) (hawait : s.ctl.awaiting = false) :
    s.nimble.cbSemaphore = false ∧ s.radio.gatt = [] ∧ s.radio.connecting = none := by
  have h' : s.waits.tokens ≤ 0 := by
    unfold TokenBound at h
    rwa [hawait] at h
  simpa [Waits.tokens, Sys.waits, and_assoc] using h'

/-- With the semaphore given, nothing else is outstanding. -/
theorem TokenBound.of_given {s : Sys} (h : TokenBound s) (hgiven : s.nimble.cbSemaphore = true) :
    s.radio.gatt = [] ∧ s.radio.connecting = none := by
  have h' : s.waits.tokens ≤ 1 := Nat.le_trans h (Bool.toNat_le _)
  have hzero : s.radio.gatt.length + s.radio.connecting.isSome.toNat ≤ 0 := by
    simp only [Waits.tokens, Sys.waits, hgiven, Bool.toNat_true] at h'
    omega
  simpa using hzero

/-- A request when nothing is outstanding. -/
theorem tokens_request {s : Sys} (h : TokenBound s) (hawait : s.ctl.awaiting = false) (c : Choice)
    (req : GattReq) : (s.waits.request c req).tokens = (c.rc == 0).toNat := by
  obtain ⟨hcb, hgatt, hconnecting⟩ := tokens_eq_zero h hawait
  by_cases hrc : c.rc = 0
  · simp [Waits.request, Waits.tokens, Sys.waits, hcb, hgatt, hconnecting, hrc]
  · rw [beq_eq_false_iff_ne.mpr hrc]
    simp [Waits.request, Waits.tokens, Sys.waits, hcb, hgatt, hconnecting, hrc]

/-- **An operation keeps the bound.** -/
theorem TokenBound.exec {s : Sys} {o : Op} {c : Choice} (h : TokenBound s)
    (hready : o.ready s = true) (hat : o.At s.ctl) : TokenBound (o.exec c s) := by
  have hctl : (o.exec c s).ctl.awaiting = s.view.nextAwaiting o c := by
    rw [exec_ctl, View.exec_awaiting]
  unfold TokenBound
  rw [exec_waits, hctl]
  cases o with
  | drainCb =>
    refine Nat.le_trans ?_ h
    simp [Sys.waitsAfter, Waits.tokens]
  | waitCb =>
    obtain ⟨hgatt, hconnecting⟩ := h.of_given hready
    simp [Sys.waitsAfter, Waits.tokens, Sys.waits, hgatt, hconnecting]
  | gapConnect kind d =>
    obtain ⟨hcb, hgatt, hconnecting⟩ := tokens_eq_zero h hat.2
    simp only [Sys.waitsAfter, View.nextAwaiting, key?_view]
    cases hdev : s.dev? d with
    | none => simp [Waits.tokens, Sys.waits, hcb, hgatt, hconnecting]
    | some dev =>
      by_cases haccept : connectAccepted c s dev.bda = true <;>
        simp [Waits.tokens, Sys.waits, Dev.key, accepts_view, hcb, hgatt, hconnecting, haccept]
  | discAllSvcs _ | discAllChrs _ _ _ | discAllDscs _ _ _ | writeFlat _ _ _ =>
    simp only [Sys.waitsAfter, View.nextAwaiting, tokens_request h hat.2]
    exact Bool.toNat_le _
  | readLong _ _ _ =>
    simp only [Sys.waitsAfter, View.nextAwaiting, tokens_request h hat.2]
    exact Nat.le_refl _
  | _ => exact h

theorem Waits.tokens_ended {w : Waits} {i : Nat} (hi : i < w.gatt.length) (given : Bool) :
    (w.ended i given).tokens + 1 = w.tokens + (given && !w.cb).toNat := by
  simp only [ended, tokens, List.length_eraseIdx_of_lt hi]
  cases w.cb <;> cases given <;> simp <;> omega

/-- An event gives no more than it takes. -/
theorem Waits.Effect.tokens_le {s : Sys} {e : Event} {w : Waits} (h : Waits.Effect s e w) :
    w.tokens ≤ s.waits.tokens := by
  cases h with
  | gattCb i rsp req hreq =>
    have hi : i < s.waits.gatt.length := (List.getElem?_eq_some_iff.mp hreq).1
    have hended := Waits.tokens_ended hi (s.gives req rsp)
    have hgiven := Bool.toNat_le (s.gives req rsp && !s.waits.cb)
    split <;> omega
  | connection hsome =>
    simp only [Waits.tokens, Sys.waits, hsome, Bool.toNat_true, Option.isSome_none, Bool.toNat_false]
    omega
  | other _ => exact Nat.le_refl _

/-- **An event keeps the bound.** -/
theorem TokenBound.event {s s' : Sys} {e : Event} (h : TokenBound s)
    (hstep : eventStep e s = some s') : TokenBound s' := by
  unfold TokenBound
  rw [eventStep_ctl hstep]
  exact Nat.le_trans (eventStep_waits hstep).tokens_le h

theorem tokenBound {g : Guard Op Choice Sys Event} {cfg : KbdConfig}
    {bonds : List (Bda × UInt8)} {c : HostConfig} (h : Reach host g (boot cfg bonds) c) :
    TokenBound c.state :=
  reach_keeps h (Nat.le_refl _) (fun _ _ _ hinv _ hready _ hat => hinv.exec hready hat)
    fun _ _ _ hinv _ _ hstep => hinv.event hstep

end BleKbdHost.Host
