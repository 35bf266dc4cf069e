import BleKbdHost.Host.Tokens

/-!
# Waiters and wakers

Whether the main task, where it waits for the callback semaphore, has something that will give it.
A refused discovery or write request is waited for all the same, and the callback of a long read
does not give the semaphore on an error; without those, a waiter always has its waker.
-/

namespace BleKbdHost.Host

open Hid Keys Conc

/-! ## The property -/

/-- The terminal callbacks of the `i`-th outstanding request. -/
def Event.ends (i : Nat) : Event → Bool
  | .gattCb j rsp => j == i && rsp.terminal
  | _ => false

/-- The results of a connection attempt. -/
def Event.connectResult : Event → Bool
  | .connected _ _ _ | .connectFailed _ => true
  | _ => false

/-- Each of these events, as far as the guard admits it, gives the semaphore. -/
def Wakes (g : Guard Op Choice Sys Event) (s : Sys) (p : Event → Bool) : Prop :=
  ∀ e s', p e = true → g.env e s = true → eventStep e s = some s' → s'.nimble.cbSemaphore = true

/-- Where the main task waits for a callback, the semaphore is given, or an accepted request is
outstanding whose end gives it. -/
def WaiterServed (g : Guard Op Choice Sys Event) (c : HostConfig) : Prop :=
  ∀ k, c.task = .op .waitCb k → c.state.fault = none →
    c.state.nimble.cbSemaphore = true ∨
    (∃ i req, c.state.radio.gatt[i]? = some req ∧ Wakes g c.state (Event.ends i)) ∨
    (c.state.radio.connecting.isSome = true ∧ Wakes g c.state Event.connectResult)

/-! ## The condition -/

/-- No discovery or write request is refused, and every long read gets data and ends without an
error. -/
def answered : Guard Op Choice Sys Event where
  main o c _ :=
    match o with
    | .discAllSvcs _ | .discAllChrs _ _ _ | .discAllDscs _ _ _ | .writeFlat _ _ _ => c.rc == 0
    | _ => true
  env e s :=
    match e with
    | .gattCb i rsp =>
      match s.radio.gatt[i]?, rsp with
      | some (.read _ _), .error _ => false
      | some (.read _ _), .done => s.nimble.readDataVal.isSome
      | _, _ => true
    | _ => true

/-! ## The invariant -/

/-- Exactly one token while a callback is awaited. -/
structure Served (s : Sys) : Prop where
  tokens : s.waits.tokens = s.ctl.awaiting.toNat
  writes : ∀ conn handle value arg, .write conn handle value arg ∈ s.radio.gatt → arg = conn

theorem Served.bound {s : Sys} (h : Served s) : TokenBound s := Nat.le_of_eq h.tokens

/-- An operation sends writes with their own connection as argument. -/
theorem exec_writes {s : Sys} {o : Op} {c : Choice}
    (h : ∀ conn handle value arg, .write conn handle value arg ∈ s.radio.gatt → arg = conn) :
    ∀ conn handle value arg, .write conn handle value arg ∈ (o.exec c s).radio.gatt →
      arg = conn := by
  have hrequest : ∀ req, (∀ conn handle value arg, req = .write conn handle value arg → arg = conn) →
      ∀ conn handle value arg, .write conn handle value arg ∈ (s.waits.request c req).gatt →
        arg = conn := by
    intro req hreq conn handle value arg hmem
    unfold Waits.request at hmem
    split at hmem
    · rcases List.mem_append.mp hmem with hmem | hmem
      · exact h conn handle value arg hmem
      · exact hreq conn handle value arg (List.mem_singleton.mp hmem).symm
    · exact h conn handle value arg hmem
  have hgatt : (o.exec c s).radio.gatt = (s.waitsAfter c o).gatt := congrArg Waits.gatt (exec_waits o c s)
  rw [hgatt]
  cases o with
  | gapConnect kind d =>
    simp only [Sys.waitsAfter]
    split
    · exact h
    · split <;> exact h
  | discAllSvcs _ | discAllChrs _ _ _ | discAllDscs _ _ _ | readLong _ _ _ => exact hrequest _ (by simp)
  | writeFlat conn handle value =>
    refine hrequest _ fun conn handle value arg heq => ?_
    cases heq
    rfl
  | _ => exact h

/-- **An admitted operation keeps the balance.** -/
theorem Served.exec {s : Sys} {o : Op} {c : Choice} (h : Served s) (hready : o.ready s = true)
    (hg : answered.main o c s = true) (hat : o.At s.ctl) : Served (o.exec c s) := by
  refine ⟨?_, exec_writes h.writes⟩
  have hctl : (o.exec c s).ctl.awaiting = s.view.nextAwaiting o c := by
    rw [exec_ctl, View.exec_awaiting]
  rw [exec_waits, hctl]
  cases o with
  | drainCb =>
    obtain ⟨hcb, -, -⟩ := tokens_eq_zero h.bound hat
    have hsame : s.waitsAfter c .drainCb = s.waits := by simp [Sys.waitsAfter, Sys.waits, hcb]
    rw [hsame]
    exact h.tokens
  | waitCb =>
    obtain ⟨hgatt, hconnecting⟩ := h.bound.of_given hready
    simp [Sys.waitsAfter, Waits.tokens, Sys.waits, View.nextAwaiting, hgatt, hconnecting]
  | gapConnect kind d =>
    obtain ⟨hcb, hgatt, hconnecting⟩ := tokens_eq_zero h.bound hat.2
    have hawait : s.view.ctl.awaiting = false := hat.2
    simp only [Sys.waitsAfter, View.nextAwaiting, key?_view]
    cases hdev : s.dev? d with
    | none => simp [Waits.tokens, Sys.waits, hcb, hgatt, hconnecting, hawait]
    | some dev =>
      by_cases haccept : connectAccepted c s dev.bda = true <;>
        simp [Waits.tokens, Sys.waits, Dev.key, accepts_view, hcb, hgatt, hconnecting, haccept,
          hawait]
  | discAllSvcs _ | discAllChrs _ _ _ | discAllDscs _ _ _ | writeFlat _ _ _ =>
    have hrc : (c.rc == 0) = true := hg
    simp only [Sys.waitsAfter, View.nextAwaiting, tokens_request h.bound hat.2, hrc]
  | readLong _ _ _ => simp only [Sys.waitsAfter, View.nextAwaiting, tokens_request h.bound hat.2]
  | _ => exact h.tokens

/-- An admitted terminal callback gives the semaphore. -/
theorem gives_of_answered {s : Sys} {i : Nat} {rsp : GattRsp} {req : GattReq} (h : Served s)
    (hreq : s.radio.gatt[i]? = some req) (hg : answered.env (.gattCb i rsp) s = true)
    (hterminal : rsp.terminal = true) : s.gives req rsp = true := by
  simp only [answered, hreq] at hg
  cases req with
  | read _ _ =>
    cases rsp with
    | done => exact hg
    | error _ => cases hg
    | _ => cases hterminal
  | write conn handle value arg =>
    have harg := h.writes conn handle value arg (List.mem_of_getElem? hreq)
    exact beq_iff_eq.mpr harg
  | _ => rfl

/-- **An admitted event keeps the balance.** -/
theorem Served.event {s s' : Sys} {e : Event} (h : Served s) (hg : answered.env e s = true)
    (hstep : eventStep e s = some s') : Served s' := by
  have hwaits := eventStep_waits hstep
  have hone : s.waits.tokens ≤ 1 := h.tokens ▸ Bool.toNat_le _
  suffices hs' : s'.waits.tokens = s.waits.tokens ∧
      ∀ req ∈ s'.waits.gatt, req ∈ s.waits.gatt by
    constructor
    · rw [eventStep_ctl hstep, hs'.1, h.tokens]
    · exact fun conn handle value arg hmem => h.writes conn handle value arg (hs'.2 _ hmem)
  generalize s'.waits = w at hwaits
  cases hwaits with
  | gattCb i rsp req hreq =>
    split
    · rename_i hterminal
      have hi : i < s.waits.gatt.length := (List.getElem?_eq_some_iff.mp hreq).1
      have hended := Waits.tokens_ended hi (s.gives req rsp)
      have hcb : s.waits.cb = false := by
        rw [Bool.eq_false_iff]
        intro hgiven
        simp only [Waits.tokens, hgiven, Bool.toNat_true] at hone
        omega
      rw [gives_of_answered h hreq hg hterminal] at hended ⊢
      simp only [hcb, Bool.not_false, Bool.and_self, Bool.toNat_true] at hended
      exact ⟨by omega, fun req hmem => List.mem_of_mem_eraseIdx hmem⟩
    · exact ⟨rfl, fun _ hmem => hmem⟩
  | connection hsome =>
    refine ⟨?_, fun _ hmem => hmem⟩
    simp only [Waits.tokens, Sys.waits, hsome, Bool.toNat_true, Option.isSome_none,
      Bool.toNat_false] at hone ⊢
    omega
  | other _ => exact ⟨rfl, fun _ hmem => hmem⟩

theorem served {cfg : KbdConfig} {bonds : List (Bda × UInt8)} {c : HostConfig}
    (h : Reach host answered (boot cfg bonds) c) : Served c.state :=
  reach_keeps h ⟨rfl, nofun⟩ (fun _ _ _ hinv _ hready hg hat => hinv.exec hready hg hat)
    fun _ _ _ hinv _ hg hstep => hinv.event hg hstep

/-! ## The result -/

/-- A connection attempt ends with the semaphore given. -/
theorem wakes_connectResult (g : Guard Op Choice Sys Event) (s : Sys) :
    Wakes g s Event.connectResult := by
  intro e s' he _ hstep
  have hwaits := eventStep_waits hstep
  cases e with
  | connected handle ota identity =>
    simp only [eventStep, gapConnected] at hstep
    split at hstep
    · cases hstep
    · split at hstep
      · cases hstep
      · cases hstep
        exact congrArg Waits.cb (linkUp_waits _)
  | connectFailed status =>
    simp only [eventStep, gapConnectFailed, Option.ite_none_right_eq_some] at hstep
    obtain ⟨-, hstep⟩ := hstep
    cases hstep
    rfl
  | _ => cases he

/-- A request ends with the semaphore given, if it is answered. -/
theorem Served.wakes_ends {s : Sys} (h : Served s) (i : Nat) :
    Wakes answered s (Event.ends i) := by
  intro e s' he hg hstep
  cases e with
  | gattCb j rsp =>
    obtain ⟨-, hterminal⟩ := Bool.and_eq_true_iff.mp he
    obtain ⟨req, hreq, hwaits⟩ := gattCb_waits hstep
    rw [if_pos hterminal, gives_of_answered h hreq hg hterminal] at hwaits
    have hcb := congrArg Waits.cb hwaits
    simpa [Waits.ended, Sys.waits] using hcb
  | _ => cases he

/-- **No waiter without a waker.** In every run in which no discovery or write request is refused
and every long read gets data and ends without an error, the main task waits for a callback only
while the semaphore is given or what will give it is outstanding. -/
theorem waiterServed_of_answered {cfg : KbdConfig} {bonds : List (Bda × UInt8)} {c : HostConfig}
    (h : Reach host answered (boot cfg bonds) c) : WaiterServed answered c := by
  intro k htask hlive
  have hinv := served h
  have hawait : c.state.ctl.awaiting = true := reach_op_at h hlive htask
  have hone : c.state.waits.tokens = 1 := by rw [hinv.tokens, hawait]; rfl
  rcases hcb : c.state.nimble.cbSemaphore with _ | _
  · right
    rcases hgatt : c.state.radio.gatt with _ | ⟨req, reqs⟩
    · right
      refine ⟨?_, wakes_connectResult _ _⟩
      cases hconnecting : c.state.radio.connecting with
      | some peer => rfl
      | none => simp [Waits.tokens, Sys.waits, hcb, hgatt, hconnecting] at hone
    · exact .inl ⟨0, req, by simp, hinv.wakes_ends 0⟩
  · exact .inl rfl

/-- A stronger guard keeps the wakers. -/
theorem WaiterServed.mono {g g' : Guard Op Choice Sys Event} {c : HostConfig}
    (henv : ∀ e s, g'.env e s = true → g.env e s = true) (h : WaiterServed g c) :
    WaiterServed g' c := by
  intro k htask hlive
  rcases h k htask hlive with hgiven | ⟨i, req, hreq, hwakes⟩ | ⟨hsome, hwakes⟩
  · exact .inl hgiven
  · exact .inr (.inl ⟨i, req, hreq, fun e s' he hg => hwakes e s' he (henv e _ hg)⟩)
  · exact .inr (.inr ⟨hsome, fun e s' he hg => hwakes e s' he (henv e _ hg)⟩)

/-! ## Runs -/

/-- The wait for the services of a device. -/
theorem waiterServed_discovery : ∃ c, host.run answered
    (scanRun 7 ++ selectRun ++ linkRun 7 ++ mains 1) (boot {} []) = some c ∧
      c.state.ctl.awaiting = true ∧ WaiterServed answered c := by
  obtain ⟨c, hrun, hawait⟩ := exists_run answered
    (scanRun 7 ++ selectRun ++ linkRun 7 ++ mains 1) (boot {} [])
    (fun c => c.state.ctl.awaiting) (by decide +kernel)
  exact ⟨c, hrun, hawait, waiterServed_of_answered (Reach.of_run hrun)⟩

/-- The kbd task waits, with nothing under way that could answer. -/
def unanswered (c : HostConfig) : Bool :=
  (match c.task with | .op .waitCb _ => true | _ => false) && c.state.fault.isNone &&
    !c.state.nimble.cbSemaphore && c.state.radio.gatt.isEmpty && c.state.radio.connecting.isNone

/-- The same wait after the request for the services was refused. -/
theorem not_waiterServed_refused :
    ∃ c, Reach host .free (boot {} []) c ∧ ¬WaiterServed .free c := by
  let run := scanRun 7 ++ selectRun ++ linkRun 7 ++ [.main { rc := 1 }]
  obtain ⟨c, hrun, hwaits⟩ := exists_run .free run (boot {} []) unanswered (by decide +kernel)
  refine ⟨c, .of_run hrun, fun hserved => ?_⟩
  simp only [unanswered, Bool.and_eq_true, Bool.not_eq_true', Option.isNone_iff_eq_none,
    List.isEmpty_iff] at hwaits
  obtain ⟨⟨⟨⟨htask, hlive⟩, hcb⟩, hgatt⟩, hconnecting⟩ := hwaits
  split at htask
  · rename_i k hop
    rcases hserved k hop hlive with hgiven | ⟨i, req, hreq, -⟩ | ⟨hsome, -⟩
    · rw [hcb] at hgiven
      cases hgiven
    · rw [hgatt] at hreq
      cases hreq
    · rw [hconnecting] at hsome
      cases hsome
  · cases htask

end BleKbdHost.Host
