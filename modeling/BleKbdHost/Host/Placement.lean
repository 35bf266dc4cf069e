import BleKbdHost.Host.Control

/-!
# The blocks of the main task

The second half of the walk: each block of `kbd_main_task`, started between transport calls in one
of the phases of its label, ends in a phase of the label it returns. With it the walk is complete:
wherever a run stands, the next operation stands where `Op.At` puts it (`reach_op_at`).
-/

namespace BleKbdHost.Host

open Hid Keys Conc

/-- No transport call in progress. -/
abbrev rest (q : Phase) : Ctl := ⟨q, .none, false⟩

/-- The phases in which a block begins. -/
def Label.phases : Label → List Phase
  | .top => [.start, .reconnecting]
  | .reconnecting | .waitForStartPairing _ _ | .tryReconnect => [.reconnecting]
  | .bondedWait _ => [.bonded]
  | .reconnectFailed => [.reconnecting, .refused .bonded, .repairing .bonded]
  | .doPair =>
    [.start, .reconnecting, .requested, .refused .selected, .repairing .connecting,
      .closing .done]
  | .restartScan | .scanning _ _ => [.scanning]
  | .selected index => [.picked index]
  | .connecting _ => [.connecting]
  | .connected => [.accepted]
  | .connectedWait => [.connected]

/-- The main task is about to run the block. -/
def Lands (I : Sys → Prop) (l : Label) (s : Sys) : Prop :=
  ∃ q ∈ l.phases, Standing I (rest q) s

/-- A block, or the rest of one, that is entered in phase `q`. -/
def Block (g : Guard Op Choice Sys Event) (pre : Op → Sys → Prop) (I : Sys → Prop) (q : Phase)
    (t : Prog Label) : Prop :=
  Triple host g pre (Standing I (rest q)) t (Lands I)

section Blocks

variable {g : Guard Op Choice Sys Event} {pre : Op → Sys → Prop} {I : Sys → Prop}
variable {α : Type} {q : Phase}

theorem Block.bind {t : Prog α} {f : α → Prog Label} (ht : Keeps g pre I (rest q) t)
    (hf : ∀ a, Block g pre I q (f a)) : Block g pre I q (t >>= f) :=
  Triple.bind ht hf

theorem Block.ite {p : Prop} [Decidable p] {t u : Prog Label} (ht : Block g pre I q t)
    (hu : Block g pre I q u) : Block g pre I q (if p then t else u) :=
  Triple.ite (fun _ => ht) fun _ => hu

variable (h : Carried Op.outside g pre I)
include h

theorem Block.ret {l : Label} (hl : q ∈ l.phases) : Block g pre I q (pure l) :=
  Triple.ret (h.standing _) fun _ hs => ⟨q, hl, hs⟩

/-! ## Helpers -/

theorem keeps_look (f : Sys → α) : Keeps g pre I (rest q) (look f) := Keeps.look h rfl f rfl

theorem keeps_ticks : Keeps g pre I (rest q) xTaskGetTickCount := Keeps.look h rfl _ rfl

theorem keeps_msToTicks (ms : Nat) : Keeps g pre I (rest q) (msToTicks ms) := keeps_look h _

/-- The phase after a take. -/
def Phase.taken (q : Phase) (sem : Sem) (ok : Bool) : Phase :=
  if sem = .openDone ∧ ok = true then q.answer else q

theorem triple_xSemaphoreTake (sem : Sem) (ms : Nat) :
    Triple host g pre (Standing I (rest q)) (xSemaphoreTake sem ms) fun ok =>
      Standing I (rest (q.taken sem ok)) := by
  refine Triple.bind (keeps_msToTicks h _) fun ticks => Triple.bind (keeps_ticks h) fun since => ?_
  refine h.op (o := .take sem since ticks) (fun ok => rest (q.taken sem ok)) rfl ⟨rfl, rfl⟩ ?_
  intro ch s hs _
  simp only [View.exec, Sys.view, View.setPhase, hs, Phase.taken]
  cases sem <;> rfl

/-- A take outside of the waits for `s_open_done_sem`. -/
theorem keeps_xSemaphoreTake (hq : q.answer = q) (sem : Sem) (ms : Nat) :
    Keeps g pre I (rest q) (xSemaphoreTake sem ms) := by
  refine (triple_xSemaphoreTake h sem ms).weaken fun ok s hs => ?_
  rwa [Phase.taken, hq, ite_self] at hs

theorem keeps_vTaskDelay (ms : Nat) : Keeps g pre I (rest q) (vTaskDelay ms) :=
  (keeps_msToTicks h _).bind fun ticks => (keeps_ticks h).bind fun since =>
    Keeps.plain h (.delay since ticks) rfl rfl fun _ _ => rfl

/-- The phase after a command was received, or none. -/
theorem triple_xQueueReceive (hph : q = .reconnecting ∨ q = .scanning ∨
    ∃ site, site ≠ .bonded ∧ q = .repairing site) (ticks : UInt32) :
    Triple host g pre (Standing I (rest q)) (xQueueReceive ticks) fun cmd =>
      Standing I (rest (q.receive cmd)) := by
  refine Triple.bind (keeps_ticks h) fun since => ?_
  refine h.op (o := .receiveCmd since ticks) (fun cmd => rest (q.receive cmd)) rfl ⟨hph, rfl, rfl⟩ ?_
  intro ch s hs _
  simp [View.exec, Sys.view, hs]

/-- A request that a poll has seen is received. -/
theorem keeps_xQueueReceive {k : PollSite} (hk : k ≠ .bonded) (ticks : UInt32) :
    Keeps g pre I (rest (.repairing k)) (xQueueReceive ticks) := by
  refine (triple_xQueueReceive h (.inr (.inr ⟨k, hk, rfl⟩)) ticks).weaken fun cmd s hs => ?_
  exact hs

/-- The phase after a poll. -/
theorem triple_peekStartPairing (site : PollSite) :
    Triple host g pre (Standing I (rest site.phase)) (peekStartPairing site) fun requested =>
      Standing I (rest (if requested then .repairing site else site.phase)) := by
  refine h.op (o := .peekCmd site)
    (fun requested : Bool => rest (if requested then .repairing site else site.phase)) rfl rfl ?_
  intro ch s hs _
  by_cases hhead : s.kbd.cmdQueue.items.head? = some .startPairing <;>
    simp [View.exec, Sys.view, hhead, hs]

/-- A poll: the re-pair branch, or another round. -/
theorem block_poll (site : PollSite) {t u : Prog Label} (ht : Block g pre I (.repairing site) t)
    (hu : Block g pre I site.phase u) :
    Block g pre I site.phase (peekStartPairing site >>= fun requested =>
      if requested then t else u) := by
  refine Triple.bind (triple_peekStartPairing h site) fun requested => ?_
  cases requested with
  | true => exact ht
  | false => exact hu

/-- A status callback outside of `set_state`. -/
theorem keeps_onStatus (hq : q.announced = q) {t : KbdState} (hshows : q.shows = some t)
    (line1 line2 : Line) : Keeps g pre I (rest q) (.perform (.onStatus t line1 line2)) :=
  Keeps.op h (o := .onStatus t line1 line2) rfl ⟨hshows, rfl, rfl⟩ fun _ v hv => by
    simp [View.exec, hv, hq]

theorem keeps_gapConnCancel : Keeps g pre I (rest q) (.perform .gapConnCancel) :=
  Keeps.plain h .gapConnCancel rfl rfl fun _ _ => rfl

theorem keeps_gapDiscCancel : Keeps g pre I (rest q) (.perform .gapDiscCancel) :=
  Keeps.plain h .gapDiscCancel rfl rfl fun _ _ => rfl

/-- An operation that leads to one phase. -/
theorem triple_advance {o : Op} {t : Phase} (ho : o.outside = true) (hat : o.At (rest q))
    (hexec : ∀ (ch : Choice) (v : View), v.ctl = rest q → (v.exec o ch).ctl = rest t) :
    Triple host g pre (Standing I (rest q)) (.perform o) fun _ => Standing I (rest t) :=
  h.op (fun _ => rest t) ho hat fun ch s hs _ => hexec ch s.view hs

/-- In the scan loop. -/
theorem keeps_resetScan : Keeps g pre I (rest .scanning) (.perform .resetScan) :=
  triple_advance h rfl ⟨.inl rfl, rfl, rfl⟩ fun _ v hv => by simp [View.exec, hv, Phase.clearScan]

/-- In the scan loop. -/
theorem keeps_storeClear : Keeps g pre I (rest .scanning) (.perform .storeClear) :=
  triple_advance h rfl ⟨.inl rfl, rfl, rfl⟩ fun _ v hv => by simp [View.exec, hv, Phase.clearBonds]

/-- `set_state` moves to the phase of the state. -/
theorem triple_setState {t : KbdState} {r : Phase} (hat : (Op.setState t).At (rest q))
    (hannounce : q.announce t = .announcing r) (hshows : (Phase.announcing r).shows = some t)
    (line1 line2 : Line) :
    Triple host g pre (Standing I (rest q)) (setState t line1 line2) fun _ =>
      Standing I (rest r) :=
  Triple.bind (triple_advance (t := .announcing r) h rfl hat fun ch v hv => by
    simp [View.exec, hv, hannounce]) fun _ =>
    triple_advance h (o := .onStatus t line1 line2) rfl ⟨hshows, rfl, rfl⟩ fun ch v hv => by
      simp [View.exec, hv, Phase.announced]

/-- The phase after the test of `s_connected_sem`. -/
theorem triple_takeConnected {k : OpenSite} (hph : q = .expired k ∨ q = .answered k) :
    Triple host g pre (Standing I (rest q)) takeConnected fun ok =>
      Standing I (rest (if ok then .accepted else .refused k)) := by
  have hrefuse : q.refuse = .refused k := by
    rcases hph with rfl | rfl <;> rfl
  refine Triple.bind
    (B := fun ok : Bool => Standing I (rest (if ok then .accepted else .refused k)))
    (h.op (o := .takeConnected)
      (fun ok : Bool => rest (if ok then .accepted else .refused k)) rfl
      ⟨⟨k, hph⟩, rfl, rfl⟩ ?_) fun ok => ?_
  · intro ch s hs _
    cases hsem : s.kbd.connectedSem <;> simp [View.exec, Sys.view, hsem, hs, hrefuse]
  · have hgive : Keeps g pre I (rest (if ok then .accepted else .refused k))
        (.when (ok = true) (.perform (.give .connected))) := by
      cases ok with
      | true => exact Keeps.plain h (.give .connected) rfl rfl fun _ _ => rfl
      | false => exact Keeps.ret h ()
    exact Triple.bind hgive fun _ => .ret (h.standing _) fun _ => id

/-! ## The reconnect phase -/

theorem block_top (hph : q ∈ Label.top.phases) : Block g pre I q top := by
  have hph' : q = .start ∨ q = .reconnecting := by simpa [Label.phases] using hph
  refine Block.bind (Keeps.plain h .storeCount rfl rfl fun _ _ => rfl) fun bondCount =>
    Block.bind (keeps_look h _) fun forceRepair => Block.ite ?_ ?_
  · have hat : (Op.setState .reconnecting).At (rest q) := by
      rcases hph' with rfl | rfl
      · exact ⟨.inl rfl, rfl, rfl⟩
      · exact ⟨.inr (.inl rfl), rfl, rfl⟩
    exact Triple.bind (triple_setState h hat rfl rfl _ _) fun _ =>
      Block.ret h (l := .reconnecting) (List.mem_singleton.mpr rfl)
  · apply Block.ret h
    rcases hph' with rfl | rfl <;> simp [Label.phases]

theorem block_reconnecting : Block g pre I .reconnecting reconnecting :=
  Block.bind (keeps_ticks h) fun _ => Block.ret h (List.mem_singleton.mpr rfl)

theorem block_waitForStartPairing (site : WaitSite) (deadline : UInt32) :
    Block g pre I .reconnecting (waitForStartPairing site deadline) := by
  refine Block.bind (keeps_ticks h) fun now => Block.bind (keeps_msToTicks h _) fun hundred =>
    Triple.bind (triple_xQueueReceive h (.inl rfl) _) fun cmd => ?_
  rcases cmd with _ | _ | param
  · refine Block.ite (q := .reconnecting) (Block.ret h ?_) (Block.ret h (List.mem_singleton.mpr rfl))
    cases site <;> exact List.mem_singleton.mpr rfl
  · exact Block.ret (q := .requested) h (by simp [Label.phases])
  · exact Block.ret (q := .reconnecting) h (List.mem_singleton.mpr rfl)

theorem block_bondedDecide (hph : q = .expired .bonded ∨ q = .answered .bonded) :
    Block g pre I q bondedDecide := by
  refine Triple.bind (triple_takeConnected (k := .bonded) h hph) fun ok => ?_
  cases ok with
  | true => exact Block.ret h (l := .connected) (q := .accepted) (List.mem_singleton.mpr rfl)
  | false =>
    exact Block.bind (q := .refused .bonded) (keeps_gapConnCancel h) fun _ =>
      Block.ret h (by simp [Label.phases])

theorem block_bondedPoll (deadline : UInt32) : Block g pre I .bonded (bondedPoll deadline) :=
  block_poll h .bonded
    (Block.bind (keeps_gapConnCancel h) fun _ => Block.ret h (by simp [Label.phases]))
    (Block.ret h (List.mem_singleton.mpr rfl))

/-- A wait for `s_open_done_sem`: it goes on with `t` if it gets it, and with `u` if not. -/
theorem block_awaitOpen {r : Phase} (hr : q.answer = r) {t u : Prog Label}
    (ht : Block g pre I r t) (hu : Block g pre I q u) (ms : Nat) :
    Block g pre I q (xSemaphoreTake .openDone ms >>= fun ok => if ok then t else u) := by
  refine Triple.bind (triple_xSemaphoreTake h .openDone ms) fun ok => ?_
  subst hr
  cases ok with
  | true => exact ht
  | false => exact hu

/-- A round of a wait for `s_open_done_sem`: `t` before the deadline, `u` after it. -/
theorem block_beforeDeadline (site : OpenSite) (deadline : UInt32) {t u : Prog Label}
    (ht : Block g pre I site.phase t) (hu : Block g pre I (.expired site) u) :
    Block g pre I site.phase (beforeDeadline site deadline >>= fun before =>
      if before then t else u) := by
  refine Triple.bind (B := fun before : Bool =>
      Standing I (rest (if before then site.phase else .expired site)))
    (h.op (o := .beforeDeadline site deadline)
      (fun before : Bool => rest (if before then site.phase else .expired site)) rfl rfl
      fun ch s hs _ => ?_) fun before => ?_
  · by_cases hticks : s.ticks < deadline <;> simp [View.exec, Sys.view, hticks, hs]
  · cases before with
    | true => exact ht
    | false => exact hu

theorem block_bondedWait (deadline : UInt32) : Block g pre I .bonded (bondedWait deadline) :=
  block_beforeDeadline h .bonded deadline
    (block_awaitOpen h rfl (block_bondedDecide h (.inr rfl)) (block_bondedPoll h deadline) _)
    (block_bondedDecide h (.inl rfl))

theorem block_reconnectFailed (hph : q ∈ Label.reconnectFailed.phases) :
    Block g pre I q reconnectFailed := by
  have hat : Op.attemptFailed.At (rest q) :=
    ⟨by simpa [Label.phases] using hph, rfl, rfl⟩
  refine Triple.bind (triple_advance (t := .reconnecting) h rfl hat fun ch v hv => by
    simp [View.exec, hv]) fun _ => ?_
  exact Block.bind (q := .reconnecting) (keeps_look h _) fun _ =>
    Block.bind (keeps_msToTicks h _) fun _ => Block.bind (keeps_ticks h) fun _ =>
      Block.ret h (List.mem_singleton.mpr rfl)

/-! ## The pairing phase -/

theorem block_doPair (hph : q ∈ Label.doPair.phases) : Block g pre I q doPair := by
  simp only [Label.phases, List.mem_cons, List.not_mem_nil, or_false] at hph
  have hclear : q.clearBonds = .pairing .cleared := by
    rcases hph with rfl | rfl | rfl | rfl | rfl | rfl <;> rfl
  have hat : Op.storeClear.At (rest q) := by
    refine ⟨?_, rfl, rfl⟩
    rcases hph with rfl | rfl | rfl | rfl | rfl | rfl <;> simp
  refine Block.bind (Keeps.plain h .clearForceRepair rfl rfl fun _ _ => rfl) fun _ => ?_
  refine Triple.bind (triple_advance h (t := .pairing .cleared) rfl hat fun ch v hv => by
    simp [View.exec, hv, hclear]) fun _ => ?_
  refine Triple.bind (triple_advance h (t := .pairing .forgotten) rfl rfl fun ch v hv => by
    simp [View.exec, hv]) fun _ => ?_
  refine Triple.bind (triple_advance h (t := .pairing .emptied) rfl ⟨.inr rfl, rfl, rfl⟩
    fun ch v hv => by simp [View.exec, hv, Phase.clearScan]) fun _ => ?_
  exact Triple.bind (triple_setState h (t := .scanning) rfl rfl rfl _ _) fun _ =>
    Block.ret h (q := .scanning) (List.mem_singleton.mpr rfl)

theorem block_restartScan : Block g pre I .scanning restartScan :=
  Block.bind (Keeps.plain h .gapDisc rfl rfl fun _ _ => rfl) fun _ =>
    Block.ite (Block.bind (keeps_vTaskDelay h _) fun _ => Block.ret h (List.mem_singleton.mpr rfl))
      (Block.bind (keeps_ticks h) fun _ => Block.ret h (List.mem_singleton.mpr rfl))

theorem keeps_updateScan (lastUpdate : UInt32) :
    Keeps g pre I (rest .scanning) (updateScan lastUpdate) := by
  refine (keeps_ticks h).bind fun now => (keeps_look h _).bind fun hz => Keeps.ite ?_ (Keeps.ret h _)
  refine Triple.bind (B := fun devs => Standing I (rest (.copied devs)))
    (h.op (o := .copyScan) (fun devs => rest (.copied devs)) rfl rfl fun ch s hs _ => by
      simp [View.exec, Sys.view, hs]) fun devs => ?_
  refine Triple.bind (triple_advance (t := .scanning) h (o := .onScanUpdated devs) rfl rfl
    fun ch v hv => by simp [View.exec, hv]) fun _ => Keeps.ret h _

theorem block_checkScanTimeout (scanStart lastUpdate : UInt32) :
    Block g pre I .scanning (checkScanTimeout scanStart lastUpdate) := by
  refine Block.bind (keeps_look h _) fun _ => Block.bind (keeps_look h _) fun _ =>
    Block.bind (keeps_look h _) fun _ => Block.bind (keeps_ticks h) fun _ =>
      Block.ite ?_ (Block.ret h (List.mem_singleton.mpr rfl))
  exact Block.bind (keeps_gapDiscCancel h) fun _ => Block.bind (keeps_onStatus h rfl rfl _ _) fun _ =>
    Block.bind (keeps_vTaskDelay h _) fun _ => Block.bind (keeps_resetScan h) fun _ =>
      Block.ret h (List.mem_singleton.mpr rfl)

/-- A selection: the connection attempt, or another round. -/
theorem block_selection (param : Int) (scanStart lastUpdate : UInt32) :
    Block g pre I (.picking param)
      (.ask (.checkSelection param) (fun _ s => s.kbd.validSelection param) >>= fun valid =>
        if valid then pure (Label.selected param.toNat)
        else checkScanTimeout scanStart lastUpdate) := by
  refine Triple.bind (B := fun valid : Bool =>
      Standing I (rest (if valid then .picked param.toNat else .scanning)))
    (h.op (o := .checkSelection param)
      (fun valid : Bool => rest (if valid then .picked param.toNat else .scanning)) rfl rfl
      fun ch s hs _ => by simp [View.exec, Sys.view, hs]) fun valid => ?_
  cases valid with
  | true => exact Block.ret h (q := .picked param.toNat) (List.mem_singleton.mpr rfl)
  | false => exact block_checkScanTimeout h _ _

theorem block_scanning (scanStart lastUpdate : UInt32) :
    Block g pre I .scanning (scanning scanStart lastUpdate) := by
  refine Block.bind (keeps_updateScan h _) fun lastUpdate => Block.bind (keeps_msToTicks h _) fun _ =>
    Triple.bind (triple_xQueueReceive h (.inr (.inl rfl)) _) fun cmd => ?_
  rcases cmd with _ | _ | param
  · exact block_checkScanTimeout h _ _
  · exact Block.bind (q := .scanning) (keeps_gapDiscCancel h) fun _ =>
      Block.bind (keeps_resetScan h) fun _ =>
        Block.bind (keeps_storeClear h) fun _ => Block.ret h (List.mem_singleton.mpr rfl)
  · exact block_selection h param scanStart lastUpdate

theorem block_connectDecide (hph : q = .expired .selected ∨ q = .answered .selected) :
    Block g pre I q connectDecide := by
  refine Triple.bind (triple_takeConnected (k := .selected) h hph) fun ok => ?_
  cases ok with
  | true => exact Block.ret h (l := .connected) (q := .accepted) (List.mem_singleton.mpr rfl)
  | false =>
    exact Block.bind (q := .refused .selected) (keeps_onStatus h rfl rfl _ _) fun _ =>
      Block.bind (keeps_vTaskDelay h _) fun _ => Block.ret h (by simp [Label.phases])

theorem block_connectingPoll (deadline : UInt32) :
    Block g pre I .connecting (connectingPoll deadline) := by
  refine block_poll h .connecting ?_ (Block.ret h (List.mem_singleton.mpr rfl))
  exact Block.bind (keeps_xQueueReceive (k := .connecting) h nofun _) fun _ =>
    Block.bind (keeps_gapConnCancel h) fun _ => Block.bind (keeps_xSemaphoreTake h rfl _ _) fun _ =>
      Block.ret h (by simp [Label.phases])

theorem block_connecting (deadline : UInt32) : Block g pre I .connecting (connecting deadline) :=
  block_beforeDeadline h .selected deadline
    (block_awaitOpen h rfl (block_connectDecide h (.inr rfl)) (block_connectingPoll h deadline) _)
    (block_connectDecide h (.inl rfl))

/-! ## The connected phase -/

theorem block_connected : Block g pre I .accepted connected :=
  Triple.bind (triple_setState h (t := .connected) rfl rfl rfl _ _) fun _ =>
    Block.bind (q := .connected) (Keeps.plain h .clearPrevKeys rfl rfl fun _ _ => rfl) fun _ =>
      Block.bind (Keeps.plain h (.emitKey 0) rfl ⟨rfl, rfl⟩ fun _ v => by
        simp only [View.exec]
        split <;> rfl) fun _ => Block.ret h (List.mem_singleton.mpr rfl)

theorem triple_awaitDisconnect :
    Triple host g pre (Standing I (rest .connected)) awaitDisconnect fun dropped =>
      Standing I (rest (if dropped then .dropped else .connected)) := by
  refine Triple.bind (keeps_msToTicks h _) fun ticks => Triple.bind (keeps_ticks h) fun since => ?_
  refine h.op (o := .awaitDisconnect since ticks)
    (fun dropped : Bool => rest (if dropped then .dropped else .connected)) rfl rfl ?_
  intro ch s hs _
  cases hsem : s.kbd.disconnectedSem <;> simp [View.exec, Sys.view, hsem, hs]

theorem block_connectedDropped : Block g pre I .dropped connectedDropped :=
  Triple.bind (triple_setState h (t := .reconnecting) ⟨.inr (.inr rfl), rfl, rfl⟩ rfl rfl _ _) fun _ =>
    Block.bind (q := .reconnecting) (keeps_vTaskDelay h _) fun _ =>
      Block.ret h (by simp [Label.phases])

/-- `esp_hidh_dev_close` terminates the link of a listed device. -/
theorem triple_espHidhDevClose (d : DevId) :
    Triple host g pre (Standing I (rest (.closing (.found d)))) (espHidhDevClose d) fun _ =>
      Standing I (rest (.closing .asked)) := by
  refine Triple.bind (B := fun listed : Bool =>
      Standing I (rest (.closing (if listed then .found d else .asked))))
    (h.op (o := .closeCall d)
      (fun listed : Bool => rest (.closing (if listed then .found d else .asked))) rfl rfl
      fun ch s hs _ => ?_) fun listed => ?_
  · simp only [View.exec, key?_view, Option.isSome_map]
    by_cases hlisted : (s.dev? d).isSome = true <;> simp [Sys.view, hlisted, hs]
  · cases listed with
    | true => exact triple_advance h rfl rfl fun _ v hv => by simp [View.exec, hv]
    | false => exact h.ret ()

theorem triple_awaitClosed :
    Triple host g pre (Standing I (rest (.closing .asked))) awaitClosed fun _ =>
      Standing I (rest (.closing .done)) :=
  Triple.bind (keeps_msToTicks h _) fun _ => Triple.bind (keeps_ticks h) fun _ =>
    triple_advance h rfl rfl fun _ v hv => by simp [View.exec, hv]

theorem block_connectedRepair : Block g pre I (.repairing .connected) connectedRepair := by
  have hdone : Block g pre I (.closing .done) (pure .doPair) :=
    Block.ret h (by simp [Label.phases])
  refine Block.bind (keeps_xQueueReceive (k := .connected) h nofun _) fun _ =>
    Triple.bind (B := fun dev : Option DevId =>
      Standing I (rest (.closing ((dev.map .found).getD .done))))
      (h.op (o := .readHidhDev)
        (fun dev : Option DevId => rest (.closing ((dev.map .found).getD .done))) rfl rfl
        fun ch s hs _ => by simp [View.exec, Sys.view, hs]) fun dev => ?_
  cases dev with
  | some d =>
    exact Triple.bind (triple_espHidhDevClose h d) fun _ => Triple.bind (triple_awaitClosed h)
      fun _ => hdone
  | none => exact hdone

theorem block_connectedWait : Block g pre I .connected connectedWait := by
  refine Triple.bind (triple_awaitDisconnect h) fun dropped => ?_
  cases dropped with
  | true => exact block_connectedDropped h
  | false =>
    exact block_poll h .connected (block_connectedRepair h)
      (Block.ret h (List.mem_singleton.mpr rfl))

/-! ## The attempts -/

variable (hopen : ∀ (site : OpenSite) (bda : Bda) (addrType : UInt8),
  Triple host g pre (Standing I (rest (site.before bda))) (espHidhDevOpen site bda addrType)
    fun _ => Standing I (rest site.phase))
include hopen

theorem block_tryBondedReconnect : Block g pre I .reconnecting tryBondedReconnect := by
  refine Block.bind (Keeps.plain h .storeCount rfl rfl fun _ _ => rfl) fun count =>
    Block.ite (Block.ret h (by simp [Label.phases]))
      (Block.bind (Keeps.plain h .storeReadPeerSec rfl rfl fun _ _ => rfl) fun peer => ?_)
  rcases peer with _ | ⟨bda, addrType⟩
  · exact Block.ret h (by simp [Label.phases])
  · exact Block.bind (keeps_xSemaphoreTake h rfl _ _) fun _ =>
      Triple.bind (hopen .bonded bda addrType) fun _ =>
        Block.bind (q := .bonded) (keeps_msToTicks h _) fun _ => Block.bind (keeps_ticks h) fun _ =>
          Block.ret h (List.mem_singleton.mpr rfl)

theorem block_tryReconnect : Block g pre I .reconnecting tryReconnect := by
  refine Block.bind (keeps_look h _) fun dev => ?_
  cases dev with
  | none => exact block_tryBondedReconnect h hopen
  | some d =>
    refine Triple.bind (triple_espBleHidhDevReconnect h) fun dev => ?_
    cases dev with
    | none =>
      exact Block.ret h (l := .reconnectFailed) (q := .reconnecting) (by simp [Label.phases])
    | some d => exact Block.ret h (l := .connected) (q := .accepted) (List.mem_singleton.mpr rfl)

theorem block_selected (index : Nat) : Block g pre I (.picked index) (selected index) := by
  refine Block.bind (keeps_gapDiscCancel h) fun _ => Block.bind (keeps_vTaskDelay h _) fun _ => ?_
  refine Triple.bind (B := fun sel : ScanDev => Standing I (rest (.chosen sel.addr)))
    (h.op (o := .copySelected index) (fun sel : ScanDev => rest (.chosen sel.addr)) rfl rfl
      fun ch s hs _ => by simp [View.exec, Sys.view, hs]) fun sel => ?_
  exact Triple.bind (triple_setState h (t := .connecting) ⟨⟨sel.addr, rfl⟩, rfl, rfl⟩ rfl rfl _ _)
    fun _ => Block.bind (q := .selected sel.addr) (keeps_xSemaphoreTake h rfl _ _) fun _ =>
      Triple.bind (hopen .selected _ _) fun _ =>
        Block.bind (q := .connecting) (keeps_msToTicks h _) fun _ =>
          Block.bind (keeps_ticks h) fun _ => Block.ret h (List.mem_singleton.mpr rfl)

/-- **Every block goes from a phase of its own label to a phase of the next one.** -/
theorem block_kbdMainTask (l : Label) (hph : q ∈ l.phases) :
    Block g pre I q (kbdMainTask l) := by
  cases l with
  | top => exact block_top h hph
  | reconnecting => obtain rfl := List.mem_singleton.mp hph; exact block_reconnecting h
  | waitForStartPairing site deadline =>
    obtain rfl := List.mem_singleton.mp hph
    exact block_waitForStartPairing h site deadline
  | tryReconnect => obtain rfl := List.mem_singleton.mp hph; exact block_tryReconnect h hopen
  | bondedWait deadline => obtain rfl := List.mem_singleton.mp hph; exact block_bondedWait h deadline
  | reconnectFailed => exact block_reconnectFailed h hph
  | doPair => exact block_doPair h hph
  | restartScan => obtain rfl := List.mem_singleton.mp hph; exact block_restartScan h
  | scanning scanStart lastUpdate =>
    obtain rfl := List.mem_singleton.mp hph
    exact block_scanning h scanStart lastUpdate
  | selected index => obtain rfl := List.mem_singleton.mp hph; exact block_selected h hopen index
  | connecting deadline => obtain rfl := List.mem_singleton.mp hph; exact block_connecting h deadline
  | connected => obtain rfl := List.mem_singleton.mp hph; exact block_connected h
  | connectedWait => obtain rfl := List.mem_singleton.mp hph; exact block_connectedWait h

/-! ## Runs -/

/-- What holds at boot, is kept along the way and covers `esp_hidh_dev_open` gives the precondition of
every operation a run comes to. -/
theorem Carried.reach {cfg : KbdConfig} {bonds : List (Bda × UInt8)} {c : HostConfig}
    (hboot : I (boot cfg bonds).state) (hreach : Reach host g (boot cfg bonds) c) :
    wp host g pre (Lands I) c.task c.state := by
  refine hreach.wp ?_ fun l => ?_
  · intro s hrun _
    refine ⟨.start, List.mem_cons_self, ?_⟩
    exact (h.standing _).interfere hrun ⟨rfl, hboot⟩
  · rintro s ⟨q, hph, hs⟩ hlive
    exact block_kbdMainTask h hopen l hph s hs hlive

end Blocks

/-! ## Where operations stand -/

section Runs

variable {g : Guard Op Choice Sys Event} {cfg : KbdConfig} {bonds : List (Bda × UInt8)}
variable {c : HostConfig}

/-- Nothing beyond the control state is carried. -/
theorem carried_op_at : Carried (fun _ => true) g (fun o s => o.At s.ctl) fun _ => True where
  exec _ _ _ _ _ _ _ _ _ := trivial
  env := Stable.const _
  pre _ _ _ _ _ hat := hat

/-- **In every run, the operation that comes next stands where it belongs.** -/
theorem reach_op_at (h : Reach host g (boot cfg bonds) c) (hlive : c.state.fault = none) {o : Op}
    {k : Choice → Sys → Prog Label} (htask : c.task = .op o k) : o.At c.state.ctl := by
  have houtside : Carried Op.outside g (fun o s => o.At s.ctl) fun _ => True :=
    carried_op_at.mono fun _ _ => rfl
  have hwp := houtside.reach
    (triple_espHidhDevOpen houtside fun _ _ => carried_op_at.discovery) trivial h
  rw [htask] at hwp
  exact (hwp _ .refl (live_iff.mpr hlive)).1

/-- **Invariants of runs.** What holds at boot and is kept by every admitted operation, at its
place, and by every admitted event, holds in every state reached. The steps may use what is known of
all states reached. -/
theorem reach_keeps_of_known {J I : Sys → Prop} (h : Reach host g (boot cfg bonds) c)
    (hknown : ∀ c, Reach host g (boot cfg bonds) c → J c.state) (hboot : I (boot cfg bonds).state)
    (hexec : ∀ o ch s, J s → I s → s.fault = none → o.ready s = true → g.main o ch s = true →
      o.At s.ctl → I (o.exec ch s))
    (henv : ∀ e s s', J s → I s → s.fault = none → g.env e s = true → eventStep e s = some s' →
      I s') : I c.state :=
  Reach.invariant (fun o s => o.At s.ctl) J I
    (fun _ _ _ hreach hlive htask => reach_op_at hreach (live_iff.mp hlive) htask) hknown hboot
    (fun o ch s hJ hI hlive hready hg hat => hexec o ch s hJ hI (live_iff.mp hlive) hready hg hat)
    (fun e s s' hJ hI hlive hg hstep => henv e s s' hJ hI (live_iff.mp hlive) hg hstep) h

theorem reach_keeps {I : Sys → Prop} (h : Reach host g (boot cfg bonds) c)
    (hboot : I (boot cfg bonds).state)
    (hexec : ∀ o ch s, I s → s.fault = none → o.ready s = true → g.main o ch s = true →
      o.At s.ctl → I (o.exec ch s))
    (henv : ∀ e s s', I s → s.fault = none → g.env e s = true → eventStep e s = some s' → I s') :
    I c.state :=
  reach_keeps_of_known h (J := fun _ => True) (fun _ _ => trivial) hboot
    (fun o ch s _ => hexec o ch s) fun e s s' _ => henv e s s'

end Runs

/-! ## Concrete runs -/

/-- Steps of the main task whose calls all succeed. -/
def mains (n : Nat) : List (Move Choice Event) := List.replicate n (.main {})

/-- From boot without bonds to the scan, which finds a device. -/
def scanRun (addr : Bda) : List (Move Choice Event) :=
  mains 16 ++ [.env (.advertised ⟨advInd, some [65], addr, 0, -40⟩)]

/-- From the selection of the first entry to the allocation of its device. -/
def selectRun : List (Move Choice Event) :=
  [.env (.selectDevice 0)] ++ mains 8 ++ [.env (.tick 30)] ++ mains 8

/-- From the allocation to discovery, without security. -/
def linkRun (addr : Bda) : List (Move Choice Event) :=
  mains 4 ++ [.env (.connected 5 addr addr)] ++ mains 3 ++ [.main { rc := 1 }] ++ mains 2

/-- Discovery of a device without services, the open event and its handling, up to `connected`. -/
def openRun : List (Move Choice Event) :=
  mains 1 ++ [.env (.gattCb 0 .done)] ++ mains 13 ++ List.replicate 4 (.env .dispatch) ++ mains 8

/-- The peer's answers to the outstanding GATT request. -/
def answers (rsps : List GattRsp) : List (Move Choice Event) := rsps.map fun rsp => .env (.gattCb 0 rsp)

/-- The report map of a keyboard with one input report of 8 bytes. -/
def keyboardMap : List UInt8 := [0x05, 1, 0x09, 6, 0xa1, 1, 0x75, 8, 0x95, 8, 0x81, 0, 0xc0]

/-- Discovery of a keyboard and the subscription to its report, which has handle 5, the open event and
its handling, up to `connected`; `memory` is what the allocated protocol modes hold. -/
def keyboardRun (memory : List UInt8) : List (Move Choice Event) :=
  mains 1 ++ answers [.svc ⟨Uuid.hid, 1, 9⟩, .done] ++ mains 4 ++ [.main { bytes := memory }] ++
  mains 2 ++ answers [.chr ⟨Uuid.reportMap, 2, 3, 2⟩, .chr ⟨Uuid.rpt, 4, 5, 0x12⟩, .done] ++
  mains 5 ++ answers [.data keyboardMap, .done] ++
  mains 6 ++ answers [.dsc ⟨Uuid.cltCfg, 6⟩, .dsc ⟨Uuid.rptRef, 7⟩, .done] ++
  mains 6 ++ answers [.data [0, ReportType.input], .done] ++
  mains 18 ++ answers [.done] ++ mains 3 ++ answers [.done] ++
  mains 8 ++ List.replicate 4 (.env .dispatch) ++ mains 3

/-- A notification on handle 5 of link 5, and the handling of its event. -/
def notifyRun (data : List UInt8) : List (Move Choice Event) :=
  [.env (.notifyRx 5 5 data)] ++ List.replicate ((translateSteps data).length + 1) (.env .dispatch)

/-- From `connected` to `do_pair` by a re-pair request; `wait` is what happens while the main task
waits for the close event. -/
def repairRun (wait : List (Move Choice Event)) : List (Move Choice Event) :=
  [.env .startPairing] ++ mains 7 ++ [.env (.tick 10)] ++ mains 9 ++ wait ++ mains 1

/-- From `do_pair` to the scan, which finds a device. -/
def rescanRun (addr : Bda) : List (Move Choice Event) :=
  mains 13 ++ [.env (.advertised ⟨advInd, some [65], addr, 0, -40⟩)]

/-- From the selection of the first entry, where the scan has lasted, to the allocation of its
device. -/
def reselectRun : List (Move Choice Event) :=
  [.env (.selectDevice 0)] ++ mains 10 ++ [.env (.tick 30)] ++ mains 8

/-- The configuration in which a run ends. -/
theorem exists_run (g : Guard Op Choice Sys Event) (ms : List (Move Choice Event))
    (c₀ : HostConfig) (p : HostConfig → Bool) (h : (host.run g ms c₀).any p = true) :
    ∃ c, host.run g ms c₀ = some c ∧ p c = true := by
  cases hrun : host.run g ms c₀ with
  | none =>
    rw [hrun] at h
    cases h
  | some c =>
    rw [hrun] at h
    exact ⟨c, rfl, h⟩

end BleKbdHost.Host
