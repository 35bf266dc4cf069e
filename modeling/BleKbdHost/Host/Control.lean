import BleKbdHost.Conc.Logic
import BleKbdHost.Host.View

/-!
# Where the operations stand

`Op.At c o`: the main task comes to operation `o` with its control state at `c`. One walk through
the program proves that this is so in every run (`reach_op_at`), and carries along whatever else the
operations and the environment preserve (`Carried`). Everything that is proved about runs later
relies on this instead of on the program text.
-/

namespace BleKbdHost.Host

open Hid Keys Conc

/-- The phase in which `esp_hidh_dev_open` is called. -/
def OpenSite.before : OpenSite → Bda → Phase
  | .bonded, _ => .reconnecting
  | .selected, bda => .selected bda

def PollSite.phase : PollSite → Phase
  | .bonded => .bonded
  | .connecting => .connecting
  | .connected => .connected

/-- The state that a status callback in the phase passes: that of `set_state`, or SCANNING. -/
def Phase.shows : Phase → Option KbdState
  | .announcing .reconnecting => some .reconnecting
  | .announcing .scanning | .scanning | .refused .selected => some .scanning
  | .announcing (.selected _) => some .connecting
  | .announcing .connected => some .connected
  | _ => none

/-- Where a call is done with its connection: an open after discovery, a reconnect after
security. -/
def LinkStep.Last : CallKind → LinkStep → Prop
  | .open, step => step = .discovered ∨ step = .abandoned
  | .reconnect, step => step = .secured

/-- The stage in which an open or a reconnect subscribes. -/
def subscribing : CallKind → DevId → Stage
  | .open, d => .opened .open d
  | .reconnect, d => .marked .reconnect d

/-- The control state at which an operation stands. -/
def Op.At (c : Ctl) : Op → Prop
  | .waitCb => c.awaiting = true
  | .openCall site bda => c = ⟨site.before bda, .none, false⟩
  | .reconnectCall _ => c = ⟨.reconnecting, .none, false⟩
  | .devMalloc bda _ => (c.phase = .bonded ∨ c.phase = .connecting) ∧ c.stage = .called bda ∧
      c.awaiting = false
  | .devFree d => c.stage = .failed .open d ∧ c.awaiting = false
  | .gapConnect kind d => c.stage = .begun kind d ∧ c.awaiting = false
  | .readConnId kind d => c.stage = .connecting kind d ∧ c.awaiting = false
  | .securityInitiate d => (∃ kind, c.stage = .linked kind d .fresh) ∧ c.awaiting = false
  | .takeSec d _ _ => (∃ kind, c.stage = .linked kind d .fresh) ∧ c.awaiting = false
  | .setConnected kind d =>
    (∃ step, c.stage = .linked kind d step ∧ step.Last kind) ∧ c.awaiting = false
  | .postOpen kind d => c.stage = .marked kind d ∧ c.awaiting = false
  | .openReturns none => c.stage = .none ∧ c.awaiting = false ∧
      (c.phase = .bonded ∨ c.phase = .connecting)
  | .openReturns (some d) => c.stage = .opened .open d ∧ c.awaiting = false ∧
      (c.phase = .bonded ∨ c.phase = .connecting)
  | .reconnectReturns none =>
    (∃ d, c.stage = .begun .reconnect d ∨ c.stage = .failed .reconnect d) ∧ c.awaiting = false ∧
      c.phase = .reconnecting
  | .reconnectReturns (some d) => c.stage = .opened .reconnect d ∧ c.awaiting = false ∧
      c.phase = .reconnecting
  | .installCallbacks d => c.stage = .linked .open d .fresh ∧ c.awaiting = false
  | .readDev d => c.stage.attempted? = some d ∧ c.awaiting = false
  | .discAllSvcs d | .discAllChrs d _ _ | .discAllDscs d _ _ | .readLong d _ _
  | .mallocReportMaps d | .mallocProtocolMode d =>
    c.stage = .linked .open d .secured ∧ c.awaiting = false
  | .setField d _ =>
    (c.stage = .linked .open d .secured ∨ c.stage = .linked .open d .discovered) ∧
      c.awaiting = false
  | .mallocReport | .readSvc _ | .svcsDone | .readChr _ | .readDefHandle _ | .resetChrs | .readDsc _
  | .resetDscs | .endRead _ | .freeBuf _ =>
    (∃ d, c.stage = .linked .open d .secured) ∧ c.awaiting = false
  | .readReportMap d _ => (∃ step, c.stage = .linked .open d step) ∧ c.awaiting = false
  | .assertStatus | .parseReportMap _ =>
    (∃ d step, c.stage = .linked .open d step) ∧ c.awaiting = false
  | .writeFlat _ _ _ => (∃ kind d, c.stage = subscribing kind d) ∧ c.awaiting = false
  | .take _ _ _ => c.stage = .none ∧ c.awaiting = false
  | .beforeDeadline site _ => c = ⟨site.phase, .none, false⟩
  | .takeConnected =>
    (∃ site : OpenSite, c.phase = .expired site ∨ c.phase = .answered site) ∧ c.stage = .none ∧
      c.awaiting = false
  | .give _ => c = ⟨.accepted, .none, false⟩
  | .awaitDisconnect _ _ => c = ⟨.connected, .none, false⟩
  | .peekCmd site => c = ⟨site.phase, .none, false⟩
  | .readHidhDev => c = ⟨.repairing .connected, .none, false⟩
  | .closeCall d | .gapTerminate d => c = ⟨.closing (.found d), .none, false⟩
  | .awaitClosed _ _ => c = ⟨.closing .asked, .none, false⟩
  | .setState .connected => c = ⟨.accepted, .none, false⟩
  | .setState .reconnecting =>
    (c.phase = .start ∨ c.phase = .reconnecting ∨ c.phase = .dropped) ∧ c.stage = .none ∧
      c.awaiting = false
  | .setState .scanning => c = ⟨.pairing .emptied, .none, false⟩
  | .setState .connecting => (∃ addr, c.phase = .chosen addr) ∧ c.stage = .none ∧ c.awaiting = false
  | .setState .idle => False
  | .onStatus st _ _ => c.phase.shows = some st ∧ c.stage = .none ∧ c.awaiting = false
  | .attemptFailed =>
    (c.phase = .reconnecting ∨ c.phase = .refused .bonded ∨ c.phase = .repairing .bonded) ∧
      c.stage = .none ∧ c.awaiting = false
  | .receiveCmd _ _ =>
    (c.phase = .reconnecting ∨ c.phase = .scanning ∨
      ∃ site, site ≠ .bonded ∧ c.phase = .repairing site) ∧ c.stage = .none ∧ c.awaiting = false
  | .storeClear =>
    (c.phase = .scanning ∨ c.phase = .start ∨ c.phase = .reconnecting ∨ c.phase = .requested ∨
      c.phase = .refused .selected ∨ c.phase = .repairing .connecting ∨ c.phase = .closing .done) ∧
      c.stage = .none ∧ c.awaiting = false
  | .clearHidhDev => c = ⟨.pairing .cleared, .none, false⟩
  | .resetScan =>
    (c.phase = .scanning ∨ c.phase = .pairing .forgotten) ∧ c.stage = .none ∧ c.awaiting = false
  | .copyScan => c = ⟨.scanning, .none, false⟩
  | .onScanUpdated devs => c = ⟨.copied devs, .none, false⟩
  | .checkSelection param => c = ⟨.picking param, .none, false⟩
  | .copySelected index => c = ⟨.picked index, .none, false⟩
  | .clearPrevKeys => c = ⟨.connected, .none, false⟩
  | .emitKey ch => ch = 0 ∧ c = ⟨.connected, .none, false⟩
  | _ => c.awaiting = false

/-- Only a wait for a callback stands behind a request. -/
theorem Op.At.awaiting_eq_false {c : Ctl} : ∀ {o : Op}, o.At c → o ≠ .waitCb → c.awaiting = false := by
  intro o h hne
  cases o with
  | waitCb => exact absurd rfl hne
  | openReturns d => cases d <;> exact h.2.1
  | reconnectReturns d => cases d <;> exact h.2.1
  | setState st =>
    cases st with
    | reconnecting | connecting => exact h.2.2
    | connected | scanning => simp only [Op.At] at h; rw [h]
    | idle => exact h.elim
  | openCall _ _ | peekCmd _ | beforeDeadline _ _ | awaitDisconnect _ _ | readHidhDev | closeCall _
  | gapTerminate _ | awaitClosed _ _ | reconnectCall _ | give _ | clearHidhDev | copyScan
  | onScanUpdated _ | checkSelection _ | copySelected _ | clearPrevKeys =>
    simp only [Op.At] at h
    rw [h]
  | emitKey _ => rw [h.2]
  | devMalloc _ _ | attemptFailed | takeConnected | onStatus _ _ _ | receiveCmd _ _ | resetScan
  | storeClear => exact h.2.2
  | devFree _ | gapConnect _ _ | readConnId _ _ | setConnected _ _ | postOpen _ _ | discAllSvcs _
  | discAllChrs _ _ _ | discAllDscs _ _ _ | readLong _ _ _ | installCallbacks _ | mallocReportMaps _
  | mallocProtocolMode _ | setField _ _ | readSvc _ | svcsDone | readChr _ | readDefHandle _
  | resetChrs | readDsc _ | resetDscs | assertStatus | parseReportMap _ | freeBuf _
  | writeFlat _ _ _ | take _ _ _ | securityInitiate _ | takeSec _ _ _ | mallocReport
  | readReportMap _ _ | readDev _ | endRead _ => exact h.2
  | _ => exact h

/-! ## What goes along with the control state -/

theorem View.Effect.ctl {e : Event} {v v' : View} (h : View.Effect e v v') : v'.ctl = v.ctl := by
  have hhandling : ∀ (v : View) (p : Posted) (steps : List HidhStep),
      (v.setHandling p steps).ctl = v.ctl := by
    intro v p steps
    cases steps <;> rfl
  cases h with
  | popped _ p ps hnone hitems => exact hhandling ..
  | stepped _ p step steps hsome =>
    rw [hhandling]
    cases step <;> rfl
  | settled _ p hsome => exact hhandling ..
  | disconnected _ link reason hfind hroom =>
    unfold View.linkDown
    simp only
    split
    · rfl
    · split <;> rfl
  | _ => rfl

/-- No event moves the main task. -/
theorem eventStep_ctl {e : Event} {s s' : Sys} (h : eventStep e s = some s') : s'.ctl = s.ctl :=
  (eventStep_view h).ctl

theorem exec_ctl (o : Op) (c : Choice) (s : Sys) : (o.exec c s).ctl = (s.view.exec o c).ctl :=
  congrArg View.ctl (exec_view o c s)

/-- The operations that only discovery uses. -/
def Op.discovery : Op → Bool
  | .discAllSvcs _ | .discAllChrs _ _ _ | .discAllDscs _ _ _ | .readLong _ _ _ | .assertStatus
  | .mallocReportMaps _ | .mallocProtocolMode _ | .mallocReport | .readSvc _ | .svcsDone
  | .readChr _ | .readDefHandle _ | .resetChrs | .readDsc _ | .resetDscs | .setField _ _
  | .endRead _ | .freeBuf _ | .readReportMap _ _ | .parseReportMap _ => true
  | _ => false

/-- All operations of discovery. -/
def Op.discovers : Op → Bool
  | .look | .readDev _ | .waitCb => true
  | o => o.discovery

/-- Those of its loops over services, characteristics and descriptors. -/
def Op.searches : Op → Bool
  | .look | .readDev _ | .waitCb | .assertStatus | .discAllChrs _ _ _ | .discAllDscs _ _ _
  | .readLong _ _ _ | .endRead _ | .mallocReport | .readSvc _ | .readChr _ | .readDefHandle _
  | .resetChrs | .readDsc _ | .resetDscs | .setField _ _ | .freeBuf _ => true
  | _ => false

/-- Those that examine one characteristic or descriptor. -/
def Op.examines : Op → Bool
  | .look | .readDev _ | .waitCb | .readLong _ _ _ | .endRead _ | .mallocReport | .setField _ _
  | .freeBuf _ => true
  | _ => false

/-- Those of its loop over the report maps. -/
def Op.parses : Op → Bool
  | .look | .readDev _ | .setField _ _ | .readReportMap _ _ | .parseReportMap _ => true
  | _ => false

/-- The operations of a transport call on its link, apart from discovery. -/
def Op.attends : Op → Bool
  | .look | .readDev _ | .waitCb | .writeFlat _ _ _ | .installCallbacks _ | .securityInitiate _
  | .takeSec _ _ _ | .setConnected _ _ | .postOpen _ _ => true
  | _ => false

/-- The operations of a transport call on its device, apart from discovery. -/
def Op.links : Op → Bool
  | .drainCb | .drainSec | .gapConnect _ _ | .readConnId _ _ => true
  | o => o.attends

/-- The operations outside of discovery. -/
def Op.outside (o : Op) : Bool := !o.discovery

/-- The buffer that a device keeps in the field. -/
def DevField.buf? : DevField → Option Buf
  | .deviceName buf | .manufacturerName buf | .serialNumber buf | .reportMap _ buf _ => buf
  | _ => none

/-- The operations on a buffer that was read: it is kept, freed or parsed. -/
def Op.onBuf : Op → Bool
  | .setField _ field => field.buf?.isSome
  | .freeBuf buf | .parseReportMap buf => buf.isSome
  | _ => false

/-- The two ends of the read of a value. -/
def Op.ofRead : Op → Bool
  | .readLong _ _ _ | .endRead _ => true
  | _ => false

/-- The operations of a class that neither read a value nor are on one. -/
def Op.bufless (P : Op → Bool) (o : Op) : Bool := P o && !(o.onBuf || o.ofRead)

/-- `I` is kept by what the operations of class `P` and the environment do, and with the place of
such an operation it gives the operation's precondition `pre`. -/
structure Carried (P : Op → Bool) (g : Guard Op Choice Sys Event) (pre : Op → Sys → Prop)
    (I : Sys → Prop) : Prop where
  exec : ∀ o c s, P o = true → I s → s.fault = none → o.ready s = true → g.main o c s = true →
    o.At s.ctl → I (o.exec c s)
  env : Stable host g I
  pre : ∀ o s, P o = true → I s → s.fault = none → o.At s.ctl → pre o s

/-- The control state is `c`, and `I` holds. -/
def Standing (I : Sys → Prop) (c : Ctl) (s : Sys) : Prop := s.ctl = c ∧ I s

section Walk

variable {P R : Op → Bool} {g : Guard Op Choice Sys Event} {pre : Op → Sys → Prop}
variable {I : Sys → Prop} {α β : Type} {c c' : Ctl}

theorem live_iff {s : Sys} : host.live s = true ↔ s.fault = none := by
  simp [host]

theorem stable_ctl (c : Ctl) : Stable host g fun s => s.ctl = c := by
  rintro s s' ⟨e, -, -, hstep⟩ hs
  rw [eventStep_ctl hstep, hs]

/-- One operation. A fault that it meets ends the run. -/
theorem triple_ask {A : Sys → Prop} {Q : α → Sys → Prop} {o : Op} {r : Choice → Sys → α}
    (hA : Stable host g A) (hQ : ∀ a, Stable host g (Q a))
    (hpre : ∀ s, A s → s.fault = none → pre o s)
    (hexec : ∀ ch s, A s → s.fault = none → o.ready s = true → g.main o ch s = true →
      (o.exec ch s).fault = none → Q (r ch s) (o.exec ch s)) :
    Triple host g pre A (.ask o r) Q := by
  refine .op hA (fun s hs hlive => hpre s hs (live_iff.mp hlive)) ?_
  intro ch s hs hlive hready hg
  cases hnext : (o.exec ch s).fault with
  | some f => exact wp_of_dead (by simp [host, hnext]) _
  | none =>
    have hdone := hexec ch s hs (live_iff.mp hlive) hready hg hnext
    exact fun s' hrun _ => (hQ _).interfere hrun hdone

variable (h : Carried P g pre I)
include h

/-- What is carried through more operations is carried through fewer. -/
theorem Carried.mono (hP : ∀ o, R o = true → P o = true) : Carried R g pre I where
  exec o c s ho := h.exec o c s (hP o ho)
  env := h.env
  pre o s ho := h.pre o s (hP o ho)

theorem Carried.standing (c : Ctl) : Stable host g (Standing I c) := (stable_ctl c).and h.env

theorem Carried.ret (a : α) : Triple host g pre (Standing I c) (.ret a) fun _ => Standing I c :=
  .ret (h.standing c) fun _ => id

/-- One operation. The control state it leads to may depend on its result. -/
theorem Carried.op {o : Op} {r : Choice → Sys → α} (f : α → Ctl) (hP : P o = true) (hat : o.At c)
    (hexec : ∀ (ch : Choice) (s : Sys), s.ctl = c → (o.exec ch s).fault = none →
      (s.view.exec o ch).ctl = f (r ch s)) :
    Triple host g pre (Standing I c) (.ask o r) fun a => Standing I (f a) := by
  refine triple_ask (h.standing c) (fun _ => h.standing _)
    (fun s hs hlive => h.pre o s hP hs.2 hlive (hs.1 ▸ hat)) ?_
  intro ch s hs hlive hready hg hnext
  exact ⟨(exec_ctl o ch s).trans (hexec ch s hs.1 hnext),
    h.exec o ch s hP hs.2 hlive hready hg (hs.1 ▸ hat)⟩

end Walk

/-- The task leaves the main task where it is. -/
def Keeps {α : Type} (g : Guard Op Choice Sys Event) (pre : Op → Sys → Prop) (I : Sys → Prop)
    (c : Ctl) (t : Prog α) : Prop :=
  Triple host g pre (Standing I c) t fun _ => Standing I c

namespace Keeps

variable {P : Op → Bool} {g : Guard Op Choice Sys Event} {pre : Op → Sys → Prop}
variable {I : Sys → Prop} {α β : Type} {c : Ctl}

theorem bind {t : Prog α} {f : α → Prog β} (ht : Keeps g pre I c t)
    (hf : ∀ a, Keeps g pre I c (f a)) : Keeps g pre I c (t >>= f) :=
  Triple.bind ht hf

theorem ret (h : Carried P g pre I) (a : α) : Keeps g pre I c (pure a) := h.ret a

theorem ite {p : Prop} [Decidable p] {t u : Prog α} (ht : Keeps g pre I c t)
    (hu : Keeps g pre I c u) : Keeps g pre I c (if p then t else u) := by
  split
  · exact ht
  · exact hu

theorem when (h : Carried P g pre I) {p : Prop} [Decidable p] {t : Prog Unit}
    (ht : Keeps g pre I c t) : Keeps g pre I c (.when p t) :=
  ite ht (ret h ())

theorem op (h : Carried P g pre I) {o : Op} {r : Choice → Sys → α} (hP : P o = true)
    (hat : o.At c) (hexec : ∀ (ch : Choice) (v : View), v.ctl = c → (v.exec o ch).ctl = c) :
    Keeps g pre I c (.ask o r) :=
  h.op (fun _ => c) hP hat fun ch s hs _ => hexec ch s.view hs

/-- An operation that leaves the control state. -/
theorem plain (h : Carried P g pre I) (o : Op) {r : Choice → Sys → α} (hP : P o = true)
    (hat : o.At c) (hexec : ∀ (ch : Choice) (v : View), (v.exec o ch).ctl = v.ctl) :
    Keeps g pre I c (.ask o r) :=
  op h hP hat fun ch v hv => (hexec ch v).trans hv

theorem look (h : Carried P g pre I) (hP : P .look = true) (f : Sys → α)
    (hc : c.awaiting = false) : Keeps g pre I c (Host.look f) :=
  op h hP hc fun _ _ hv => hv

theorem readDev (h : Carried P g pre I) {d : DevId} (hP : P (.readDev d) = true)
    (r : Choice → Sys → α) (hat : (Op.readDev d).At c) : Keeps g pre I c (.ask (.readDev d) r) :=
  plain h (.readDev d) hP hat fun _ _ => rfl

end Keeps

/-! ## Examining characteristics and descriptors -/

/-- In the discovery of an open, unless it gave up. -/
abbrev searching (ph : Phase) (d : DevId) (gaveUp : Bool) : Ctl :=
  ⟨ph, .linked .open d (if gaveUp then .abandoned else .secured), false⟩

/-- In the discovery of an open. -/
abbrev discovering (ph : Phase) (d : DevId) : Ctl := searching ph d false

/-- Discovery has come to its end. -/
abbrev discovered (ph : Phase) (d : DevId) : Ctl := ⟨ph, .linked .open d .discovered, false⟩

/-- The field keeps the buffer that was read; the protocol mode keeps none. -/
structure KeepsRead (uuid : UInt16) (field : ReadVar → DevField) : Prop where
  kept : uuid ≠ Uuid.protocolMode → ∀ out, (field out).buf? = out.rdata
  unkept : uuid = Uuid.protocolMode → ∀ out, (field out).buf? = none
  other : uuid ≠ Uuid.pnpId ∧ uuid ≠ Uuid.rptRef

theorem KeepsRead.of_ne {uuid : UInt16} {field : ReadVar → DevField}
    (h : uuid ≠ Uuid.protocolMode ∧ uuid ≠ Uuid.pnpId ∧ uuid ≠ Uuid.rptRef)
    (hfield : ∀ out, (field out).buf? = out.rdata) : KeepsRead uuid field :=
  ⟨fun _ => hfield, fun heq => absurd heq h.1, h.2⟩

theorem KeepsRead.protocolMode {field : ReadVar → DevField}
    (hfield : ∀ out, (field out).buf? = none) : KeepsRead Uuid.protocolMode field :=
  ⟨fun hne => absurd rfl hne, fun _ => hfield, by decide⟩

theorem KeepsRead.buf? {uuid : UInt16} {field : ReadVar → DevField} (h : KeepsRead uuid field)
    (out : ReadVar) : (field out).buf? = none ∨ (field out).buf? = out.rdata :=
  (Decidable.em (uuid = Uuid.protocolMode)).imp (h.unkept · out) (h.kept · out)

/-- What holds after a characteristic was examined: `J` of the locals, or `I` where discovery gave
up. -/
def Examined (I : Sys → Prop) (J : DiscVars → Sys → Prop) (ph : Phase) (d : DevId) :
    ChrNext → Sys → Prop
  | .stop => Standing I (searching ph d true)
  | .skip v | .descriptors v => Standing (J v) (discovering ph d)

/-- The same for a loop. -/
def Found (I : Sys → Prop) (J : DiscVars → Sys → Prop) (ph : Phase) (d : DevId) :
    Option DiscVars → Sys → Prop
  | none => Standing I (searching ph d true)
  | some v => Standing (J v) (discovering ph d)

/-- `J` of the locals survives what is read into them and what is stored from them; where a report
cannot be allocated, `I` holds. -/
structure Reading (g : Guard Op Choice Sys Event) (pre : Op → Sys → Prop) (I : Sys → Prop)
    (J : DiscVars → Sys → Prop) (ph : Phase) (d : DevId) : Prop where
  into : ∀ chr v field, KeepsRead chr.uuid16 field → Triple host g pre (Standing (J v) (discovering ph d))
    (readInto d chr v field) fun v' => Standing (J v') (discovering ph d)
  pnpId : ∀ chr v, chr.uuid16 = Uuid.pnpId →
    Triple host g pre (Standing (J v) (discovering ph d)) (readPnpId d chr v) (Examined I J ph d)
  malloc : ∀ v, Triple host g pre (Standing (J v) (discovering ph d)) (call .mallocReport) fun rc =>
    if rc = 0 then Standing (J v) (discovering ph d) else Standing I (searching ph d true)
  reportRef : ∀ dsc report v, dsc.uuid16 = Uuid.rptRef → v.report = some report →
    Triple host g pre (Standing (J v) (discovering ph d)) (readReportRef d dsc report v)
      fun v' => Standing (J v') (discovering ph d)
  push : ∀ suuid v, Keeps g pre (J v) (discovering ph d) (pushReport d suuid v)
  created : ∀ chr v s, J v s → J { v with report := some (newReport chr v.hidindex) } s
  configured : ∀ handle report v s, v.report = some report → J v s →
    J { v with report := some { report with cccHandle := handle } } s

section Examining

variable {P : Op → Bool} {g : Guard Op Choice Sys Event} {pre : Op → Sys → Prop}
variable {I : Sys → Prop} {J : DiscVars → Sys → Prop} {α : Type} {ph : Phase} {d : DevId}

/-- The wait for a request. -/
theorem triple_waitCb (h : Carried P g pre I) (hP : P .waitCb = true) {st : Stage} :
    Triple host g pre (Standing I ⟨ph, st, true⟩) (.perform .waitCb) fun _ =>
      Standing I ⟨ph, st, false⟩ :=
  h.op (fun _ => _) hP rfl fun ch s hs _ => by simp [View.exec, Sys.view, hs]

/-- An allocation, after which discovery may have given up. -/
theorem triple_malloc (h : Carried P g pre I) (o : Op) (hP : P o = true)
    (hat : o.At (discovering ph d))
    (hexec : ∀ (ch : Choice) (v : View), v.exec o ch =
      v.setStage (if ch.rc = 0 then v.ctl.stage else v.ctl.stage.advance .abandoned)) :
    Triple host g pre (Standing I (discovering ph d)) (call o) fun rc =>
      Standing I (searching ph d (rc != 0)) := by
  refine h.op (fun rc : Int => searching ph d (rc != 0)) hP hat fun ch s hs _ => ?_
  rw [hexec]
  have hctl : s.view.ctl = discovering ph d := hs
  by_cases hrc : ch.rc = 0 <;> simp [hrc, hctl, Stage.advance]

theorem triple_mallocReport (h : Carried P g pre I) (hP : P .mallocReport = true) :
    Triple host g pre (Standing I (discovering ph d)) (call .mallocReport) fun rc =>
      if rc = 0 then Standing I (discovering ph d) else Standing I (searching ph d true) := by
  refine (triple_malloc h .mallocReport hP ⟨⟨d, rfl⟩, rfl⟩ fun _ _ => rfl).weaken fun rc s hs => ?_
  by_cases hzero : rc = 0
  · rw [if_pos hzero]
    rwa [hzero] at hs
  · rw [if_neg hzero]
    rwa [bne_iff_ne.mpr hzero] at hs

/-! ### Where nothing depends on the values -/

section

variable (h : Carried Op.examines g pre I)
include h

theorem keeps_readLongValue (handle uuid : UInt16) (out : ReadVar) :
    Keeps g pre I (discovering ph d) (readLongValue d handle uuid out) := by
  refine Triple.bind (B := fun rc : Int => Standing I { discovering ph d with awaiting := rc == 0 })
    (h.op (o := .readLong d handle uuid) (fun _ => _) rfl ⟨rfl, rfl⟩ ?_) fun rc => ?_
  · intro ch s hs _
    rw [View.exec, ← hs]
    rfl
  · refine Triple.ite (fun hne => ?_) fun hzero => ?_
    · rw [beq_eq_false_iff_ne.mpr hne]
      exact Keeps.ret h _
    · rw [beq_iff_eq.mpr (Decidable.not_not.mp hzero)]
      exact Triple.bind (triple_waitCb h rfl) fun _ =>
        Keeps.plain h (.endRead uuid) rfl ⟨⟨d, rfl⟩, rfl⟩ fun _ _ => rfl

theorem keeps_setField (field : DevField) :
    Keeps g pre I (discovering ph d) (.perform (.setField d field)) :=
  Keeps.plain h (.setField d field) rfl ⟨.inl rfl, rfl⟩ fun _ _ => rfl

theorem keeps_freeBuf (buf : Option Buf) :
    Keeps g pre I (discovering ph d) (.perform (.freeBuf buf)) :=
  Keeps.plain h (.freeBuf buf) rfl ⟨⟨d, rfl⟩, rfl⟩ fun _ _ => rfl

theorem keeps_pushReport (suuid : UInt16) (v : DiscVars) :
    Keeps g pre I (discovering ph d) (pushReport d suuid v) := by
  unfold pushReport
  split
  · exact Keeps.when h (keeps_setField h _)
  · exact Keeps.ret h _

theorem Reading.of_examines : Reading g pre I (fun _ => I) ph d where
  into _ _ _ _ := (keeps_readLongValue h _ _ _).bind fun _ =>
    (Keeps.when h (keeps_setField h _)).bind fun _ => Keeps.ret h _
  pnpId _ _ _ := Triple.bind (keeps_readLongValue h _ _ _) fun _ =>
    Triple.bind (Keeps.when h (keeps_setField h _)) fun _ =>
      Triple.bind (keeps_freeBuf h _) fun _ => .ret (h.standing _) fun _ => id
  malloc _ := triple_mallocReport h rfl
  reportRef _ _ _ _ _ := (keeps_readLongValue h _ _ _).bind fun _ =>
    .ite ((keeps_freeBuf h _).bind fun _ => Keeps.ret h _) (Keeps.ret h _)
  push := keeps_pushReport h
  created _ _ _ := id
  configured _ _ _ _ _ := id

end

/-! ### One characteristic, one descriptor -/

variable (h : ∀ v, Carried (Op.bufless Op.examines) g pre (J v)) (hread : Reading g pre I J ph d)
include h

theorem triple_skip (v : DiscVars) :
    Triple host g pre (Standing (J v) (discovering ph d)) (pure (.skip v)) (Examined I J ph d) :=
  .ret ((h v).standing _) fun _ => id

theorem triple_descriptors (v : DiscVars) :
    Triple host g pre (Standing (J v) (discovering ph d)) (pure (.descriptors v))
      (Examined I J ph d) :=
  .ret ((h v).standing _) fun _ => id

theorem keeps_plainField (v : DiscVars) (field : DevField) (hbuf : field.buf? = none) :
    Keeps g pre (J v) (discovering ph d) (.perform (.setField d field)) :=
  Keeps.plain (h v) (.setField d field) (by simp [Op.bufless, Op.examines, Op.onBuf, Op.ofRead, hbuf])
    ⟨.inl rfl, rfl⟩ fun _ _ => rfl

theorem triple_basChr (chr : GattChr) (v : DiscVars) :
    Triple host g pre (Standing (J v) (discovering ph d)) (basChr d chr v) (Examined I J ph d) :=
  .ite (fun _ => Triple.bind (keeps_plainField h v _ rfl) fun _ => triple_descriptors h v)
    fun _ => triple_skip h v

include hread

theorem triple_gapChr (chr : GattChr) (v : DiscVars) :
    Triple host g pre (Standing (J v) (discovering ph d)) (gapChr d chr v) (Examined I J ph d) :=
  Triple.bind (Keeps.readDev (h v) rfl _ ⟨rfl, rfl⟩) fun _ => .ite
    (fun hif => by
      have huuid : chr.uuid16 = Uuid.deviceName := by simp_all
      exact Triple.bind (hread.into _ _ _ (huuid ▸ .of_ne (by decide) fun _ => rfl))
        (triple_descriptors h))
    fun _ => triple_skip h v

theorem triple_disChr (chr : GattChr) (v : DiscVars) :
    Triple host g pre (Standing (J v) (discovering ph d)) (disChr d chr v) (Examined I J ph d) := by
  have hinto : ∀ {uuid : UInt16} {field : ReadVar → DevField}, chr.uuid16 = uuid →
      KeepsRead uuid field →
      Triple host g pre (Standing (J v) (discovering ph d))
        (readInto d chr v field >>= fun v => pure (.skip v)) (Examined I J ph d) :=
    fun huuid hkeeps => Triple.bind (hread.into _ _ _ (huuid ▸ hkeeps)) (triple_skip h)
  exact .ite (fun _ => .ite (hread.pnpId chr v) fun _ =>
      .ite (fun huuid => hinto huuid (.of_ne (by decide) fun _ => rfl)) fun _ =>
        .ite (fun huuid => hinto huuid (.of_ne (by decide) fun _ => rfl))
          fun _ => triple_skip h v)
    fun _ => triple_skip h v

theorem triple_hidChr (hstop : Stable host g (Standing I (searching ph d true))) (chr : GattChr)
    (v : DiscVars) :
    Triple host g pre (Standing (J v) (discovering ph d)) (hidChr d chr v) (Examined I J ph d) := by
  refine .ite (fun huuid => .ite
      (fun _ => Triple.bind (hread.into _ _ _ (huuid ▸ .protocolMode fun _ => rfl)) (triple_skip h))
      fun _ => triple_skip h v) fun _ => .ite (fun huuid => .ite
      (fun _ => Triple.bind (hread.into _ _ _ (huuid ▸ .of_ne (by decide) fun _ => rfl))
        (triple_skip h))
      fun _ => triple_skip h v) fun _ => .ite (fun _ => ?_) fun _ => triple_skip h v
  refine Triple.bind (hread.malloc v) fun rc => .ite (fun hne => ?_) fun hzero => ?_
  · rw [if_neg hne]
    exact .ret hstop fun _ => id
  · rw [if_pos (Decidable.not_not.mp hzero)]
    exact .ret ((h v).standing _) fun s hs => ⟨hs.1, hread.created chr v s hs.2⟩

theorem triple_examineChr (hstop : Stable host g (Standing I (searching ph d true)))
    (suuid : UInt16) (chr : GattChr) (v : DiscVars) :
    Triple host g pre (Standing (J v) (discovering ph d)) (examineChr d suuid chr v)
      (Examined I J ph d) :=
  .ite (fun _ => triple_gapChr h hread _ _) fun _ => .ite (fun _ => triple_basChr h _ _) fun _ =>
    .ite (fun _ => triple_disChr h hread _ _) fun _ => triple_hidChr h hread hstop _ _

theorem triple_reportDsc (dsc : GattDsc) {report : DevReport} {v : DiscVars}
    (hreport : v.report = some report) :
    Triple host g pre (Standing (J v) (discovering ph d)) (reportDsc d dsc report v)
      fun v' => Standing (J v') (discovering ph d) := by
  refine .ite (fun _ => ?_) fun _ => .ite (fun huuid => hread.reportRef _ _ _ huuid hreport)
    fun _ => (h v).ret v
  exact .ret ((h v).standing _) fun s hs => ⟨hs.1, hread.configured _ _ v s hreport hs.2⟩

theorem triple_examineDsc (suuid : UInt16) (chr : GattChr) (dsc : GattDsc) (v : DiscVars) :
    Triple host g pre (Standing (J v) (discovering ph d)) (examineDsc d suuid chr dsc v)
      fun v' => Standing (J v') (discovering ph d) := by
  refine .ite (fun _ => Triple.bind (Keeps.when (h v) (keeps_plainField h v _ rfl)) fun _ =>
    (h v).ret v) fun _ => ?_
  split
  · rename_i report hreport
    exact .ite (fun _ => triple_reportDsc h hread dsc hreport) fun _ => (h v).ret v
  · exact (h v).ret v

end Examining

/-! ## The loops of discovery -/

section Searching

variable {P : Op → Bool} {g : Guard Op Choice Sys Event} {pre : Op → Sys → Prop} {I : Sys → Prop}
variable {J : DiscVars → Sys → Prop} {α : Type} {ph : Phase} {d : DevId}

theorem Carried.examining (h : Carried (Op.bufless Op.searches) g pre I) :
    Carried (Op.bufless Op.examines) g pre I :=
  h.mono fun o ho => by
    cases o with
    | look | readDev _ | waitCb | readLong _ _ _ | endRead _ | mallocReport | setField _ _
    | freeBuf _ => exact ho
    | _ => cases ho

/-- The wait for a discovery request. -/
theorem triple_waitDisc (h : Carried P g pre I) (hwait : P .waitCb = true)
    (hassert : P .assertStatus = true) {step : LinkStep} :
    Triple host g pre (Standing I ⟨ph, .linked .open d step, true⟩) waitDisc fun _ =>
      Standing I ⟨ph, .linked .open d step, false⟩ :=
  Triple.bind (triple_waitCb h hwait) fun _ =>
    Keeps.plain h .assertStatus hassert ⟨⟨d, step, rfl⟩, rfl⟩ fun _ _ => rfl

/-- A discovery request, up to the end of the wait for it. -/
theorem triple_request (h : Carried (Op.bufless Op.searches) g pre I) {Q : α → Sys → Prop} (o : Op)
    (ho : Op.bufless Op.searches o = true) {f : Int → Prog α} (hat : o.At (discovering ph d))
    (hexec : ∀ (ch : Choice) (v : View), v.exec o ch = v.setAwaiting true)
    (hf : ∀ rc, Triple host g pre (Standing I (discovering ph d)) (f rc) Q) :
    Triple host g pre (Standing I (discovering ph d))
      (call o >>= fun rc => waitDisc >>= fun _ => f rc) Q := by
  refine Triple.bind (B := fun _ => Standing I { discovering ph d with awaiting := true })
    (h.op (fun _ => _) ho hat ?_) fun rc => Triple.bind (triple_waitDisc h rfl rfl) fun _ => hf rc
  intro ch s hs _
  rw [hexec, ← hs]
  rfl

variable (h : ∀ v, Carried (Op.bufless Op.searches) g pre (J v)) (hread : Reading g pre I J ph d)
include h hread

theorem triple_dscLoop (suuid : UInt16) (chr : GattChr) : ∀ (n i : Nat) (v : DiscVars),
    Triple host g pre (Standing (J v) (discovering ph d)) (dscLoop d suuid chr n i v)
      fun v' => Standing (J v') (discovering ph d) := by
  intro n
  induction n with
  | zero => exact fun _ v => (h v).ret v
  | succ n ih =>
    intro i v
    exact Triple.bind (Keeps.plain (h v) (.readDsc i) rfl ⟨⟨d, rfl⟩, rfl⟩ fun _ _ => rfl) fun _ =>
      Triple.bind (triple_examineDsc (fun v => (h v).examining) hread _ _ _ _) fun v => ih _ v

theorem triple_chrDescriptors (suuid : UInt16) (chr : GattChr) (endHandle : UInt16)
    (v : DiscVars) :
    Triple host g pre (Standing (J v) (discovering ph d)) (chrDescriptors d suuid chr endHandle v)
      fun v' => Standing (J v') (discovering ph d) :=
  triple_request (h v) (.discAllDscs d chr.valHandle endHandle) rfl ⟨rfl, rfl⟩ (fun _ _ => rfl)
    fun _ => Triple.bind (Keeps.look (h v) rfl _ rfl) fun _ =>
      Triple.bind (triple_dscLoop h hread _ _ _ _ _) fun v =>
        Triple.bind (hread.push _ _) fun _ =>
          Triple.bind (Keeps.plain (h v) .resetDscs rfl ⟨⟨d, rfl⟩, rfl⟩ fun _ _ => rfl) fun _ =>
            (h v).ret v

/-- Behind an examined characteristic: its descriptors, if any, and the rest of the loop. -/
theorem triple_chrNext (hstop : Stable host g (Standing I (searching ph d true)))
    (svc : GattSvc) (chr : GattChr) (n i : Nat) {rest : DiscVars → Prog (Option DiscVars)}
    (hrest : ∀ v, Triple host g pre (Standing (J v) (discovering ph d)) (rest v) (Found I J ph d))
    (next : ChrNext) :
    Triple host g pre (Examined I J ph d next)
      (match next with
      | .stop => pure none
      | .skip v => rest v
      | .descriptors v => chrEndHandle svc n i >>= fun endHandle =>
        chrDescriptors d svc.uuid16 chr endHandle v >>= rest) (Found I J ph d) := by
  cases next with
  | stop => exact .ret hstop fun _ => id
  | skip v => exact hrest v
  | descriptors v =>
    refine Triple.bind (Keeps.ite (Keeps.ret (h v) _) ?_) fun _ =>
      Triple.bind (triple_chrDescriptors h hread _ _ _ _) hrest
    exact Keeps.plain (h v) (.readDefHandle (i + 1)) rfl ⟨⟨d, rfl⟩, rfl⟩ fun _ _ => rfl

theorem triple_chrLoop (hstop : Stable host g (Standing I (searching ph d true)))
    (svc : GattSvc) : ∀ (n i : Nat) (v : DiscVars),
    Triple host g pre (Standing (J v) (discovering ph d)) (chrLoop d svc n i v) (Found I J ph d) := by
  intro n
  induction n with
  | zero => exact fun _ v => .ret ((h v).standing _) fun _ => id
  | succ n ih =>
    intro i v
    exact Triple.bind (Keeps.plain (h v) (.readChr i) rfl ⟨⟨d, rfl⟩, rfl⟩ fun _ _ => rfl) fun chr =>
      Triple.bind (triple_examineChr (fun v => (h v).examining) hread hstop _ _ _)
        (triple_chrNext h hread hstop svc chr n i (ih (i + 1)))

theorem triple_examineSvc (hstop : Stable host g (Standing I (searching ph d true)))
    (hnext : ∀ v s, J v s → J { v with hidindex := v.hidindex + 1 } s) (svc : GattSvc)
    (v : DiscVars) :
    Triple host g pre (Standing (J v) (discovering ph d)) (examineSvc d svc v) (Found I J ph d) := by
  refine .ite (fun _ => triple_request (h v) (.discAllChrs d svc.startHandle svc.endHandle) rfl
    ⟨rfl, rfl⟩ (fun _ _ => rfl) fun rc => Triple.bind (Keeps.look (h v) rfl _ rfl) fun _ =>
      Triple.bind (triple_chrLoop h hread hstop _ _ _ _) fun v? => ?_)
    fun _ => .ret ((h v).standing _) fun _ => id
  cases v? with
  | none => exact .ret hstop fun _ => id
  | some v =>
    exact Triple.bind (Keeps.plain (h v) .resetChrs rfl ⟨⟨d, rfl⟩, rfl⟩ fun _ _ => rfl) fun _ =>
      .ite (fun _ => .ret ((h v).standing _) fun s hs => ⟨hs.1, hnext v s hs.2⟩)
        fun _ => .ret ((h v).standing _) fun _ => id

theorem triple_svcLoop (hstop : Stable host g (Standing I (searching ph d true)))
    (hnext : ∀ v s, J v s → J { v with hidindex := v.hidindex + 1 } s) :
    ∀ (n i : Nat) (v : DiscVars),
    Triple host g pre (Standing (J v) (discovering ph d)) (svcLoop d n i v) (Found I J ph d) := by
  intro n
  induction n with
  | zero => exact fun _ v => .ret ((h v).standing _) fun _ => id
  | succ n ih =>
    intro i v
    refine Triple.bind (Keeps.plain (h v) (.readSvc i) rfl ⟨⟨d, rfl⟩, rfl⟩ fun _ _ => rfl)
      fun svc => Triple.bind (triple_examineSvc h hread hstop hnext _ _) fun v? => ?_
    cases v? with
    | none => exact .ret hstop fun _ => id
    | some v => exact ih _ _

end Searching

/-! ## `read_device_services` -/

section Discovery

variable {g : Guard Op Choice Sys Event} {pre : Op → Sys → Prop} {I : Sys → Prop}
variable {α : Type} {ph : Phase} {d : DevId}

/-- Discovery came to its end, or gave up. -/
def Discovered (I : Sys → Prop) (ph : Phase) (d : DevId) (s : Sys) : Prop :=
  ∃ step : LinkStep, step.Last .open ∧ Standing I ⟨ph, .linked .open d step, false⟩ s

section

variable (h : Carried (Op.bufless Op.discovers) g pre I)
include h

theorem discovered_gaveUp : Triple host g pre (Standing I (searching ph d true)) (pure ())
    fun _ => Discovered I ph d :=
  .ret (h.standing _) fun _ hs => ⟨.abandoned, .inr rfl, hs⟩

/-- An allocation without which discovery gives up. -/
theorem triple_orGiveUp (o : Op) (ho : Op.bufless Op.discovers o = true) {t : Prog Unit}
    (hat : o.At (discovering ph d))
    (hexec : ∀ (ch : Choice) (v : View), v.exec o ch =
      v.setStage (if ch.rc = 0 then v.ctl.stage else v.ctl.stage.advance .abandoned))
    (ht : Triple host g pre (Standing I (discovering ph d)) t fun _ => Discovered I ph d) :
    Triple host g pre (Standing I (discovering ph d))
      (call o >>= fun rc => if rc ≠ 0 then pure () else t) fun _ => Discovered I ph d := by
  refine Triple.bind (triple_malloc h o ho hat hexec) fun rc => .ite (fun hne => ?_) fun hzero => ?_
  · rw [bne_iff_ne.mpr hne]
    exact discovered_gaveUp h
  · rw [Decidable.not_not.mp hzero]
    exact ht

/-- `read_device_services`, given its loops over the services and over the report maps. -/
theorem triple_readDeviceServices
    (hsvcs : ∀ n, Triple host g pre (Standing I (discovering ph d)) (svcLoop d n 0 {}) fun v? =>
      Standing I (searching ph d v?.isNone))
    (hmaps : ∀ n, Keeps g pre I (discovered ph d) (mapLoop d n 0)) :
    Triple host g pre (Standing I (discovering ph d)) (readDeviceServices d) fun _ =>
      Discovered I ph d := by
  refine Triple.bind
    (B := fun rc : Int => Standing I { searching ph d (rc != 0) with awaiting := true })
    (h.op (o := .discAllSvcs d)
      (fun rc : Int => { searching ph d (rc != 0) with awaiting := true }) rfl ⟨rfl, rfl⟩ ?_)
    fun rc => ?_
  · intro ch s hs _
    have hctl : s.view.ctl = discovering ph d := hs
    by_cases hrc : ch.rc = 0 <;> simp [View.exec, hrc, hctl, Stage.advance]
  refine Triple.bind (triple_waitDisc h rfl rfl) fun _ => Triple.bind (Keeps.look h rfl _ rfl) fun _ =>
    .ite (fun hzero => ?_) fun hne => ?_
  · rw [hzero]
    refine triple_orGiveUp h (.mallocReportMaps d) rfl ⟨rfl, rfl⟩ (fun _ _ => rfl)
      (triple_orGiveUp h (.mallocProtocolMode d) rfl ⟨rfl, rfl⟩ (fun _ _ => rfl) ?_)
    refine Triple.bind (hsvcs _) fun v? => ?_
    cases v? with
    | none => exact discovered_gaveUp h
    | some v =>
      refine Triple.bind (B := fun _ => Standing I (discovered ph d))
        (h.op (o := .svcsDone) (fun _ => discovered ph d) rfl ⟨⟨d, rfl⟩, rfl⟩
          fun ch s hs _ => ?_) fun _ =>
        Triple.bind (Keeps.readDev h rfl _ ⟨rfl, rfl⟩) fun len => ?_
      · have hctl : s.view.ctl = discovering ph d := hs
        simp [View.exec, hctl, Stage.advance]
      · exact (hmaps _).weaken fun _ s hs => ⟨.discovered, .inl rfl, hs⟩
  · rw [bne_iff_ne.mpr hne]
    exact discovered_gaveUp h

end

/-- A report map is fetched and, unless it is empty, parsed. -/
def Parsing (g : Guard Op Choice Sys Event) (pre : Op → Sys → Prop) (I : Sys → Prop) (ph : Phase)
    (d : DevId) : Prop :=
  ∀ i (skip : Prog Unit) (use : Option EspHidReportMap → Prog Unit),
    Keeps g pre I (discovered ph d) skip → (∀ map, Keeps g pre I (discovered ph d) (use map)) →
    Keeps g pre I (discovered ph d) (readReportMap d i >>= fun raw =>
      if raw.len = 0 then skip else parseReportMap raw.data >>= use)

theorem Parsing.of_parses (h : Carried Op.parses g pre I) : Parsing g pre I ph d :=
  fun i _ _ hskip huse =>
    (Keeps.plain h (.readReportMap d i) rfl ⟨⟨_, rfl⟩, rfl⟩ fun _ _ => rfl).bind fun raw =>
      .ite hskip ((Keeps.plain h (.parseReportMap raw.data) rfl ⟨⟨d, _, rfl⟩, rfl⟩
        fun _ _ => rfl).bind huse)

theorem keeps_mapLoop (h : Carried (Op.bufless Op.parses) g pre I)
    (hparse : Parsing g pre I ph d) : ∀ (n i : Nat),
    Keeps g pre I (discovered ph d) (mapLoop d n i) := by
  intro n
  induction n with
  | zero => exact fun _ => Keeps.ret h _
  | succ n ih =>
    intro i
    have hset : ∀ field : DevField, field.buf? = none →
        Keeps g pre I (discovered ph d) (.perform (.setField d field)) := fun field hbuf =>
      Keeps.plain h (.setField d field) (by simp [Op.bufless, Op.parses, Op.onBuf, Op.ofRead, hbuf])
        ⟨.inr rfl, rfl⟩ fun _ _ => rfl
    refine (Keeps.readDev h rfl _ ⟨rfl, rfl⟩).bind fun _ => .ite (ih _) (hparse i _ _ (ih _) fun map => ?_)
    cases map with
    | none => exact ih _
    | some map =>
      exact (Keeps.readDev h rfl _ ⟨rfl, rfl⟩).bind fun _ => (Keeps.when h (hset _ rfl)).bind fun _ =>
        (hset _ rfl).bind fun _ => ih _

/-- The loop over the services, in terms of its control state. -/
theorem triple_svcLoop_found {J : DiscVars → Sys → Prop} {A : Sys → Prop}
    (hJ : ∀ v, Carried (Op.bufless Op.searches) g pre (J v)) (hread : Reading g pre I J ph d)
    (hstop : Stable host g (Standing I (searching ph d true))) (hI : ∀ v s, J v s → I s)
    (hstart : ∀ s, A s → Standing (J {}) (discovering ph d) s)
    (hnext : ∀ v s, J v s → J { v with hidindex := v.hidindex + 1 } s) (n : Nat) :
    Triple host g pre A (svcLoop d n 0 {}) fun v? => Standing I (searching ph d v?.isNone) := by
  refine (triple_svcLoop hJ hread hstop hnext n 0 {}).conseq hstart fun v? s hs => ?_
  cases v? with
  | none => exact hs
  | some v => exact ⟨hs.1, hI v s hs.2⟩

/-- Discovery, where only the values may matter. -/
theorem triple_discovery {J : DiscVars → Sys → Prop} (h : Carried (Op.bufless Op.discovers) g pre I)
    (hJ : ∀ v, Carried (Op.bufless Op.searches) g pre (J v)) (hread : Reading g pre I J ph d)
    (hI : ∀ v s, J v s → I s) (hstart : ∀ s, I s → J {} s)
    (hnext : ∀ v s, J v s → J { v with hidindex := v.hidindex + 1 } s)
    (hparse : Parsing g pre I ph d) :
    Triple host g pre (Standing I (discovering ph d)) (readDeviceServices d) fun _ =>
      Discovered I ph d := by
  refine triple_readDeviceServices h (triple_svcLoop_found hJ hread (h.standing _) hI
    (fun s hs => ⟨hs.1, hstart s hs.2⟩) hnext) fun n => keeps_mapLoop (h.mono fun o ho => ?_) hparse n 0
  cases o with
  | look | readDev _ | setField _ _ | readReportMap _ _ | parseReportMap _ => exact ho
  | _ => cases ho

/-- Discovery, where nothing depends on the values. -/
theorem Carried.discovery (h : Carried (fun _ => true) g pre I) :
    Triple host g pre (Standing I (discovering ph d)) (readDeviceServices d) fun _ =>
      Discovered I ph d := by
  have hmono : ∀ R : Op → Bool, Carried R g pre I := fun R => h.mono fun _ _ => rfl
  exact triple_discovery (hmono _) (fun _ => hmono _) (.of_examines (hmono _)) (fun _ _ => id)
    (fun _ => id) (fun _ _ => id) (.of_parses (hmono _))

end Discovery

/-! ## Subscribing and security -/

section Transport

variable {P : Op → Bool} {g : Guard Op Choice Sys Event} {pre : Op → Sys → Prop}
variable {I : Sys → Prop} {α : Type} {ph : Phase} {kind : CallKind} {d : DevId}

theorem Carried.attending (h : Carried Op.links g pre I) : Carried Op.attends g pre I :=
  h.mono fun o ho => by
    cases o with
    | drainCb | drainSec | gapConnect _ _ | readConnId _ _ => rfl
    | _ => exact ho

theorem Carried.linking (h : Carried Op.outside g pre I) : Carried Op.links g pre I :=
  h.mono fun o ho => by
    cases o with
    | drainCb | drainSec | gapConnect _ _ | readConnId _ _ | look | readDev _ | waitCb
    | writeFlat _ _ _ | installCallbacks _ | securityInitiate _ | takeSec _ _ _ | setConnected _ _
    | postOpen _ _ => rfl
    | _ => cases ho

section

variable (h : Carried Op.attends g pre I)
include h

theorem keeps_writeCharDescr (conn handle : UInt16) (value : List UInt8) :
    Keeps g pre I ⟨ph, subscribing kind d, false⟩ (writeCharDescr conn handle value) := by
  refine Triple.bind (B := fun _ => Standing I ⟨ph, subscribing kind d, true⟩)
    (h.op (o := .writeFlat conn handle value) (fun _ => _) rfl ⟨⟨kind, d, rfl⟩, rfl⟩ ?_) fun _ => ?_
  · intro ch s hs _
    simp [View.exec, Sys.view, hs]
  · exact h.op (fun _ => _) rfl rfl fun ch s hs _ => by simp [View.exec, Sys.view, hs]

/-- The device that an open or a reconnect subscribes to. -/
theorem keeps_readSubscribing (r : Choice → Sys → α) :
    Keeps g pre I ⟨ph, subscribing kind d, false⟩ (.ask (.readDev d) r) :=
  Keeps.plain h (.readDev d) rfl ⟨by cases kind <;> rfl, rfl⟩ fun _ _ => rfl

theorem keeps_subscribe (handle cccHandle : UInt16) :
    Keeps g pre I ⟨ph, subscribing kind d, false⟩ (subscribe d handle cccHandle) :=
  (keeps_readSubscribing h _).bind fun conn => (keeps_writeCharDescr h conn handle _).bind fun _ =>
    Keeps.when h ((keeps_readSubscribing h _).bind fun _ => keeps_writeCharDescr h _ _ _)

theorem keeps_subscribeReports : ∀ reports : List DevReport,
    Keeps g pre I ⟨ph, subscribing kind d, false⟩ (subscribeReports d reports) := by
  intro reports
  induction reports with
  | nil => exact Keeps.ret h _
  | cons report reports ih =>
    exact (Keeps.when h (keeps_subscribe h _ _)).bind fun _ => ih

theorem keeps_attachReportListeners {k : CallKind} :
    Keeps g pre I ⟨ph, subscribing k d, false⟩ (attachReportListeners d) :=
  (keeps_readSubscribing h _).bind fun _ => (Keeps.when h (keeps_subscribe h _ _)).bind fun _ =>
    keeps_subscribeReports h _

/-- Security is over, in one way or another. -/
theorem triple_initiateSecurity :
    Triple host g pre (Standing I ⟨ph, .linked kind d .fresh, false⟩) (initiateSecurity d) fun _ =>
      Standing I ⟨ph, .linked kind d .secured, false⟩ := by
  refine Triple.bind (B := fun ret : Int =>
      Standing I ⟨ph, .linked kind d (if ret = 0 then .fresh else .secured), false⟩)
    (h.op (o := .securityInitiate d) (fun ret : Int => ⟨ph, .linked kind d _, false⟩) rfl
      ⟨⟨kind, rfl⟩, rfl⟩ fun ch s hs _ => ?_) fun ret => ?_
  · have hctl : s.view.ctl = ⟨ph, .linked kind d .fresh, false⟩ := hs
    by_cases hrc : ch.rc = 0 <;> simp [View.exec, hrc, hctl, Stage.advance]
  refine Triple.bind (Keeps.look h rfl _ rfl) fun hz => Triple.bind (Keeps.look h rfl _ rfl) fun since => ?_
  refine .ite (fun hzero => ?_) fun hne => ?_
  · rw [if_pos hzero]
    refine h.op (o := .takeSec d since (pdMsToTicks hz 30000)) (fun _ => _) rfl ⟨⟨kind, rfl⟩, rfl⟩
      fun ch s hs _ => ?_
    have hctl : s.view.ctl = ⟨ph, .linked kind d .fresh, false⟩ := hs
    simp [View.exec, hctl, Stage.advance]
  · rw [if_neg hne]
    exact h.ret ()

theorem triple_setConnected {step : LinkStep} (hlast : step.Last kind) :
    Triple host g pre (Standing I ⟨ph, .linked kind d step, false⟩)
      (.perform (.setConnected kind d)) fun _ => Standing I ⟨ph, .marked kind d, false⟩ :=
  h.op (o := .setConnected kind d) (fun _ => _) rfl ⟨⟨step, rfl, hlast⟩, rfl⟩ fun ch s hs _ => by
    simp [View.exec, Sys.view, hs]

theorem triple_postOpen :
    Triple host g pre (Standing I ⟨ph, .marked kind d, false⟩)
      (.perform (.postOpen kind d)) fun _ => Standing I ⟨ph, .opened kind d, false⟩ :=
  h.op (o := .postOpen kind d) (fun _ => _) rfl ⟨rfl, rfl⟩ fun ch s hs _ => by
    simp [View.exec, Sys.view, hs]

end

/-! ## The connection attempt -/

/-- The control state after a request to connect. -/
def afterConnect (ph : Phase) (kind : CallKind) (d : DevId) (accepted : Bool) : Ctl :=
  if accepted then ⟨ph, .connecting kind d, true⟩ else ⟨ph, .failed kind d, false⟩

/-- The control state after the wait for the connection. -/
def afterLink (ph : Phase) (kind : CallKind) (d : DevId) (linked : Bool) : Ctl :=
  if linked then ⟨ph, .linked kind d .fresh, false⟩ else ⟨ph, .failed kind d, false⟩

section

variable (h : Carried Op.links g pre I)
include h

theorem keeps_drainSemaphores {c : Ctl} (hc : c.awaiting = false) :
    Keeps g pre I c drainSemaphores :=
  (Keeps.op h (o := .drainCb) rfl hc fun _ _ hv => hv).bind fun _ =>
    Keeps.op h (o := .drainSec) rfl hc fun _ _ hv => hv

theorem triple_bleGapConnect :
    Triple host g pre (Standing I ⟨ph, .begun kind d, false⟩) (bleGapConnect kind d) fun accepted =>
      Standing I (afterConnect ph kind d accepted) := by
  refine h.op (o := .gapConnect kind d) (afterConnect ph kind d) rfl ⟨rfl, rfl⟩ ?_
  intro ch s hs hlive
  simp only [Op.exec] at hlive
  simp only [View.exec, key?_view]
  cases hdev : s.dev? d with
  | none => simp [hdev] at hlive
  | some dev =>
    simp only [Option.map_some, Option.getD_some, Dev.key, accepts_view]
    by_cases haccept : connectAccepted ch s dev.bda = true <;>
      simp [Sys.view, afterConnect, haccept, hs]

theorem triple_waitForLink :
    Triple host g pre (Standing I ⟨ph, .connecting kind d, true⟩) (waitForLink kind d) fun linked =>
      Standing I (afterLink ph kind d linked) := by
  refine Triple.bind (B := fun _ => Standing I ⟨ph, .connecting kind d, false⟩)
    (h.op (o := .waitCb) (fun _ => _) rfl rfl fun ch s hs _ => by simp [View.exec, Sys.view, hs])
    fun _ => ?_
  refine Triple.bind (B := fun connId : Int => Standing I (afterLink ph kind d (decide (0 ≤ connId))))
    (h.op (o := .readConnId kind d) _ rfl ⟨rfl, rfl⟩ ?_) fun connId =>
    .ret (h.standing _) fun _ => id
  intro ch s hs hlive
  simp only [Op.exec] at hlive
  simp only [View.exec, key?_view]
  cases hdev : s.dev? d with
  | none => simp [hdev] at hlive
  | some dev =>
    simp only [Option.map_some, Option.getD_some, Dev.key]
    by_cases hconn : 0 ≤ dev.connId <;> simp [Sys.view, afterLink, hconn, hs]

/-- An open on its device, given what it does with the connection, or without one. -/
theorem triple_openAllocated {Q : Option DevId → Sys → Prop}
    (hlinked : Triple host g pre (Standing I ⟨ph, .linked .open d .fresh, false⟩) (openLinked d) Q)
    (hfree : Triple host g pre (Standing I ⟨ph, .failed .open d, false⟩)
      ((.perform (.devFree d) : Prog Unit) >>= fun _ => pure none) Q) :
    Triple host g pre (Standing I ⟨ph, .begun .open d, false⟩) (openAllocated d) Q := by
  refine Triple.bind (keeps_drainSemaphores h rfl) fun _ =>
    Triple.bind (triple_bleGapConnect h) fun accepted => ?_
  cases accepted with
  | false => exact hfree
  | true =>
    refine Triple.bind (triple_waitForLink h) fun linked => ?_
    cases linked with
    | false => exact hfree
    | true => exact hlinked

end

/-! ## The transport calls -/

/-- The end of a transport call that returns `r`: its result belongs to the stage. -/
def Returning (I : Sys → Prop) (ph : Phase) (o : Option DevId → Op) (r : Option DevId) (s : Sys) :
    Prop :=
  ∃ st, (o r).At ⟨ph, st, false⟩ ∧ Standing I ⟨ph, st, false⟩ s

theorem returning_ret (h : Carried P g pre I) {o : Option DevId → Op} {st : Stage} {r : Option DevId}
    (hat : (o r).At ⟨ph, st, false⟩) :
    Triple host g pre (Standing I ⟨ph, st, false⟩) (pure r) (Returning I ph o) :=
  .ret (h.standing _) fun _ hs => ⟨st, hat, hs⟩

/-- The stage after an allocation. -/
def allocated : Option DevId → Stage
  | none => .none
  | some d => .begun .open d

section

variable (h : Carried Op.outside g pre I)
include h

theorem triple_devFree (hph : ph = .bonded ∨ ph = .connecting) :
    Triple host g pre (Standing I ⟨ph, .failed .open d, false⟩)
      ((.perform (.devFree d) : Prog Unit) >>= fun _ => pure none)
      (Returning I ph .openReturns) := by
  refine Triple.bind (B := fun _ => Standing I ⟨ph, .none, false⟩)
    (h.op (o := .devFree d) (fun _ => _) rfl ⟨rfl, rfl⟩ fun ch s hs _ => by
      simp [View.exec, Sys.view, hs]) fun _ => returning_ret h ⟨rfl, rfl, hph⟩

section

variable (hdisc : ∀ ph d, Triple host g pre (Standing I (discovering ph d)) (readDeviceServices d)
  fun _ => Discovered I ph d)
include hdisc

theorem triple_openLinked (hph : ph = .bonded ∨ ph = .connecting) :
    Triple host g pre (Standing I ⟨ph, .linked .open d .fresh, false⟩) (openLinked d)
      (Returning I ph .openReturns) := by
  have hattend := h.linking.attending
  refine Triple.bind (Keeps.op h (o := .installCallbacks d) rfl ⟨rfl, rfl⟩ fun _ _ hv => hv)
    fun _ => Triple.bind (triple_initiateSecurity hattend) fun _ =>
      Triple.bind (hdisc ph d) fun _ => ?_
  refine Triple.of_exists fun step => Triple.pure fun hlast => ?_
  refine Triple.bind (triple_setConnected hattend hlast) fun _ =>
    Triple.bind (triple_postOpen hattend) fun _ =>
      Triple.bind (keeps_attachReportListeners (k := .open) hattend) fun _ => ?_
  exact returning_ret h ⟨rfl, rfl, hph⟩

theorem triple_espBleHidhDevOpen (hph : ph = .bonded ∨ ph = .connecting) (bda : Bda)
    (addrType : UInt8) :
    Triple host g pre (Standing I ⟨ph, .called bda, false⟩) (espBleHidhDevOpen bda addrType)
      (Returning I ph .openReturns) := by
  refine Triple.bind (B := fun d? => Standing I ⟨ph, allocated d?, false⟩)
    (h.op (o := .devMalloc bda addrType) (fun d? => ⟨ph, allocated d?, false⟩) rfl
      ⟨hph, rfl, rfl⟩ ?_) fun d? => ?_
  · intro ch s hs _
    by_cases hrc : ch.rc = 0 <;> simp [View.exec, Sys.view, allocated, hrc, hs]
  · cases d? with
    | none => exact returning_ret h ⟨rfl, rfl, hph⟩
    | some d => exact triple_openAllocated h.linking (triple_openLinked h hdisc hph) (triple_devFree h hph)

theorem triple_espHidhDevOpen (site : OpenSite) (bda : Bda) (addrType : UInt8) :
    Triple host g pre (Standing I ⟨site.before bda, .none, false⟩) (espHidhDevOpen site bda addrType)
      fun _ => Standing I ⟨site.phase, .none, false⟩ := by
  have hph : site.phase = .bonded ∨ site.phase = .connecting := by cases site <;> simp [OpenSite.phase]
  refine Triple.bind
    (B := fun known : Bool => Standing I ⟨site.phase, if known then .none else .called bda, false⟩)
    (h.op (o := .openCall site bda) _ rfl rfl fun ch s hs _ => by
      simp only [View.exec, byBda_view, Option.isSome_map]
      simp [Sys.view, hs]) fun known => ?_
  refine Triple.bind (B := Returning I site.phase .openReturns) ?_ fun dev => ?_
  · cases known with
    | true => exact returning_ret h ⟨rfl, rfl, hph⟩
    | false => exact triple_espBleHidhDevOpen h hdisc hph bda addrType
  refine Triple.of_exists fun st => Triple.pure fun hat => ?_
  refine Triple.bind (h.op (o := .openReturns dev) (fun _ => ⟨site.phase, .none, false⟩) rfl hat
    fun ch s hs _ => by simp [View.exec, Sys.view, hs]) fun _ => h.ret _

end

theorem triple_reconnectInUse :
    Triple host g pre (Standing I ⟨.reconnecting, .begun .reconnect d, false⟩) (reconnectInUse d)
      (Returning I .reconnecting .reconnectReturns) := by
  refine Triple.bind (keeps_drainSemaphores h.linking rfl) fun _ =>
    Triple.bind (triple_bleGapConnect h.linking) fun accepted => ?_
  cases accepted with
  | false => exact returning_ret h ⟨⟨d, .inr rfl⟩, rfl, rfl⟩
  | true =>
    refine Triple.bind (triple_waitForLink h.linking) fun linked => ?_
    cases linked with
    | false => exact returning_ret h ⟨⟨d, .inr rfl⟩, rfl, rfl⟩
    | true =>
      refine Triple.bind (triple_initiateSecurity h.linking.attending) fun _ =>
        Triple.bind (triple_setConnected h.linking.attending
            (rfl : LinkStep.Last .reconnect .secured)) fun _ =>
          Triple.bind (keeps_attachReportListeners (k := .reconnect) h.linking.attending) fun _ =>
            Triple.bind (triple_postOpen h.linking.attending) fun _ => ?_
      exact returning_ret h ⟨rfl, rfl, rfl⟩

/-- A reconnect leads to an accepted connection if it returns the device. -/
theorem triple_espBleHidhDevReconnect :
    Triple host g pre (Standing I ⟨.reconnecting, .none, false⟩) (espBleHidhDevReconnect d)
      fun dev => Standing I ⟨if dev.isSome then .accepted else .reconnecting, .none, false⟩ := by
  refine Triple.bind (B := fun _ => Standing I ⟨.reconnecting, .begun .reconnect d, false⟩)
    (h.op (o := .reconnectCall d) (fun _ => _) rfl rfl fun ch s hs _ => by
      simp [View.exec, Sys.view, hs]) fun inUse => ?_
  refine Triple.bind (B := Returning I .reconnecting .reconnectReturns)
    (.ite (fun _ => triple_reconnectInUse h)
      fun _ => returning_ret h ⟨⟨d, .inl rfl⟩, rfl, rfl⟩) fun dev => ?_
  refine Triple.of_exists fun st => Triple.pure fun hat => ?_
  refine Triple.bind (h.op (o := .reconnectReturns dev)
    (fun _ => ⟨if dev.isSome then .accepted else .reconnecting, .none, false⟩) rfl hat ?_)
    fun _ => .ret (h.standing _) fun _ => id
  intro ch s hs _
  cases dev <;> simp [View.exec, Sys.view, hs]

end

end Transport

end BleKbdHost.Host
