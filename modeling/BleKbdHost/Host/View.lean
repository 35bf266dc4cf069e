import BleKbdHost.Host.MainTask

/-!
# The connection management

An abstract machine for what the states of the main task, the event task and the links have to do
with each other. `View` keeps of a device its identity, its address, its connection and its
`connected` flag, and leaves out GATT, the bond store and memory. `View.exec` is the
effect of an operation of the main task on it and `View.Effect` the possible effects of everything
beside the main task; `exec_view` and `eventStep_view` say that the code does just that.
-/

namespace BleKbdHost.Host

open Hid Keys Conc

/-- What the connection management knows of a device. -/
structure DevKey where
  id : DevId
  bda : Bda
  connId : Int := -1
  connected : Bool := false
  deriving DecidableEq, Repr

def Dev.key (dev : Dev) : DevKey := ⟨dev.id, dev.bda, dev.connId, dev.connected⟩

structure View where
  kbd : Kbd
  keys : List DevKey
  nextDev : DevId
  eventQueue : BoundedQueue 5 Posted
  nextSeq : Nat
  handling : Option (Posted × List HidhStep)
  links : List Link
  connecting : Option Bda
  secSem : Bool
  ticks : UInt32
  ctl : Ctl
  trace : List Obs
  deriving DecidableEq

def Sys.view (s : Sys) : View where
  kbd := s.kbd
  keys := s.hidh.devices.map Dev.key
  nextDev := s.hidh.nextDev
  eventQueue := s.hidh.eventQueue
  nextSeq := s.hidh.nextSeq
  handling := s.hidh.handling
  links := s.radio.links
  connecting := s.radio.connecting
  secSem := s.nimble.secSemaphore
  ticks := s.ticks
  ctl := s.ctl
  trace := s.trace

namespace View

@[simp] def note (v : View) (o : Obs) : View := { v with trace := o :: v.trace }

@[simp] def setPhase (v : View) (ph : Phase) : View := { v with ctl := { v.ctl with phase := ph } }

@[simp] def setStage (v : View) (st : Stage) : View := { v with ctl := { v.ctl with stage := st } }

@[simp] def setAwaiting (v : View) (b : Bool) : View :=
  { v with ctl := { v.ctl with awaiting := b } }

def key? (v : View) (d : DevId) : Option DevKey := v.keys.find? (·.id == d)

def byBda (v : View) (bda : Bda) : Option DevKey := v.keys.find? (·.bda == bda)

def byConnId (v : View) (handle : UInt16) : Option DevKey :=
  v.keys.find? (·.connId == (handle.toNat : Int))

@[simp] def setKey (v : View) (d : DevId) (f : DevKey → DevKey) : View :=
  { v with keys := v.keys.map fun key => if key.id = d then f key else key }

@[simp] def free (v : View) (d : DevId) : View :=
  { v with
    keys := v.keys.filter (·.id != d)
    trace := if (v.key? d).isSome then .deviceFreed d :: v.trace else v.trace }

@[simp] def post (v : View) (event : HidhEvent) : View :=
  { v with
    eventQueue := v.eventQueue.send ⟨v.nextSeq, event⟩
    nextSeq := v.nextSeq + 1
    trace := .posted ⟨v.nextSeq, event⟩ :: v.trace }

/-! ## The main task -/

/-- The request is accepted: no attempt under way, no link to the peer. -/
def accepts (v : View) (c : Choice) (bda : Bda) : Bool :=
  c.rc == 0 && v.connecting.isNone && v.links.all (·.peer != bda)

/-- The effect of an operation. -/
def exec (o : Op) (c : Choice) (v : View) : View :=
  match o with
  | .take sem _ _ =>
    { v with kbd := v.kbd.setSem false sem }.setPhase
      (if sem = Sem.openDone ∧ v.kbd.openDoneSem = true then v.ctl.phase.answer else v.ctl.phase)
  | .give sem => { v with kbd := v.kbd.setSem true sem }
  | .beforeDeadline site deadline =>
    v.setPhase (if v.ticks < deadline then v.ctl.phase else .expired site)
  | .takeConnected =>
    let v' := { v with kbd := { v.kbd with connectedSem := false } }.note
      (.decided v.kbd.connectedSem)
    v'.setPhase (if v.kbd.connectedSem then .accepted else v.ctl.phase.refuse)
  | .awaitDisconnect _ _ =>
    let v' := { v with kbd := { v.kbd with disconnectedSem := false } }
    if v.kbd.disconnectedSem then v'.setPhase .dropped else v'
  | .readHidhDev => v.setPhase (.closing ((v.kbd.hidhDev.map .found).getD .done))
  | .awaitClosed _ _ =>
    { v with kbd := { v.kbd with disconnectedSem := false } }.setPhase (.closing .done)
  | .receiveCmd _ _ =>
    { v with
      kbd := { v.kbd with cmdQueue := v.kbd.cmdQueue.tail }
      trace := (v.kbd.cmdQueue.items.head?.map KbdCmd.obs).toList ++ v.trace }.setPhase
      (v.ctl.phase.receive v.kbd.cmdQueue.items.head?)
  | .peekCmd site =>
    if v.kbd.cmdQueue.items.head? = some .startPairing then v.setPhase (.repairing site) else v
  | .setState st =>
    ({ v with kbd := { v.kbd with state := st } }.note (.state st)).setPhase
      (v.ctl.phase.announce st)
  | .onStatus st line1 line2 =>
    { v with trace :=
        if v.kbd.cfg.onStatus then .status st line1 line2 :: v.trace else v.trace }.setPhase
      v.ctl.phase.announced
  | .emitKey ch => if v.kbd.cfg.onKey then v.note (.key ch) else v
  | .copyScan => v.setPhase (.copied v.kbd.scanDevs.devs)
  | .onScanUpdated devs =>
    { v with trace :=
        if v.kbd.cfg.onScanUpdated then .scanUpdated devs :: v.trace else v.trace }.setPhase
      .scanning
  | .checkSelection param =>
    v.setPhase (if v.kbd.validSelection param then .picked param.toNat else .scanning)
  | .copySelected index => v.setPhase (.chosen (v.kbd.scanDev index).addr)
  | .clearPrevKeys => { v with kbd := { v.kbd with prevKeys := .cleared } }.note .prevKeysCleared
  | .clearForceRepair =>
    { v with kbd := { v.kbd with cfg := { v.kbd.cfg with forceRepair := false } } }
  | .clearHidhDev =>
    { v with kbd := { v.kbd with hidhDev := none } }.setPhase (.pairing .forgotten)
  | .resetScan =>
    ({ v with kbd := { v.kbd with scanDevs := .empty } }.note .scanReset).setPhase
      v.ctl.phase.clearScan
  | .attemptFailed => v.setPhase .reconnecting
  | .storeClear => (v.note .storeClear).setPhase v.ctl.phase.clearBonds
  | .closeCall d => v.setPhase (if (v.key? d).isSome then v.ctl.phase else .closing .asked)
  | .gapTerminate d => (v.note (.terminate d (c.rc == 0))).setPhase (.closing .asked)
  | .openCall site bda =>
    ((v.note (.openCall site bda (v.byBda bda).isSome)).setPhase site.phase).setStage
      (if (v.byBda bda).isSome then .none else .called bda)
  | .reconnectCall d => (v.note (.reconnectCall d)).setStage (.begun .reconnect d)
  | .devMalloc bda _ =>
    if c.rc = 0 then
      ({ v with
        keys := v.keys ++ [({ id := v.nextDev, bda := bda } : DevKey)]
        nextDev := v.nextDev + 1 }.note (.deviceAdded v.nextDev bda)).setStage
        (.begun .open v.nextDev)
    else v.setStage .none
  | .devFree d => (v.free d).setStage .none
  | .gapConnect kind d =>
    match v.key? d with
    | none => v
    | some key =>
      if v.accepts c key.bda then
        ({ v with connecting := some key.bda }.setStage (.connecting kind d)).setAwaiting true
      else v.setStage (.failed kind d)
  | .waitCb => v.setAwaiting false
  | .readConnId kind d =>
    match v.key? d with
    | none => v
    | some key => v.setStage (if 0 ≤ key.connId then .linked kind d .fresh else .failed kind d)
  | .drainSec => { v with secSem := false }
  | .securityInitiate d =>
    { v with trace := if c.rc = 0 then v.trace else .secured d true :: v.trace }.setStage
      (if c.rc = 0 then v.ctl.stage else v.ctl.stage.advance .secured)
  | .takeSec d _ _ =>
    ({ v with secSem := false }.note (.secured d false)).setStage (v.ctl.stage.advance .secured)
  | .mallocReportMaps _ | .mallocProtocolMode _ | .mallocReport =>
    v.setStage (if c.rc = 0 then v.ctl.stage else v.ctl.stage.advance .abandoned)
  | .svcsDone => v.setStage (v.ctl.stage.advance .discovered)
  | .setConnected kind d =>
    (v.setKey d fun key => { key with connected := true }).setStage (.marked kind d)
  | .postOpen kind d => (v.post (.open d 0)).setStage (.opened kind d)
  | .openReturns r => (v.note (.returned r)).setStage .none
  | .reconnectReturns r =>
    let v' := (v.note (.returned r)).setStage .none
    if r.isSome then v'.setPhase .accepted else v'
  | .discAllSvcs _ =>
    (v.setAwaiting true).setStage (if c.rc = 0 then v.ctl.stage else v.ctl.stage.advance .abandoned)
  | .discAllChrs _ _ _ | .discAllDscs _ _ _ | .writeFlat _ _ _ => v.setAwaiting true
  | .readLong _ _ _ => v.setAwaiting (c.rc == 0)
  | _ => v

/-! ## The event task -/

def stepExec (v : View) : HidhStep → View
  | .setHidhDev d => { v with kbd := { v.kbd with hidhDev := some d } }
  | .take sem => { v with kbd := v.kbd.setSem false sem }
  | .give sem => { v with kbd := v.kbd.setSem true sem }
  | .compare mod code =>
    { v with kbd := { v.kbd with wasPressed := v.kbd.prevKeys.keys.contains code } }.note
      (.compared mod code)
  | .emit ch =>
    { v with trace :=
        if !v.kbd.wasPressed && v.kbd.cfg.onKey then .key ch :: v.trace else v.trace }
  | .remember keys => { v with kbd := { v.kbd with prevKeys := keys } }
  | .free d => v.free d

/-- What is left to do for an event; nothing, and the event was handled. -/
def setHandling (v : View) (p : Posted) : List HidhStep → View
  | [] => { v with handling := none, trace := .handled p :: v.trace }
  | step :: steps => { v with handling := some (p, step :: steps) }

/-! ## Everything beside the main task -/

/-- Events that do not touch the connection management. -/
def inner : Event → Bool
  | .bonded _ _ | .repeatPairing _ | .notifyRx _ _ _ _ | .mtuExchanged _ | .gattCb _ _ => true
  | _ => false

/-- A new link: its device, if one is listed under its addresses, has the handle from now on. -/
def linkUp (v : View) (link : Link) : View :=
  let found := (v.byBda link.ota).or (v.byBda link.identity)
  { v with
    links := v.links ++ [link]
    connecting := none
    keys := match found with
      | none => v.keys
      | some key => v.keys.map fun k =>
          if k.id = key.id then { k with connId := (link.handle.toNat : Int) } else k
    trace := .linkUp link (found.map DevKey.id) :: v.trace }

/-- A link is gone: its device, if any, is without a connection, and a connected one is closed. -/
def linkDown (v : View) (link : Link) (reason : Int) : View :=
  let v' := { v with
    links := v.links.filter (·.handle != link.handle)
    trace := .linkDown link :: v.trace }
  match v.byConnId link.handle with
  | none => v'
  | some key =>
    if key.connected then
      (v'.setKey key.id fun k => { k with connected := false, connId := -1 }).post
        (.close key.id reason)
    else v'.setKey key.id fun k => { k with connId := -1 }

/-- The effects of an event. -/
inductive Effect : Event → View → View → Prop
  | quiet {e : Event} (v : View) (h : inner e = true) : Effect e v v
  | ticked (v : View) (n : UInt32) : Effect (.tick n) v { v with ticks := v.ticks + n }
  | startPairing (v : View) : Effect .startPairing v
      { v with
        kbd := { v.kbd with cmdQueue := v.kbd.cmdQueue.send .startPairing }
        trace := .startPairing v.kbd.cmdQueue.hasRoom :: v.trace }
  | selectDevice (v : View) (index : Int) : Effect (.selectDevice index) v
      { v with
        kbd := { v.kbd with cmdQueue := v.kbd.cmdQueue.send (.selectDevice index) }
        trace := .selectDevice index v.kbd.cmdQueue.hasRoom :: v.trace }
  | advertised (v : View) (report : AdvReport) : Effect (.advertised report) v
      { v with
        kbd := { v.kbd with scanDevs := v.kbd.scanDevs.collect report }
        trace := .advertised report :: v.trace }
  | encChange (v : View) (handle : UInt16) (status : Int) : Effect (.encChange handle status) v
      ({ v with secSem := true }.note (.encChange handle status))
  | connected (v : View) (link : Link) (h : v.connecting = some link.peer)
      (hfresh : ∀ l ∈ v.links, l.handle ≠ link.handle) :
      Effect (.connected link.handle link.ota link.identity) v (v.linkUp link)
  | connectFailed (v : View) (status : Int) (h : v.connecting.isSome = true) :
      Effect (.connectFailed status) v { v with connecting := none }
  | disconnected (v : View) (link : Link) (reason : Int)
      (h : v.links.find? (·.handle == link.handle) = some link)
      (hroom : ∀ key, v.byConnId link.handle = some key → key.connected = true →
        v.eventQueue.hasRoom = true) :
      Effect (.disconnected link.handle reason) v (v.linkDown link reason)
  | notified (v : View) (handle attr : UInt16) (data : List UInt8) (event : HidhEvent)
      (key : DevKey) (hkey : v.byConnId handle = some key) (hdev : event.dev = key.id)
      (hopen : ∀ d status, event ≠ .open d status) (hclose : ∀ d reason, event ≠ .close d reason)
      (hroom : v.eventQueue.hasRoom = true) :
      Effect (.notifyRx handle attr data true) v (v.post event)
  | popped (v : View) (p : Posted) (ps : List Posted) (h : v.handling = none)
      (hitems : v.eventQueue.items = p :: ps) :
      Effect .dispatch v
        ({ v with eventQueue := v.eventQueue.tail }.setHandling p (hidhSteps p.event))
  | stepped (v : View) (p : Posted) (step : HidhStep) (steps : List HidhStep)
      (h : v.handling = some (p, step :: steps)) :
      Effect .dispatch v ((v.stepExec step).setHandling p steps)
  | settled (v : View) (p : Posted) (h : v.handling = some (p, [])) :
      Effect .dispatch v (v.setHandling p [])

end View

/-! ## The code and the view -/

@[simp] theorem key?_view (s : Sys) (d : DevId) : s.view.key? d = (s.dev? d).map Dev.key :=
  List.find?_map ..

@[simp] theorem byBda_view (s : Sys) (bda : Bda) : s.view.byBda bda = (s.getByBda bda).map Dev.key :=
  List.find?_map ..

@[simp] theorem byConnId_view (s : Sys) (handle : UInt16) :
    s.view.byConnId handle = (s.getByConnId handle).map Dev.key :=
  List.find?_map ..

/-- Writing to a device, as far as the view goes. -/
theorem map_key_setDev {devices : List Dev} {d : DevId} {f : Dev → Dev} {g : DevKey → DevKey}
    (h : ∀ dev, (f dev).key = g dev.key) :
    (devices.map fun dev => if dev.id = d then f dev else dev).map Dev.key =
      (devices.map Dev.key).map fun key => if key.id = d then g key else key := by
  rw [List.map_map, List.map_map]
  apply List.map_congr_left
  intro dev _
  have hid : dev.key.id = dev.id := rfl
  simp only [Function.comp, hid]
  split
  · exact h dev
  · rfl

/-- A write that the view does not see. -/
theorem map_key_setDev_id {devices : List Dev} {d : DevId} {f : Dev → Dev}
    (h : ∀ dev, (f dev).key = dev.key) :
    (devices.map fun dev => if dev.id = d then f dev else dev).map Dev.key =
      devices.map Dev.key := by
  rw [map_key_setDev (g := id) h]
  simp

theorem map_key_filter (devices : List Dev) (d : DevId) :
    (devices.filter (·.id != d)).map Dev.key = (devices.map Dev.key).filter (·.id != d) := by
  rw [List.filter_map]
  rfl

theorem DevField.write_key {dev dev' : Dev} {field : DevField} (h : field.write dev = .ok dev') :
    dev'.key = dev.key := by
  cases field <;> simp only [DevField.write] at h
  case protocolMode | reportMap =>
    split at h
    · cases h
    · split at h
      · cases h; rfl
      · cases h
  all_goals cases h; rfl

/-- A read that may fault changes the view only through its value. -/
theorem absorb_view {α : Type} {s : Sys} {r : Except Fault α} {f : α → Sys}
    (h : ∀ a, r = .ok a → (f a).view = s.view) : (s.absorb r f).view = s.view := by
  cases r with
  | ok a => exact h a rfl
  | error _ => rfl

theorem accepts_view (c : Choice) (s : Sys) (bda : Bda) :
    s.view.accepts c bda = connectAccepted c s bda := rfl

/-- A write to a device that the view does not see. -/
theorem setDev_view {s : Sys} {d : DevId} {f : Dev → Dev} (h : ∀ dev, (f dev).key = dev.key) :
    (s.setDev d f).view = s.view := by
  simp only [Sys.view, Sys.setDev, map_key_setDev_id h]

/-- **An operation of the main task does to the view what `View.exec` says.** -/
theorem exec_view (o : Op) (c : Choice) (s : Sys) : (o.exec c s).view = s.view.exec o c := by
  cases o with
  | peekCmd _ | awaitDisconnect _ _ | emitKey _ | reconnectReturns _ =>
    simp only [Op.exec, View.exec, apply_ite Sys.view]
    rfl
  | closeCall d =>
    simp only [Op.exec, View.exec, key?_view, Option.isSome_map]
    rfl
  | openCall site bda =>
    simp only [Op.exec, View.exec, byBda_view, Option.isSome_map]
    rfl
  | devMalloc bda addrType =>
    simp only [Op.exec, View.exec]
    split <;> simp [Sys.view, Dev.key]
  | devFree d =>
    simp only [Op.exec, View.exec, View.free, key?_view, Option.isSome_map]
    simp [Sys.view, map_key_filter]
  | gapConnect kind d =>
    simp only [Op.exec, View.exec, key?_view]
    cases s.dev? d with
    | none => rfl
    | some dev =>
      by_cases h : connectAccepted c s dev.bda = true <;>
        simp only [Option.map_some, Dev.key, accepts_view, h, ↓reduceIte] <;> rfl
  | readConnId kind d =>
    simp only [Op.exec, View.exec, key?_view]
    cases s.dev? d with
    | none => rfl
    | some dev => rfl
  | setConnected kind d =>
    simp only [Op.exec, View.exec, Sys.view, Sys.setDev, Sys.setStage, View.setKey, View.setStage]
    rw [map_key_setDev (g := fun key => { key with connected := true }) fun _ => rfl]
  | gapDisc | assertStatus =>
    simp only [Op.exec, View.exec]
    split <;> rfl
  | installCallbacks d => exact setDev_view fun _ => rfl
  | mallocReportMaps d | mallocProtocolMode d =>
    simp only [Op.exec, View.exec]
    split
    · exact setDev_view fun _ => rfl
    · rfl
  | readSvc _ | readChr _ | readDefHandle _ | readDsc _ | readReportMap _ _ =>
    exact absorb_view fun _ _ => rfl
  | setField d field =>
    simp only [Op.exec, View.exec]
    cases hdev : s.dev? d with
    | none => rfl
    | some dev =>
      refine absorb_view fun _ _ => setDev_view fun dev => ?_
      cases hwrite : field.write dev with
      | error _ => rfl
      | ok dev' => exact DevField.write_key hwrite
  | freeBuf buf => cases buf <;> rfl
  | parseReportMap data =>
    cases data with
    | none => rfl
    | some buf =>
      simp only [Op.exec, View.exec]
      split
      · rfl
      · exact absorb_view fun _ _ => rfl
  | _ => rfl

/-! ### Events -/

theorem svcDisced_view (s : Sys) (conn : UInt16) (svc : GattSvc) :
    (svcDisced s conn svc).view = s.view := by
  refine Sys.store_of (P := fun s' => s'.view = s.view) rfl fun arr => ?_
  simp only
  split
  · rfl
  · split
    · exact setDev_view fun _ => rfl
    · rfl

theorem gattCb_view {s s' : Sys} {i : Nat} {rsp : GattRsp} (h : gattCb s i rsp = some s') :
    s'.view = s.view := by
  cases gattCb_cases h with
  | svc svc hreq => exact svcDisced_view ..
  | chr _ _ | dsc _ _ => exact Sys.store_of (P := fun s' => s'.view = s.view) rfl fun _ => rfl
  | found _ _ | lost _ _ _ | unread _ _ => rfl
  | data bytes _ =>
    simp only [onReadData]
    split <;> rfl
  | read _ =>
    unfold onReadDone
    split <;> rfl
  | written _ _ =>
    unfold onWrite
    split <;> rfl

theorem HidhStep.exec_view (s : Sys) (step : HidhStep) :
    (step.exec s).view = s.view.stepExec step := by
  cases step with
  | free d =>
    simp only [HidhStep.exec, View.stepExec, View.free, key?_view, Option.isSome_map]
    simp [Sys.view, map_key_filter]
  | _ => rfl

theorem handling_view (s : Sys) (p : Posted) (steps : List HidhStep) :
    (s.handling p steps).view = s.view.setHandling p steps := by
  cases steps <;> rfl

theorem dispatch_view {s s' : Sys} (h : dispatch s = some s') :
    View.Effect .dispatch s.view s'.view := by
  unfold dispatch at h
  split at h
  · rename_i p step steps hhandling
    cases h
    rw [handling_view, HidhStep.exec_view]
    exact .stepped _ p step steps hhandling
  · rename_i p hhandling
    cases h
    rw [handling_view]
    exact .settled _ p hhandling
  · rename_i hhandling
    split at h
    · cases h
    · rename_i p ps hitems
      cases h
      rw [handling_view]
      exact .popped _ p ps hhandling hitems

theorem connectEvent_view (s : Sys) (link : Link) :
    (connectEvent s link).view = s.view.linkUp link := by
  have hfound : (s.view.byBda link.ota).or (s.view.byBda link.identity) =
      ((s.getByBda link.ota).or (s.getByBda link.identity)).map Dev.key := by
    rw [byBda_view, byBda_view, Option.map_or]
  simp only [connectEvent, View.linkUp, hfound]
  cases (s.getByBda link.ota).or (s.getByBda link.identity) with
  | none => rfl
  | some dev =>
    simp only [Sys.view, Sys.sendCb, Sys.setDev, Sys.note]
    rw [map_key_setDev (g := fun k => { k with connId := (link.handle.toNat : Int) }) fun _ => rfl]
    rfl

theorem gapConnected_view {s s' : Sys} {handle : UInt16} {ota identity : Bda}
    (h : gapConnected s handle ota identity = some s') :
    View.Effect (.connected handle ota identity) s.view s'.view := by
  unfold gapConnected at h
  split at h
  · cases h
  · rename_i peer hpeer
    split at h
    · cases h
    · rename_i hfresh
      cases h
      rw [connectEvent_view]
      have hne : ∀ l ∈ s.radio.links, l.handle ≠ handle := by simpa using hfresh
      exact View.Effect.connected s.view ⟨handle, peer, ota, identity⟩ hpeer hne

theorem disconnectEvent_view (s : Sys) (link : Link) (reason : Int) :
    (disconnectEvent s link reason).view = s.view.linkDown link reason := by
  simp only [disconnectEvent, View.linkDown, byConnId_view]
  cases s.getByConnId link.handle with
  | none => rfl
  | some dev =>
    cases hconnected : dev.connected <;>
      simp only [Option.map_some, Dev.key, hconnected, Bool.false_eq_true, ↓reduceIte, Sys.view,
        Sys.setDev, Sys.note, Sys.post, View.setKey, View.post]
    · rw [map_key_setDev (g := fun k => { k with connId := -1 }) fun _ => rfl]
    · rw [map_key_setDev (g := fun k => { k with connected := false, connId := -1 }) fun _ => rfl]

theorem gapDisconnected_view {s s' : Sys} {handle : UInt16} {reason : Int}
    (h : gapDisconnected s handle reason = some s') :
    View.Effect (.disconnected handle reason) s.view s'.view := by
  unfold gapDisconnected at h
  split at h
  · cases h
  · rename_i link hlink
    split at h
    · cases h
    · rename_i hroom
      cases h
      obtain rfl : link.handle = handle := by simpa using List.find?_some hlink
      rw [disconnectEvent_view]
      refine .disconnected s.view link reason hlink fun key hkey hconnected => ?_
      rw [byConnId_view] at hkey
      obtain ⟨dev, hdev, rfl⟩ := Option.map_eq_some_iff.mp hkey
      have hconnected' : dev.connected = true := hconnected
      have hroom' : s.hidh.eventQueue.hasRoom = true := by simpa [hdev, hconnected'] using hroom
      exact hroom'

theorem notifyEvent_inner {dev : Dev} {attr : UInt16} {data : List UInt8} {event : HidhEvent}
    (h : notifyEvent dev attr data = .ok (some event)) :
    event.dev = dev.id ∧ (∀ d status, event ≠ .open d status) ∧
      ∀ d reason, event ≠ .close d reason := by
  have hreport : ∀ report, (reportEvent dev.id report data).dev = dev.id ∧
      (∀ d status, reportEvent dev.id report data ≠ .open d status) ∧
      ∀ d reason, reportEvent dev.id report data ≠ .close d reason := by
    intro report
    unfold reportEvent
    split <;> exact ⟨rfl, nofun, nofun⟩
  unfold notifyEvent at h
  split at h
  · cases h; exact ⟨rfl, nofun, nofun⟩
  · split at h
    · cases h
    · split at h
      · cases h
      · split at h
        · cases h
        · split at h
          · cases h
          · cases h; exact hreport _

theorem gapNotifyRx_view {s s' : Sys} {handle attr : UInt16} {data : List UInt8} {mem : Bool}
    (h : gapNotifyRx s handle attr data mem = some s') :
    View.Effect (.notifyRx handle attr data mem) s.view s'.view := by
  obtain rfl | ⟨fault, _, -, rfl⟩ | ⟨dev, event, hdev, hevent, rfl, hroom, rfl⟩ := gapNotifyRx_cases h
  · exact .quiet _ rfl
  · exact .quiet _ rfl
  · obtain ⟨hof, hopen, hclose⟩ := notifyEvent_inner hevent
    refine .notified s.view handle attr data event dev.key ?_ hof hopen hclose hroom
    rw [byConnId_view, hdev]
    rfl

/-- **An event does to the view one of the things `View.Effect` allows.** -/
theorem eventStep_view {e : Event} {s s' : Sys} (h : eventStep e s = some s') :
    View.Effect e s.view s'.view := by
  cases e with
  | tick n => cases h; exact .ticked _ n
  | startPairing => cases h; exact .startPairing _
  | selectDevice index => cases h; exact .selectDevice _ index
  | advertised report =>
    simp only [eventStep, Option.ite_none_right_eq_some, Option.some.injEq] at h
    obtain ⟨-, rfl⟩ := h
    exact .advertised _ report
  | connected handle ota identity => exact gapConnected_view h
  | connectFailed status =>
    simp only [eventStep, gapConnectFailed, Option.ite_none_right_eq_some, Option.some.injEq,
      Bool.and_eq_true] at h
    obtain ⟨⟨hsome, -⟩, rfl⟩ := h
    exact .connectFailed _ status hsome
  | disconnected handle reason => exact gapDisconnected_view h
  | encChange handle status =>
    simp only [eventStep, gapEncChange, Option.ite_none_right_eq_some, Option.some.injEq] at h
    obtain ⟨-, rfl⟩ := h
    exact .encChange _ handle status
  | bonded peer addrType => cases h; exact .quiet _ rfl
  | repeatPairing handle =>
    simp only [eventStep, gapRepeatPairing] at h
    split at h
    · cases h
    · cases h; exact .quiet _ rfl
  | notifyRx handle attr data mem => exact gapNotifyRx_view h
  | mtuExchanged handle =>
    simp only [eventStep, gapMtuExchanged, Option.ite_none_right_eq_some, Option.some.injEq] at h
    obtain ⟨-, rfl⟩ := h
    exact .quiet _ rfl
  | gattCb i rsp =>
    rw [gattCb_view h]
    exact .quiet _ rfl
  | dispatch => exact dispatch_view h

end BleKbdHost.Host
