import BleKbdHost.Conc.Along
import BleKbdHost.Host.Search

/-!
# The loops of discovery, over what the peer reported

Where a discovery starts with a counter of services at 0, the peer reports no more than the arrays
hold, and no allocation fails, each loop of `read_device_services` goes through the attributes that
were reported for it. One walk through the loops shows this (`reach_sessionReady`), and with it that
the index of a HID service counts the HID services that were processed.
-/

namespace BleKbdHost.Host

open Hid Keys Conc

/-! ## What the operations find -/

/-- An attribute that a loop comes to is the next one that the peer reported for it, and what was
reported for the one before is processed; at its end a loop has processed all; and an open goes on
after a discovery that came to its end. -/
def Op.Sees (s : Sys) : Op → Prop
  | .readSvc i => ∃ svc, slot s.nimble.serviceResult i = .ok svc ∧ Next svc s.search.svcs.log ∧
      Exact s.search.chrs.log
  | .svcsDone => Exact s.search.svcs.log ∧ Exact s.search.chrs.log
  | .readChr i => ∃ chr, slot s.nimble.charResult i = .ok chr ∧ Next chr s.search.chrs.log ∧
      Exact s.search.dscs.log
  | .readDefHandle i => ∃ chr, slot s.nimble.charResult i = .ok chr ∧ Next chr s.search.chrs.log
  | .resetChrs => Exact s.search.chrs.log ∧ Exact s.search.dscs.log
  | .readDsc i => ∃ dsc, slot s.nimble.descrResult i = .ok dsc ∧ Next dsc s.search.dscs.log
  | .resetDscs => Exact s.search.dscs.log
  | .setConnected .open _ => Completed s.discLog
  | _ => True

/-- How many of the services are HID services. -/
def hids (svcs : List GattSvc) : Nat := svcs.countP (·.uuid16 == Uuid.hid)

/-- How many HID services the service loop has come to. -/
def Search.hid (r : Search) : Nat := hids (processed r.svcs.log)

/-- The index of a HID service counts the ones before it. -/
def Op.Indexed (s : Sys) : Op → Prop
  | .setField _ (.protocolMode index _) => index + 1 = s.search.hid
  | .setField _ (.pushReport report) => report.mapIndex.toNat + 1 = s.search.hid
  | _ => True

namespace Search

/-- The collection of an outstanding request holds what was reported so far. -/
def Open (r : Search) : GattReq → Prop
  | .services _ => r.svcs.Holds 10 0
  | .chrs _ _ _ => r.chrs.Holds 20 0
  | .dscs _ _ _ => r.dscs.Holds 20 0
  | _ => True

/-- The peer has reported fewer attributes than the array of the callback holds. -/
def admits (r : Search) : GattRsp → Bool
  | .svc _ => decide ((reported r.svcs.log).length < 10)
  | .chr _ => decide ((reported r.chrs.log).length < 20)
  | .dsc _ => decide ((reported r.dscs.log).length < 20)
  | _ => true

theorem fits_of_open {r : Search} {req : GattReq} {rsp : GattRsp} (h : r.Open req)
    (hadmits : r.admits rsp = true) : r.Fits req rsp := by
  have hfits : ∀ {α : Type} {c : Collection α} {n : Nat}, c.Holds n 0 →
      (reported c.log).length < n → c.count < c.slots.length := by
    intro α c n h hroom
    rwa [h.length, h.count]
  cases req <;> cases rsp <;> first | trivial | exact hfits h (of_decide_eq_true hadmits)

end Search

/-! ## The condition -/

def DiscObs.reportsSvc : DiscObs → Bool
  | .svcReported _ => true
  | _ => false

/-- No discovery begins after one to which a service was reported, no allocation of discovery fails,
and the peer reports at most 10 services, 20 characteristics of a service, and 20 descriptors of a
characteristic. -/
def firstFound : Guard Op Choice Sys Event where
  main o c s :=
    match o with
    | .discAllSvcs _ => !s.discLog.any DiscObs.reportsSvc
    | .mallocReportMaps _ | .mallocProtocolMode _ | .mallocReport => c.rc == 0
    | _ => true
  env e s :=
    match e with
    | .gattCb _ rsp => s.search.admits rsp
    | _ => true

theorem allocates_of_firstFound {o : Op} {c : Choice} {s : Sys}
    (hg : firstFound.main o c s = true) (ho : o.allocates = true) : c.rc = 0 := by
  cases o with
  | mallocReportMaps _ | mallocProtocolMode _ | mallocReport => exact beq_iff_eq.mp hg
  | _ => cases ho

/-! ## Conditions on the collections -/

/-- A condition on each collection. -/
structure Search.All (A : Collection GattSvc → Prop) (B : Collection GattChr → Prop)
    (C : Collection GattDsc → Prop) (r : Search) : Prop where
  svcs : A r.svcs
  chrs : B r.chrs
  dscs : C r.dscs

theorem slot_eq_ok {α : Type} {arr : List (Option α)} {i : Nat} {a : α}
    (h : arr[i]? = some (some a)) : slot arr i = .ok a := by
  rw [slot, h]

section

variable {c : Choice} {s : Sys} {i : Nat}

theorem exec_readSvc {svc : GattSvc} (h : slot s.nimble.serviceResult i = .ok svc) :
    ((Op.readSvc i).exec c s).search = { s.search with log := .svcProcessed svc :: s.discLog } := by
  rw [Op.exec, h]
  rfl

theorem exec_readChr {chr : GattChr} (h : slot s.nimble.charResult i = .ok chr) :
    ((Op.readChr i).exec c s).search = { s.search with log := .chrProcessed chr :: s.discLog } := by
  rw [Op.exec, h]
  rfl

theorem exec_readDsc {dsc : GattDsc} (h : slot s.nimble.descrResult i = .ok dsc) :
    ((Op.readDsc i).exec c s).search = { s.search with log := .dscProcessed dsc :: s.discLog } := by
  rw [Op.exec, h]
  rfl

end

/-! ## What is kept between the operations on collections -/

/-- `P` survives the callbacks of the request, which finds its collection open. -/
def Search.Survives (P : Search → Prop) (req : GattReq) : Prop :=
  ∀ r, P r → r.Open req ∧ ∀ rsp, r.admits rsp = true → P (r.answer req rsp)

theorem Search.survives_of_not_discovers (P : Search → Prop) {req : GattReq}
    (h : req.discovers = false) : Search.Survives P req := by
  intro r hr
  cases req with
  | services _ | chrs _ _ _ | dscs _ _ _ => cases h
  | read _ _ | write _ _ _ _ => exact ⟨trivial, fun rsp _ => by cases rsp <;> exact hr⟩

/-- `P` holds of the collections, and survives what is outstanding. -/
structure Kept (P : Search → Prop) (s : Sys) : Prop where
  session : Session s
  holds : P s.search
  requests : ∀ req ∈ s.radio.gatt, Search.Survives P req

/-- What is known of an operation that comes next. -/
structure SessionReady (o : Op) (s : Sys) : Prop where
  sees : o.Sees s
  opened : ∀ req ∈ s.radio.gatt, s.search.Open req
  indexed : o.Indexed s

/-- An operation only adds requests of its own. -/
theorem exec_gatt {o : Op} {c : Choice} {s : Sys} (ho : o.collects = false) {req : GattReq}
    (hreq : req ∈ (o.exec c s).radio.gatt) : req ∈ s.radio.gatt ∨ req.discovers = false := by
  have hwaits : (o.exec c s).radio.gatt = (s.waitsAfter c o).gatt :=
    congrArg Waits.gatt (exec_waits o c s)
  rw [hwaits] at hreq
  cases o with
  | readLong _ _ _ | writeFlat _ _ _ =>
    simp only [Sys.waitsAfter, Waits.request] at hreq
    split at hreq
    · rcases List.mem_append.mp hreq with hreq | hreq
      · exact .inl hreq
      · rw [List.mem_singleton.mp hreq]
        exact .inr rfl
    · exact .inl hreq
  | gapConnect _ d =>
    simp only [Sys.waitsAfter] at hreq
    split at hreq
    · exact .inl hreq
    · split at hreq <;> exact .inl hreq
  | discAllSvcs _ | discAllChrs _ _ _ | discAllDscs _ _ _ => cases ho
  | _ => exact .inl hreq

/-- Events add none. -/
theorem eventStep_gatt {e : Event} {s s' : Sys} (h : eventStep e s = some s') {req : GattReq}
    (hreq : req ∈ s'.radio.gatt) : req ∈ s.radio.gatt := by
  have heffect := eventStep_waits h
  change req ∈ s'.waits.gatt at hreq
  generalize s'.waits = w at heffect hreq
  cases heffect with
  | gattCb i rsp req' _ =>
    split at hreq
    · exact List.mem_of_mem_eraseIdx hreq
    · exact hreq
  | connection _ | other _ => exact hreq

namespace Kept

variable {s s' : Sys} {o : Op} {c : Choice} {P R : Search → Prop}

theorem gatt_eq_nil (h : Kept P s) (hawait : s.ctl.awaiting = false) : s.radio.gatt = [] :=
  (tokens_eq_zero h.session.basics.tokens hawait).2.1

/-- Between requests nothing is outstanding. -/
theorem weaken (h : Kept P s) (hawait : s.ctl.awaiting = false) (hP : P s.search → R s.search) :
    Kept R s where
  session := h.session
  holds := hP h.holds
  requests req hreq := by
    rw [h.gatt_eq_nil hawait] at hreq
    cases hreq

theorem exec (h : Kept P s) (ho : o.collects = false) (hready : o.ready s = true)
    (hg : firstFound.main o c s = true) (hat : o.At s.ctl) : Kept P (o.exec c s) where
  session := h.session.exec hready (allocates_of_firstFound hg) hat
  holds := by
    rw [exec_search c s ho]
    exact h.holds
  requests req hreq :=
    (exec_gatt ho hreq).elim (h.requests req) (Search.survives_of_not_discovers P)

theorem event {e : Event} (h : Kept P s) (hg : firstFound.env e s = true)
    (hstep : eventStep e s = some s') : Kept P s' := by
  refine ⟨h.session.event hstep, ?_, fun req hreq => h.requests req (eventStep_gatt hstep hreq)⟩
  by_cases he : ∃ i rsp, e = .gattCb i rsp
  · obtain ⟨i, rsp, rfl⟩ := he
    obtain ⟨req, hreq, hsearch⟩ := gattCb_search hstep fun req hreq =>
      Search.fits_of_open (h.requests req (List.mem_of_getElem? hreq) _ h.holds).1 hg
    rw [hsearch]
    exact (h.requests req (List.mem_of_getElem? hreq) _ h.holds).2 rsp hg
  · rw [eventStep_search hstep fun i rsp heq => he ⟨i, rsp, heq⟩]
    exact h.holds

theorem opened (h : Kept P s) : ∀ req ∈ s.radio.gatt, s.search.Open req :=
  fun req hreq => (h.requests req hreq _ h.holds).1

/-- An open goes on only after a completed discovery. -/
theorem sees (h : Kept P s) (ho : o.collects = false) (hat : o.At s.ctl) : o.Sees s := by
  cases o with
  | setConnected kind d =>
    cases kind with
    | reconnect => trivial
    | «open» =>
      obtain ⟨⟨step, hst, rfl | rfl⟩, hawait⟩ := hat
      · exact h.session.completed d (by rw [hst]; rfl)
      · exact (h.session.not_gaveUp hst hawait).elim
  | discAllSvcs _ | discAllChrs _ _ _ | discAllDscs _ _ _ | readSvc _ | readChr _ | readDefHandle _
  | readDsc _ | svcsDone | resetChrs | resetDscs => cases ho
  | _ => trivial

end Kept

/-- Operations that write neither a protocol mode nor a new report are indexed in any case. -/
def Op.indexes : Op → Bool
  | .setField _ (.protocolMode _ _) | .setField _ (.pushReport _) => true
  | _ => false

theorem indexed_of_not_indexes {o : Op} {s : Sys} (h : o.indexes = false) : o.Indexed s := by
  cases o with
  | setField d field =>
    cases field with
    | protocolMode _ _ | pushReport _ => cases h
    | _ => trivial
  | _ => trivial

/-! ## The index of a HID service -/

/-- Operations with an index carry this one. -/
def Op.IndexIn (k? : Option Nat) : Op → Prop
  | .setField _ (.protocolMode index _) => k? = some index
  | .setField _ (.pushReport report) => k? = some report.mapIndex.toNat
  | _ => True

/-- An operation on one attribute, with this index if it carries one. -/
structure Op.Examines (k? : Option Nat) (o : Op) : Prop where
  collects : o.collects = false
  index : o.IndexIn k?

/-- The index of the service that is examined, if it is a HID service. -/
def hidIndex? (suuid : UInt16) (v : DiscVars) : Option Nat :=
  if suuid = Uuid.hid then some v.hidindex.toNat else none

/-- The services that are examined. -/
def Examinable (suuid : UInt16) : Prop :=
  suuid = Uuid.bas ∨ suuid = Uuid.dis ∨ suuid = Uuid.hid ∨ suuid = Uuid.gap

/-- The locals have the same indices. -/
structure DiscVars.Alike (v v' : DiscVars) : Prop where
  hidindex : v'.hidindex = v.hidindex
  mapIndex : v'.report.map (·.mapIndex) = v.report.map (·.mapIndex)

theorem DiscVars.Alike.refl (v : DiscVars) : v.Alike v := ⟨rfl, rfl⟩

theorem DiscVars.Alike.trans {v v' v'' : DiscVars} (h : v.Alike v') (h' : v'.Alike v'') :
    v.Alike v'' :=
  ⟨h'.hidindex.trans h.hidindex, h'.mapIndex.trans h.mapIndex⟩

/-- Where descriptors of a HID characteristic follow, its report is of the service. -/
def ChrNext.Of (suuid : UInt16) (v : DiscVars) : ChrNext → Prop
  | .stop => True
  | .skip v' => v'.hidindex = v.hidindex
  | .descriptors v' => v'.hidindex = v.hidindex ∧
      (suuid = Uuid.hid → v'.report.map (·.mapIndex) = some v.hidindex)

section Leaves

open Task

variable {d : DevId} {k? : Option Nat} {suuid : UInt16} {chr : GattChr} {v : DiscVars}

theorem only_readLongValue (handle uuid : UInt16) (out : ReadVar) :
    (readLongValue d handle uuid out).Only (Op.Examines k?) :=
  .bind (only_ask.mpr ⟨rfl, trivial⟩) fun _ => .ite trivial <|
    .bind (only_perform.mpr ⟨rfl, trivial⟩) fun _ => only_ask.mpr ⟨rfl, trivial⟩

theorem only_readInto {field : ReadVar → DevField}
    (hfield : ∀ out, (Op.setField d (field out)).IndexIn k?) :
    (readInto d chr v field).Only (Op.Examines k?) :=
  .bind (only_readLongValue _ _ _) fun r => .bind (.when (only_perform.mpr ⟨rfl, hfield r.2⟩))
    fun _ => trivial

theorem returns_readInto (field : ReadVar → DevField) :
    (readInto d chr v field).Returns fun v' => v'.hidindex = v.hidindex :=
  .seq _ fun _ => .seq _ fun _ => rfl

theorem only_hidChr : (hidChr d chr v).Only (Op.Examines (some v.hidindex.toNat)) :=
  .ite (.ite (.bind (only_readInto fun _ => rfl) fun _ => trivial) trivial) <|
    .ite (.ite (.bind (only_readInto fun _ => trivial) fun _ => trivial) trivial) <|
      .ite (.bind (only_ask.mpr ⟨rfl, trivial⟩) fun _ => .ite trivial trivial) trivial

theorem returns_hidChr : (hidChr d chr v).Returns (ChrNext.Of Uuid.hid v) :=
  .ite (.ite (.bind (returns_readInto _) fun _ => id) rfl) <|
    .ite (.ite (.bind (returns_readInto _) fun _ => id) rfl) <|
      .ite (.seq _ fun _ => .ite trivial ⟨rfl, fun _ => by
        unfold newReport
        split
        · rfl
        · split
          · rfl
          · split <;> rfl⟩) rfl

theorem only_disChr : (disChr d chr v).Only (Op.Examines k?) :=
  .ite (.ite (.bind (only_readLongValue _ _ _) fun _ =>
      .bind (.when (only_perform.mpr ⟨rfl, trivial⟩)) fun _ =>
        .bind (only_perform.mpr ⟨rfl, trivial⟩) fun _ => trivial) <|
    .ite (.bind (only_readInto fun _ => trivial) fun _ => trivial) <|
      .ite (.bind (only_readInto fun _ => trivial) fun _ => trivial) trivial) trivial

theorem only_examineChr (hsvc : Examinable suuid) :
    (examineChr d suuid chr v).Only (Op.Examines (hidIndex? suuid v)) := by
  unfold examineChr
  split
  · exact .bind (only_ask.mpr ⟨rfl, trivial⟩) fun _ =>
      .ite (.bind (only_readInto fun _ => trivial) fun _ => trivial) trivial
  · split
    · exact .ite (.bind (only_perform.mpr ⟨rfl, trivial⟩) fun _ => trivial) trivial
    · split
      · exact only_disChr
      · rename_i hgap hbas hdis
        have hhid : suuid = Uuid.hid := by simpa [Examinable, hgap, hbas, hdis] using hsvc
        rw [hidIndex?, if_pos hhid]
        exact only_hidChr

theorem returns_disChr : (disChr d chr v).Returns (ChrNext.Of suuid v) :=
  .ite (.ite (.seq _ fun _ => .seq _ fun _ => .seq _ fun _ => rfl) <|
    .ite (.bind (returns_readInto _) fun _ => id) <|
      .ite (.bind (returns_readInto _) fun _ => id) rfl) rfl

theorem returns_examineChr (hsvc : Examinable suuid) :
    (examineChr d suuid chr v).Returns (ChrNext.Of suuid v) := by
  have hother : ∀ {v' : DiscVars}, suuid ≠ Uuid.hid → v'.hidindex = v.hidindex →
      ChrNext.Of suuid v (.descriptors v') := fun hne h => ⟨h, fun heq => absurd heq hne⟩
  unfold examineChr
  split
  · rename_i hgap
    have hne : suuid ≠ Uuid.hid := by
      rw [hgap]
      decide
    exact .seq _ fun _ => .ite (.bind (returns_readInto _) fun _ => hother hne) rfl
  · split
    · rename_i hbas
      have hne : suuid ≠ Uuid.hid := by
        rw [hbas]
        decide
      exact .ite (.seq _ fun _ => hother hne rfl) rfl
    · split
      · exact returns_disChr
      · rename_i hgap hbas hdis
        have hhid : suuid = Uuid.hid := by simpa [Examinable, hgap, hbas, hdis] using hsvc
        rw [hhid]
        exact returns_hidChr

theorem only_examineDsc (dsc : GattDsc) : (examineDsc d suuid chr dsc v).Only (Op.Examines k?) := by
  refine .ite (.bind (.when (only_perform.mpr ⟨rfl, trivial⟩)) fun _ => trivial) ?_
  split
  · refine .ite (.ite trivial (.ite ?_ trivial)) trivial
    exact .bind (only_readLongValue _ _ _) fun _ =>
      .ite (.bind (only_perform.mpr ⟨rfl, trivial⟩) fun _ => trivial) trivial
  · trivial

theorem returns_examineDsc (dsc : GattDsc) : (examineDsc d suuid chr dsc v).Returns v.Alike := by
  refine .ite (.seq _ fun _ => .refl v) ?_
  split
  · rename_i report hreport
    have hmap : ∀ {report' : DevReport}, report'.mapIndex = report.mapIndex →
        (some report').map (·.mapIndex) = v.report.map (·.mapIndex) := fun h => by
      rw [hreport]
      exact congrArg some h
    exact .ite (.ite ⟨rfl, hmap rfl⟩ (.ite (.seq _ fun _ => .ite (.seq _ fun _ => ⟨rfl, hmap rfl⟩)
      ⟨rfl, rfl⟩) (.refl v))) (.refl v)
  · exact .refl v

theorem returns_dscLoop :
    ∀ (n i : Nat) (v : DiscVars), (dscLoop d suuid chr n i v).Returns v.Alike := by
  intro n
  induction n with
  | zero => exact fun _ v => .refl v
  | succ n ih =>
    exact fun i v => .seq _ fun _ => .bind (returns_examineDsc _) fun v' h =>
      Returns.mono (ih _ v') fun _ => h.trans

theorem returns_chrDescriptors (endHandle : UInt16) :
    (chrDescriptors d suuid chr endHandle v).Returns fun v' => v'.hidindex = v.hidindex :=
  .seq _ fun _ => .seq _ fun _ => .seq _ fun _ => .bind (returns_dscLoop _ _ _) fun _ h =>
    .seq _ fun _ => .seq _ fun _ => h.hidindex

theorem only_pushReport (h : suuid = Uuid.hid → v.report.map (·.mapIndex) = some v.hidindex) :
    (pushReport d suuid v).Only (Op.Examines (hidIndex? suuid v)) := by
  unfold pushReport
  split
  · rename_i report hreport
    by_cases hhid : suuid = Uuid.hid
    · have hindex := h hhid
      rw [hreport] at hindex
      refine .when (only_perform.mpr ⟨rfl, ?_⟩)
      rw [hidIndex?, if_pos hhid, ← Option.some.inj hindex]
      exact rfl
    · rw [Task.when, if_neg hhid]
      trivial
  · trivial

theorem returns_chrLoop {svc : GattSvc} (hsvc : Examinable svc.uuid16) :
    ∀ (n i : Nat) (v : DiscVars), (chrLoop d svc n i v).Returns fun v? =>
      ∀ v', v? = some v' → v'.hidindex = v.hidindex := by
  intro n
  induction n with
  | zero => exact fun _ v v' h => by rw [Option.some.inj h]
  | succ n ih =>
    refine fun i v => .seq _ fun chr => .bind (returns_examineChr hsvc) fun next hnext => ?_
    cases next with
    | stop => exact fun v' h => by cases h
    | skip v' => exact Returns.mono (ih _ v') fun _ h v'' hv'' => (h v'' hv'').trans hnext
    | descriptors v' =>
      exact .seq _ fun _ => .bind (returns_chrDescriptors _) fun v'' h'' =>
        Returns.mono (ih _ v'') fun _ h v₃ hv₃ => (h v₃ hv₃).trans (h''.trans hnext.1)

end Leaves

section Walk

variable {P R : Search → Prop} {ph : Phase} {d : DevId} {α : Type}

theorem stable_kept : Stable host firstFound (Kept P) := by
  rintro s s' ⟨e, -, hg, hstep⟩ h
  exact h.event hg hstep

theorem stable_standing (c : Ctl) : Stable host firstFound (Standing (Kept P) c) :=
  (stable_ctl c).and stable_kept

/-- The operations that neither touch a collection nor carry an index. -/
theorem carried_kept :
    Carried (fun o => !o.collects && !o.indexes) firstFound SessionReady (Kept P) where
  exec o c s ho h _ hready hg hat :=
    h.exec (Bool.not_eq_true' _ ▸ (Bool.and_eq_true_iff.mp ho).1) hready hg hat
  env := stable_kept
  pre o s ho h _ hat := by
    obtain ⟨hcollects, hindexes⟩ := Bool.and_eq_true_iff.mp ho
    exact ⟨h.sees (by simpa using hcollects) hat, h.opened,
      indexed_of_not_indexes (by simpa using hindexes)⟩

/-- The operations that do not touch a collection, with the invariant itself as precondition. -/
theorem carried_known : Carried (fun o => !o.collects) firstFound
    (fun o s => o.At s.ctl ∧ Kept P s) (Kept P) where
  exec o c s ho h _ hready hg hat := h.exec (by simpa using ho) hready hg hat
  env := stable_kept
  pre _ _ _ h _ hat := ⟨hat, h⟩

/-! ### Operations on collections -/

/-- In discovery, between requests, with `P` of the collections. -/
abbrev During (ph : Phase) (d : DevId) (P : Search → Prop) : Sys → Prop :=
  Standing (Kept P) (discovering ph d)

/-- After an operation between requests. -/
theorem kept_of_exec {s : Sys} {o : Op} {ch : Choice} {c' : Ctl}
    (h : During ph d P s) (hat : o.At (discovering ph d)) (hready : o.ready s = true)
    (hg : firstFound.main o ch s = true)
    (hctl : (s.view.exec o ch).ctl = c') (hawait : c'.awaiting = false)
    (hexec : R (o.exec ch s).search) : Standing (Kept R) c' (o.exec ch s) := by
  have hctl' : (o.exec ch s).ctl = c' := (exec_ctl o ch s).trans hctl
  have hsession := h.2.session.exec hready (allocates_of_firstFound hg) (h.1 ▸ hat)
  refine ⟨hctl', hsession, hexec, fun req hreq => ?_⟩
  rw [(tokens_eq_zero hsession.basics.tokens (by rw [hctl', hawait])).2.1] at hreq
  cases hreq

theorem triple_collect {o : Op} {r : Choice → Sys → α} {Q : α → Search → Prop} {c' : Ctl}
    (hat : o.At (discovering ph d)) (hindexes : o.indexes = false)
    (hctl : ∀ (ch : Choice) (v : View), v.ctl = discovering ph d → (v.exec o ch).ctl = c')
    (hawait : c'.awaiting = false) (hsees : ∀ s : Sys, P s.search → o.Sees s)
    (hexec : ∀ (ch : Choice) (s : Sys), P s.search → (o.exec ch s).fault = none →
      Q (r ch s) (o.exec ch s).search) :
    Triple host firstFound SessionReady (During ph d P) (.ask o r)
      fun a => Standing (Kept (Q a)) c' := by
  refine triple_ask (stable_standing _) (fun _ => stable_standing _) (fun s hs _ => ?_) ?_
  · exact ⟨hsees s hs.2.holds, hs.2.opened, indexed_of_not_indexes hindexes⟩
  · intro ch s hs _ hready hg hnext
    exact kept_of_exec hs hat hready hg (hctl ch _ hs.1) hawait (hexec ch s hs.2.holds hnext)

theorem stable_refused : Stable host firstFound fun s => s.waits.tokens = 0 := by
  rintro s s' ⟨e, -, -, hstep⟩ htokens
  exact Nat.eq_zero_of_le_zero (htokens ▸ (eventStep_waits hstep).tokens_le)

/-- Where nothing is to come, the wait does not end. -/
theorem triple_refused {Q : α → Sys → Prop} (t : Prog α) :
    Triple host firstFound SessionReady (fun s => s.waits.tokens = 0)
      (waitDisc >>= fun _ => t) Q := by
  refine Triple.op (o := .waitCb) stable_refused ?_ ?_
  · intro s htokens _
    refine ⟨trivial, ?_, trivial⟩
    have hgatt : s.radio.gatt = [] := by
      simp only [Waits.tokens, Sys.waits] at htokens
      exact List.eq_nil_of_length_eq_zero (by omega)
    rw [hgatt]
    simp
  · intro ch s htokens _ hready _
    have hgiven : s.nimble.cbSemaphore = true := hready
    simp [Waits.tokens, Sys.waits, hgiven] at htokens

/-- A request and the wait for its answers. One that is refused is waited for in vain. -/
theorem triple_searchRequest (o : Op) (req : Sys → GattReq) {f : Int → Prog α} {Q : α → Sys → Prop}
    (hat : o.At (discovering ph d))
    (hctl : ∀ (ch : Choice) (v : View), ch.rc = 0 →
      (v.exec o ch).ctl = { v.ctl with awaiting := true })
    (hwaits : ∀ (ch : Choice) (s : Sys), s.waitsAfter ch o = s.waits.request ch (req s))
    (hindexes : o.indexes = false) (hsees : ∀ s : Sys, o.Sees s)
    (hexec : ∀ (ch : Choice) (s : Sys), firstFound.main o ch s = true → P s.search →
      R (o.exec ch s).search)
    (hsurvives : ∀ s : Sys, Search.Survives R (req s))
    (hf : Triple host firstFound SessionReady (During ph d R) (f 0) Q) :
    Triple host firstFound SessionReady (During ph d P)
      (call o >>= fun rc => waitDisc >>= fun _ => f rc) Q := by
  let asked : Ctl := { discovering ph d with awaiting := true }
  have hstable : ∀ rc : Int, Stable host firstFound fun s =>
      (rc = 0 → Standing (Kept R) asked s) ∧ (rc ≠ 0 → s.waits.tokens = 0) := by
    intro rc s s' hstep hs
    exact ⟨fun hzero => stable_standing asked s s' hstep (hs.1 hzero),
      fun hne => stable_refused s s' hstep (hs.2 hne)⟩
  refine Triple.bind (triple_ask (stable_standing _) hstable (fun s hs _ => ?_) ?_) fun rc => ?_
  · exact ⟨hsees s, hs.2.opened, indexed_of_not_indexes hindexes⟩
  · intro ch s hs _ hready hg _
    have htokens : (o.exec ch s).waits.tokens = (ch.rc == 0).toNat := by
      rw [exec_waits, hwaits, tokens_request hs.2.session.basics.tokens (by rw [hs.1])]
    refine ⟨fun hzero => ⟨?_, ?_⟩, fun hne => ?_⟩
    · rw [exec_ctl, hctl ch _ hzero]
      have hview : s.view.ctl = discovering ph d := hs.1
      rw [hview]
    · refine ⟨hs.2.session.exec hready (allocates_of_firstFound hg) (hs.1 ▸ hat),
        hexec ch s hg hs.2.holds, fun req' hreq => ?_⟩
      have hgatt : (o.exec ch s).radio.gatt = [req s] := by
        have hgatt' : (o.exec ch s).radio.gatt = (s.waits.request ch (req s)).gatt := by
          rw [← hwaits]
          exact congrArg Waits.gatt (exec_waits o ch s)
        rw [hgatt', Waits.request, if_pos hzero]
        simp [Sys.waits, hs.2.gatt_eq_nil (by rw [hs.1])]
      rw [hgatt] at hreq
      rw [List.mem_singleton.mp hreq]
      exact hsurvives s
    · rw [htokens, beq_eq_false_iff_ne.mpr hne]
      rfl
  · by_cases hzero : rc = 0
    · subst hzero
      exact Triple.bind ((triple_waitDisc carried_kept rfl rfl).strengthen fun s hs => hs.1 rfl)
        fun _ => hf
    · exact (triple_refused (f rc)).strengthen fun s hs => hs.2 hzero

/-! ### One attribute -/

theorem indexed_of_indexIn {o : Op} {s : Sys} {k? : Option Nat} (h : o.IndexIn k?)
    (hk : ∀ k, k? = some k → k + 1 = s.search.hid) : o.Indexed s := by
  cases o with
  | setField d field =>
    cases field with
    | protocolMode index value => exact hk index h
    | pushReport report => exact hk _ h
    | _ => trivial
  | _ => trivial

/-- An operation on one attribute of the service that the loop has come to. -/
theorem ready_of_examines {o : Op} {s : Sys} {k? : Option Nat} (ho : o.Examines k?)
    (hP : ∀ r, P r → ∀ k, k? = some k → k + 1 = r.hid) (h : o.At s.ctl ∧ Kept P s) :
    SessionReady o s :=
  ⟨h.2.sees ho.collects h.1, h.2.opened, indexed_of_indexIn ho.index (hP _ h.2.holds)⟩

theorem carried_examines :
    Carried Op.examines firstFound (fun o s => o.At s.ctl ∧ Kept P s) (Kept P) :=
  carried_known.mono fun o ho => by
    cases o with
    | look | readDev _ | waitCb | readLong _ _ _ | endRead _ | mallocReport | setField _ _
    | freeBuf _ => rfl
    | _ => cases ho

theorem carried_examinesBufless :
    Carried (Op.bufless Op.examines) firstFound (fun o s => o.At s.ctl ∧ Kept P s) (Kept P) :=
  carried_examines.mono fun _ ho => (Bool.and_eq_true_iff.mp ho).1

theorem hidIndex_eq_some {suuid : UInt16} {v : DiscVars} {k : Nat}
    (h : hidIndex? suuid v = some k) : suuid = Uuid.hid ∧ v.hidindex.toNat = k := by
  simpa [hidIndex?] using h

/-- A HID service has the index that counts the ones before it. -/
def Numbered (suuid : UInt16) (index : UInt8) (c : Collection GattSvc) : Prop :=
  suuid = Uuid.hid → index.toNat + 1 = hids (processed c.log)

theorem Numbered.index {suuid : UInt16} {v : DiscVars} {r : Search}
    (h : Numbered suuid v.hidindex r.svcs) (k : Nat) (hk : hidIndex? suuid v = some k) :
    k + 1 = r.hid := by
  obtain ⟨hhid, rfl⟩ := hidIndex_eq_some hk
  exact h hhid

section

variable {suuid : UInt16} {chr : GattChr} {v : DiscVars}

theorem triple_examineChr_kept (hsvc : Examinable suuid)
    (hP : ∀ r, P r → Numbered suuid v.hidindex r.svcs) :
    Triple host firstFound SessionReady (During ph d P) (examineChr d suuid chr v) fun next s =>
      (ChrNext.Of suuid v next ∧ next ≠ .stop) ∧ During ph d P s := by
  have hknown : Triple host firstFound (fun o s => o.At s.ctl ∧ Kept P s) (During ph d P)
      (examineChr d suuid chr v) (Examined (Kept P) (fun _ => Kept P) ph d) :=
    triple_examineChr (fun _ => carried_examinesBufless) (.of_examines carried_examines)
      (stable_standing _) suuid chr v
  refine ((hknown.only (only_examineChr hsvc) fun o s ho =>
    ready_of_examines ho fun r hr => (hP r hr).index).returns (returns_examineChr hsvc)).weaken
      fun next s hs => ?_
  cases next with
  | stop =>
    exact (hs.2.2.session.not_gaveUp (congrArg Ctl.stage hs.2.1) (by rw [hs.2.1])).elim
  | skip v' | descriptors v' => exact ⟨⟨hs.1, by simp⟩, hs.2⟩

theorem triple_examineDsc_kept (dsc : GattDsc) (v : DiscVars) :
    Triple host firstFound SessionReady (During ph d P) (examineDsc d suuid chr dsc v)
      fun _ => During ph d P := by
  have hknown : Triple host firstFound (fun o s => o.At s.ctl ∧ Kept P s) (During ph d P)
      (examineDsc d suuid chr dsc v) fun _ => During ph d P :=
    triple_examineDsc (I := Kept P) (J := fun _ => Kept P) (fun _ => carried_examinesBufless)
      (.of_examines carried_examines) suuid chr dsc v
  refine hknown.only (p := Op.Examines none) (only_examineDsc dsc) fun _ _ ho =>
    ready_of_examines ho fun _ _ _ hk => by cases hk

theorem keeps_pushReport_kept (hP : ∀ r, P r → Numbered suuid v.hidindex r.svcs)
    (hreport : suuid = Uuid.hid → v.report.map (·.mapIndex) = some v.hidindex) :
    Keeps firstFound SessionReady (Kept P) (discovering ph d) (pushReport d suuid v) :=
  Triple.only (keeps_pushReport carried_examines suuid v) (only_pushReport hreport) fun _ _ ho =>
    ready_of_examines ho fun r hr => (hP r hr).index

end

/-! ### The descriptors of a characteristic -/

variable {A : Collection GattSvc → Prop} {B : Collection GattChr → Prop}
variable {suuid : UInt16} {chr : GattChr} {v : DiscVars}

/-- A read of shared variables tells of the collections what it returns. -/
theorem triple_look {f : Sys → α} {Q : α → Search → Prop} (hf : ∀ s : Sys, P s.search →
    Q (f s) s.search) :
    Triple host firstFound SessionReady (During ph d P) (look f) fun a => During ph d (Q a) :=
  triple_collect rfl rfl (fun _ _ h => h) rfl (fun _ _ => trivial) fun _ s hs _ => hf s hs

theorem triple_dscLoop_kept : ∀ (n i : Nat) (v : DiscVars),
    Triple host firstFound SessionReady (During ph d (Search.All A B (·.Left 20 i n)))
      (dscLoop d suuid chr n i v) fun _ => During ph d (Search.All A B (·.Left 20 (i + n) 0)) := by
  intro n
  induction n with
  | zero => exact fun i v => .ret (stable_standing _) fun _ => id
  | succ n ih =>
    intro i v
    refine Triple.bind (B := fun _ => During ph d (Search.All A B (·.Left 20 (i + 1) n)))
      (triple_collect ⟨⟨d, rfl⟩, rfl⟩ rfl (fun _ _ h => h) rfl ?_ ?_) fun dsc => ?_
    · intro s h
      obtain ⟨dsc, hslot, hnext⟩ := h.dscs.slot
      exact ⟨dsc, slot_eq_ok hslot, hnext⟩
    · intro ch s h _
      obtain ⟨dsc, hslot, -⟩ := h.dscs.slot
      rw [exec_readDsc (slot_eq_ok hslot)]
      exact ⟨h.svcs, h.chrs, h.dscs.process hslot⟩
    · have hindex : i + 1 + n = i + (n + 1) := by omega
      exact Triple.bind (triple_examineDsc_kept dsc v) fun v' => hindex ▸ ih (i + 1) v'

theorem triple_chrDescriptors_kept (hA : ∀ c, A c → Numbered suuid v.hidindex c)
    (hreport : suuid = Uuid.hid → v.report.map (·.mapIndex) = some v.hidindex)
    (endHandle : UInt16) :
    Triple host firstFound SessionReady (During ph d (Search.All A B (·.Idle)))
      (chrDescriptors d suuid chr endHandle v) fun v' s => v'.hidindex = v.hidindex ∧
        During ph d (Search.All A B (·.Idle)) s := by
  refine Triple.returns (t := chrDescriptors d suuid chr endHandle v) ?_
    (returns_chrDescriptors endHandle)
  refine triple_searchRequest (R := Search.All A B (·.Holds 20 0))
    (.discAllDscs d chr.valHandle endHandle)
    (fun s => .dscs (s.connHandle d) chr.valHandle endHandle) ⟨rfl, rfl⟩ (fun _ _ _ => rfl)
    (fun _ _ => rfl) rfl (fun _ => trivial) ?_ ?_ ?_
  · exact fun ch s _ h => ⟨h.svcs, h.chrs, .of_request 20 h.dscs.count⟩
  · intro s r hr
    refine ⟨hr.dscs, fun rsp hadmits => ?_⟩
    cases rsp with
    | dsc dsc => exact ⟨hr.svcs, hr.chrs, hr.dscs.report (of_decide_eq_true hadmits)⟩
    | _ => exact hr
  · refine Triple.bind (triple_look (Q := fun n => Search.All A B (·.Left 20 0 n)) fun s h =>
      ⟨h.svcs, h.chrs, h.dscs, (Nat.zero_add _).symm⟩) fun dcount s hs => ?_
    -- the counter is below its type's bound
    have hle : dcount ≤ 20 := by simpa using hs.2.holds.dscs.le
    revert s hs
    rw [if_pos rfl, Nat.mod_eq_of_lt (by omega)]
    refine Triple.bind ((triple_dscLoop_kept dcount 0 v).returns (returns_dscLoop _ _ _)) fun v' =>
      Triple.pure fun halike => ?_
    have hpush : ∀ r, Search.All A B (·.Left 20 (0 + dcount) 0) r →
        Numbered suuid v'.hidindex r.svcs := fun r hr => halike.hidindex ▸ hA _ hr.svcs
    refine Triple.bind (keeps_pushReport_kept hpush fun hhid => ?_) fun _ => ?_
    · rw [halike.mapIndex, halike.hidindex]
      exact hreport hhid
    · refine Triple.bind (B := fun _ => During ph d (Search.All A B (·.Idle)))
        (triple_collect ⟨⟨d, rfl⟩, rfl⟩ rfl (fun _ _ h => h) rfl (fun s h => h.dscs.exact) ?_)
        fun _ => .ret (stable_standing _) fun _ => id
      exact fun ch s h _ => ⟨h.svcs, h.chrs, h.dscs.done⟩

/-! ### The characteristics of a service -/

theorem triple_chrEndHandle {svc : GattSvc} (n i : Nat) :
    Triple host firstFound SessionReady (During ph d (Search.All A (·.Left 20 (i + 1) n) (·.Idle)))
      (chrEndHandle svc n i) fun _ => During ph d (Search.All A (·.Left 20 (i + 1) n) (·.Idle)) := by
  unfold chrEndHandle
  cases n with
  | zero => exact .ret (stable_standing _) fun _ => id
  | succ n =>
    rw [if_neg (Nat.succ_ne_zero n)]
    refine triple_collect (Q := fun _ => Search.All A (·.Left 20 (i + 1) (n + 1)) (·.Idle))
      ⟨⟨d, rfl⟩, rfl⟩ rfl (fun _ _ h => h) rfl (fun s h => ?_) fun ch s h _ => ?_
    · obtain ⟨chr, hslot, hnext⟩ := h.chrs.slot
      exact ⟨chr, slot_eq_ok hslot, hnext⟩
    · rw [Op.exec, absorb_search fun _ => rfl]
      exact h

theorem triple_chrLoop_kept {svc : GattSvc} (hsvc : Examinable svc.uuid16) :
    ∀ (n i : Nat) (v : DiscVars), (∀ c, A c → Numbered svc.uuid16 v.hidindex c) →
    Triple host firstFound SessionReady (During ph d (Search.All A (·.Left 20 i n) (·.Idle)))
      (chrLoop d svc n i v) fun v? s => v? ≠ none ∧
        During ph d (Search.All A (·.Left 20 (i + n) 0) (·.Idle)) s := by
  intro n
  induction n with
  | zero => exact fun i v _ => .ret (stable_standing _) fun s hs => ⟨by simp, hs⟩
  | succ n ih =>
    intro i v hA
    have hindex : i + 1 + n = i + (n + 1) := by omega
    refine Triple.bind
      (B := fun _ => During ph d (Search.All A (·.Left 20 (i + 1) n) (·.Idle)))
      (triple_collect ⟨⟨d, rfl⟩, rfl⟩ rfl (fun _ _ h => h) rfl (fun s h => ?_) fun ch s h _ => ?_)
      fun chr => ?_
    · obtain ⟨chr, hslot, hnext⟩ := h.chrs.slot
      exact ⟨chr, slot_eq_ok hslot, hnext, h.dscs.exact⟩
    · obtain ⟨chr, hslot, -⟩ := h.chrs.slot
      rw [exec_readChr (slot_eq_ok hslot)]
      exact ⟨h.svcs, h.chrs.process hslot, h.dscs⟩
    refine Triple.bind (triple_examineChr_kept hsvc fun r hr => hA _ hr.svcs) fun next =>
      Triple.pure fun hnext => ?_
    cases next with
    | stop => exact absurd rfl hnext.2
    | skip v' => exact hindex ▸ ih (i + 1) v' (hnext.1 ▸ hA)
    | descriptors v' =>
      obtain ⟨⟨hsame, hreport⟩, -⟩ := hnext
      refine Triple.bind (triple_chrEndHandle n i) fun endHandle => ?_
      refine Triple.bind (triple_chrDescriptors_kept (hsame ▸ hA) (hsame ▸ hreport) endHandle)
        fun v'' => Triple.pure fun hsame' => ?_
      exact hindex ▸ ih (i + 1) v'' (hsame' ▸ hsame ▸ hA)

/-! ### The services -/

theorem hids_append (svcs svcs' : List GattSvc) : hids (svcs ++ svcs') = hids svcs + hids svcs' :=
  List.countP_append

theorem hids_hid {svc : GattSvc} (h : svc.uuid16 = Uuid.hid) : hids [svc] = 1 := by
  simp [hids, h]

theorem hids_other {svc : GattSvc} (h : svc.uuid16 ≠ Uuid.hid) : hids [svc] = 0 := by
  simp [hids, h]

/-- The service loop has come to service `i`, with `m` left, and `index` counts the HID services. -/
def SvcsAt (i m index : Nat) (c : Collection GattSvc) : Prop :=
  c.Left 10 i m ∧ index = hids (processed c.log)

theorem SvcsAt.index_le {i m index : Nat} {c : Collection GattSvc} (h : SvcsAt i m index c) :
    index ≤ 10 := by
  have hlength : (processed c.log).length ≤ 10 := by
    rw [h.1.1.processed, List.length_take]
    exact Nat.le_trans (Nat.min_le_right _ _) h.1.1.room
  rw [h.2]
  exact Nat.le_trans List.countP_le_length hlength

theorem triple_examineSvc_kept (svc : GattSvc) (i m : Nat) (v : DiscVars) :
    Triple host firstFound SessionReady
      (During ph d (Search.All (SvcsAt i m (v.hidindex.toNat + hids [svc])) (·.Idle) (·.Idle)))
      (examineSvc d svc v) fun v? s => ∃ v', v? = some v' ∧
        During ph d (Search.All (SvcsAt i m v'.hidindex.toNat) (·.Idle) (·.Idle)) s := by
  let A := SvcsAt i m (v.hidindex.toNat + hids [svc])
  have hdone : ∀ (v' : DiscVars) (s : Sys),
      v'.hidindex.toNat = v.hidindex.toNat + hids [svc] →
      During ph d (Search.All A (·.Idle) (·.Idle)) s →
      ∃ v'', some v' = some v'' ∧
        During ph d (Search.All (SvcsAt i m v''.hidindex.toNat) (·.Idle) (·.Idle)) s := by
    intro v' s hcount hs
    refine ⟨v', rfl, ?_⟩
    rw [hcount]
    exact hs
  refine .ite (fun hsvc => ?_) fun hother => ?_
  · have hnumbered : ∀ c, A c → Numbered svc.uuid16 v.hidindex c := fun c hc hhid => by
      rw [← hc.2, hids_hid hhid]
    refine triple_searchRequest (R := Search.All A (·.Holds 20 0) (·.Idle))
      (.discAllChrs d svc.startHandle svc.endHandle)
      (fun s => .chrs (s.connHandle d) svc.startHandle svc.endHandle) ⟨rfl, rfl⟩ (fun _ _ _ => rfl)
      (fun _ _ => rfl) rfl (fun _ => trivial) ?_ ?_ ?_
    · exact fun ch s _ h => ⟨h.svcs, .of_request 20 h.chrs.count, h.dscs⟩
    · intro s r hr
      refine ⟨hr.chrs, fun rsp hadmits => ?_⟩
      cases rsp with
      | chr chr => exact ⟨hr.svcs, hr.chrs.report (of_decide_eq_true hadmits), hr.dscs⟩
      | _ => exact hr
    refine Triple.bind (triple_look (Q := fun n => Search.All A (·.Left 20 0 n) (·.Idle)) fun s h =>
      ⟨h.svcs, ⟨h.chrs, (Nat.zero_add _).symm⟩, h.dscs⟩) fun ccount s hs => ?_
    have hle : ccount ≤ 20 := by simpa using hs.2.holds.chrs.le
    revert s hs
    rw [if_pos rfl, Nat.mod_eq_of_lt (by omega)]
    refine Triple.bind ((triple_chrLoop_kept hsvc ccount 0 v hnumbered).returns
      (returns_chrLoop hsvc _ _ _)) fun v? => Triple.pure fun hsame => Triple.pure fun hsome => ?_
    obtain ⟨v', rfl⟩ := Option.ne_none_iff_exists'.mp hsome
    refine Triple.bind (B := fun _ => During ph d (Search.All A (·.Idle) (·.Idle)))
      (triple_collect ⟨⟨d, rfl⟩, rfl⟩ rfl (fun _ _ h => h) rfl
        (fun s h => ⟨h.chrs.exact, h.dscs.exact⟩)
        fun ch s h _ => ⟨h.svcs, h.chrs.done, h.dscs⟩) fun _ => ?_
    have hindex := hsame v' rfl
    refine .ite (fun hhid => ?_) fun hne => ?_
    · refine .ret (stable_standing _) fun s hs => hdone _ s ?_ hs
      have hbound := hs.2.holds.svcs.index_le
      rw [hids_hid hhid.2] at hbound ⊢
      rw [hindex, UInt8.toNat_add, UInt8.toNat_one, Nat.mod_eq_of_lt (by omega)]
    · refine .ret (stable_standing _) fun s hs => hdone _ s ?_ hs
      rw [hids_other (fun hhid => hne ⟨rfl, hhid⟩), hindex]
      rfl
  · refine .ret (stable_standing _) fun s hs => hdone _ s ?_ hs
    rw [hids_other (fun hhid => hother (.inr (.inr (.inl hhid))))]
    rfl

theorem triple_svcLoop_kept : ∀ (n i : Nat) (v : DiscVars),
    Triple host firstFound SessionReady
      (During ph d (Search.All (SvcsAt i n v.hidindex.toNat) (·.Idle) (·.Idle)))
      (svcLoop d n i v) fun v? s => v? ≠ none ∧
        During ph d (Search.All (·.Left 10 (i + n) 0) (·.Idle) (·.Idle)) s := by
  intro n
  induction n with
  | zero =>
    refine fun i v => .ret (stable_standing _) fun s hs => ⟨by simp, hs.1, hs.2.weaken ?_ ?_⟩
    · rw [hs.1]
    · exact fun h => ⟨h.svcs.1, h.chrs, h.dscs⟩
  | succ n ih =>
    intro i v
    have hindex : i + 1 + n = i + (n + 1) := by omega
    refine Triple.bind (B := fun svc => During ph d
        (Search.All (SvcsAt (i + 1) n (v.hidindex.toNat + hids [svc])) (·.Idle) (·.Idle)))
      (triple_collect ⟨⟨d, rfl⟩, rfl⟩ rfl (fun _ _ h => h) rfl (fun s h => ?_) fun ch s h _ => ?_)
      fun svc => ?_
    · obtain ⟨svc, hslot, hnext⟩ := h.svcs.1.slot
      exact ⟨svc, slot_eq_ok hslot, hnext, h.chrs.exact⟩
    · obtain ⟨svc, hslot, -⟩ := h.svcs.1.slot
      have hread := @slot_eq_ok _ s.nimble.serviceResult _ _ hslot
      rw [exec_readSvc hread, hread]
      refine ⟨⟨h.svcs.1.process hslot, ?_⟩, h.chrs, h.dscs⟩
      rw [h.svcs.2]
      exact (hids_append _ [svc]).symm.trans (congrArg hids (processed_processed ..).symm)
    · refine Triple.bind (triple_examineSvc_kept svc (i + 1) n v) fun v? =>
        Triple.of_exists fun v' => Triple.pure fun hsome => ?_
      subst hsome
      exact hindex ▸ ih (i + 1) v'

/-! ### `read_device_services` -/

/-- Between discoveries, the counter of services is at 0 if no service was ever reported. -/
def Search.Rested : Search → Prop :=
  Search.All (fun c => (∀ svc, .reported svc ∉ c.log) → c.count = 0) (·.Idle) (·.Idle)

/-- An allocation succeeds. -/
theorem triple_allocated (o : Op) (ho : (!o.collects && !o.indexes) = true) {t : Prog Unit}
    {Q : Unit → Sys → Prop} (hat : o.At (discovering ph d))
    (hexec : ∀ (ch : Choice) (v : View), v.exec o ch =
      v.setStage (if ch.rc = 0 then v.ctl.stage else v.ctl.stage.advance .abandoned))
    (ht : Triple host firstFound SessionReady (During ph d P) t Q) :
    Triple host firstFound SessionReady (During ph d P)
      (call o >>= fun rc => if rc ≠ 0 then pure () else t) Q := by
  refine Triple.bind (triple_malloc carried_kept o ho hat hexec) fun rc =>
    .ite (fun hne s hs _ => ?_) fun hzero => ?_
  · rw [bne_iff_ne.mpr hne] at hs
    exact (hs.2.session.not_gaveUp (congrArg Ctl.stage hs.1) (by rw [hs.1])).elim
  · rw [Decidable.not_not.mp hzero]
    exact ht

theorem only_mapLoop : ∀ n i, (mapLoop d n i).Only (Op.Examines none) := by
  intro n
  induction n with
  | zero => exact fun _ => trivial
  | succ n ih =>
    refine fun i => .bind (Task.only_ask.mpr ⟨rfl, trivial⟩) fun reports => .ite (ih _) <|
      .bind (Task.only_ask.mpr ⟨rfl, trivial⟩) fun raw => .ite (ih _) <|
        .bind (Task.only_ask.mpr ⟨rfl, trivial⟩) fun map? => ?_
    cases map? with
    | none => exact ih _
    | some map =>
      exact .bind (Task.only_ask.mpr ⟨rfl, trivial⟩) fun _ =>
        .bind (.when (Task.only_perform.mpr ⟨rfl, trivial⟩)) fun _ =>
          .bind (Task.only_perform.mpr ⟨rfl, trivial⟩) fun _ => ih _

theorem keeps_mapLoop_kept (n i : Nat) :
    Keeps firstFound SessionReady (Kept P) (discovered ph d) (mapLoop d n i) := by
  have hparses : Carried Op.parses firstFound (fun o s => o.At s.ctl ∧ Kept P s) (Kept P) :=
    carried_known.mono fun o ho => by
      cases o with
      | look | readDev _ | setField _ _ | readReportMap _ _ | parseReportMap _ => rfl
      | _ => cases ho
  refine Triple.only (keeps_mapLoop (hparses.mono fun o ho => (Bool.and_eq_true_iff.mp ho).1)
    (.of_parses hparses) n i) (only_mapLoop n i) fun o s ho => ?_
  exact ready_of_examines ho fun _ _ _ hk => by cases hk

theorem unreported_of_firstFound {ch : Choice} {s : Sys}
    (hg : firstFound.main (.discAllSvcs d) ch s = true) (svc : GattSvc) :
    .reported svc ∉ s.search.svcs.log := by
  intro hmem
  obtain ⟨o, ho, heq⟩ := List.mem_filterMap.mp hmem
  have hnone : s.discLog.any DiscObs.reportsSvc = false := (Bool.not_eq_true' _).mp hg
  have hreports := List.any_eq_false.mp hnone o ho
  cases o with
  | svcReported svc' => exact hreports rfl
  | _ => cases heq

/-- **Discovery goes through what the peer reported.** -/
theorem discovery_kept :
    Triple host firstFound SessionReady (During ph d Search.Rested)
      (readDeviceServices d) fun _ => Discovered (Kept Search.Rested) ph d := by
  refine triple_searchRequest (R := Search.All (·.Holds 10 0) (·.Idle) (·.Idle)) (.discAllSvcs d)
    (fun s => .services (s.connHandle d)) ⟨rfl, rfl⟩ (fun ch v hrc => by simp [View.exec, hrc])
    (fun _ _ => rfl) rfl (fun _ => trivial) ?_ ?_ ?_
  · intro ch s hg h
    exact ⟨.of_request 10 (h.svcs (unreported_of_firstFound hg)), h.chrs, h.dscs⟩
  · intro s r hr
    refine ⟨hr.svcs, fun rsp hadmits => ?_⟩
    cases rsp with
    | svc svc => exact ⟨hr.svcs.report (of_decide_eq_true hadmits), hr.chrs, hr.dscs⟩
    | _ => exact hr
  refine Triple.bind (triple_look (Q := fun n => Search.All (SvcsAt 0 n 0) (·.Idle) (·.Idle))
    fun s h => ⟨⟨⟨h.svcs, (Nat.zero_add _).symm⟩, ?_⟩, h.chrs, h.dscs⟩) fun dcount => ?_
  · rw [h.svcs.processed]
    rfl
  refine triple_allocated (.mallocReportMaps d) rfl ⟨rfl, rfl⟩ (fun _ _ => rfl)
    (triple_allocated (.mallocProtocolMode d) rfl ⟨rfl, rfl⟩ (fun _ _ => rfl) fun s hs => ?_)
  have hle : dcount ≤ 10 := by simpa using hs.2.holds.svcs.1.le
  revert s hs
  rw [Nat.mod_eq_of_lt (by omega)]
  refine Triple.bind (triple_svcLoop_kept dcount 0 {}) fun v? => Triple.pure fun hsome => ?_
  obtain ⟨v, rfl⟩ := Option.ne_none_iff_exists'.mp hsome
  refine Triple.bind (B := fun _ => Standing (Kept Search.Rested) (discovered ph d))
    (triple_collect ⟨⟨d, rfl⟩, rfl⟩ rfl (fun ch v hctl => ?_) rfl
      (fun s h => ⟨h.svcs.exact, h.chrs.exact⟩) fun ch s h _ => ⟨fun hnone => ?_, h.chrs, h.dscs⟩)
    fun _ => Triple.bind (Keeps.readDev carried_kept rfl _ ⟨rfl, rfl⟩) fun len =>
      (keeps_mapLoop_kept _ _).weaken fun _ s hs => ⟨.discovered, .inl rfl, hs⟩
  · simp [View.exec, hctl, Stage.advance]
  · exact h.svcs.1.count_eq_zero fun svc hmem => hnone svc (List.mem_cons_of_mem _ hmem)

end Walk

/-! ## Runs -/

theorem kept_boot (cfg : KbdConfig) (bonds : List (Bda × UInt8)) :
    Kept Search.Rested (boot cfg bonds).state where
  session := .boot cfg bonds
  holds := ⟨fun _ => rfl, ⟨rfl, rfl⟩, rfl, rfl⟩
  requests _ h := by cases h

section Runs

variable {cfg : KbdConfig} {bonds : List (Bda × UInt8)} {c : HostConfig}

theorem reach_wp (h : Reach host firstFound (boot cfg bonds) c) :
    wp host firstFound SessionReady (Lands (Kept Search.Rested)) c.task c.state := by
  have houtside : Carried Op.outside firstFound SessionReady (Kept Search.Rested) :=
    carried_kept.mono fun o ho => by
      cases o with
      | discAllSvcs _ | discAllChrs _ _ _ | discAllDscs _ _ _ | readSvc _ | readChr _
      | readDefHandle _ | readDsc _ | svcsDone | resetChrs | resetDscs | setField _ _ => cases ho
      | _ => rfl
  exact houtside.reach (triple_espHidhDevOpen houtside fun _ _ => discovery_kept)
    (kept_boot cfg bonds) h

/-- **At each operation of a run, what it finds is known.** -/
theorem reach_sessionReady (h : Reach host firstFound (boot cfg bonds) c)
    (hlive : c.state.fault = none) {o : Op} {k : Choice → Sys → Prog Label}
    (htask : c.task = .op o k) : SessionReady o c.state := by
  have hwp := reach_wp h
  rw [htask] at hwp
  exact (hwp _ .refl (live_iff.mpr hlive)).1

/-- An outstanding request finds its collection open. -/
theorem reach_opened (h : Reach host firstFound (boot cfg bonds) c) (hlive : c.state.fault = none) :
    ∀ req ∈ c.state.radio.gatt, c.state.search.Open req := by
  rcases htask : c.task with l | ⟨o, k⟩
  · have hwp := reach_wp h
    rw [htask] at hwp
    obtain ⟨q, -, hs⟩ := hwp _ .refl (live_iff.mpr hlive)
    exact hs.2.opened
  · exact (reach_sessionReady h hlive htask).opened

end Runs

end BleKbdHost.Host
