import BleKbdHost.Verify.Described

/-!
# What becomes of a notification

The table of a peer says which notifications become events: those of its battery level, and those of a
report in the protocol mode that its HID service gives.
-/

namespace BleKbdHost.Host

open Hid Keys Conc

/-! ## The protocol modes and the battery level of a table -/

/-- A fold that keeps the last value given. -/
theorem foldl_getD {α β : Type} (h : α → Option β) (l : List α) : ∀ b : β,
    l.foldl (fun b a => (h a).getD b) b = ((l.filterMap h).getLast?).getD b := by
  induction l with
  | nil => exact fun _ => rfl
  | cons a l ih =>
    intro b
    rw [List.foldl_cons, ih, List.filterMap_cons]
    cases h a with
    | none => rfl
    | some b' => rw [List.getLast?_cons, Option.getD_some, Option.getD_some]

namespace Peer

variable (peer : Peer)

/-- The protocol mode that a characteristic gives. -/
def chrMode? (chr : GattChr) : Option UInt8 :=
  if chr.uuid16 = Uuid.protocolMode ∧ chr.readable ∧ (peer.read chr.valHandle).rlen ≠ 0 then
    some ((peer.read chr.valHandle).byte 0)
  else none

/-- The protocol mode of a HID service, if one of its characteristics gives it: the last one. -/
def svcMode? (svc : GattSvc) : Option UInt8 :=
  ((peer.chrs svc.startHandle svc.endHandle).filterMap peer.chrMode?).getLast?

/-- The HID services. -/
def hidServices (svcs : List GattSvc) : List GattSvc := svcs.filter (·.uuid16 == Uuid.hid)

/-- The protocol mode of the HID service of this number. -/
def mode? (index : Nat) : Option UInt8 := (hidServices peer.services)[index]?.bind peer.svcMode?

/-- The handle of a battery level. -/
def chrBattery? (chr : GattChr) : Option UInt16 :=
  if chr.uuid16 = Uuid.batteryLevel ∧ chr.readable then some chr.valHandle else none

/-- The battery level of a battery service: the last one. -/
def svcBattery? (svc : GattSvc) : Option UInt16 :=
  if svc.uuid16 = Uuid.bas then
    ((peer.chrs svc.startHandle svc.endHandle).filterMap chrBattery?).getLast?
  else none

/-- The battery level of a peer: the last one. -/
def battery? : Option UInt16 := (peer.services.filterMap peer.svcBattery?).getLast?

variable {peer} {svc : GattSvc} {svcs : List GattSvc} {p : DevField → Bool}

theorem hidServices_cons_hid (h : svc.uuid16 = Uuid.hid) :
    hidServices (svc :: svcs) = svc :: hidServices svcs :=
  List.filter_cons_of_pos (beq_iff_eq.mpr h)

theorem hidServices_cons_other (h : svc.uuid16 ≠ Uuid.hid) :
    hidServices (svc :: svcs) = hidServices svcs :=
  List.filter_cons_of_neg fun hbeq => h (beq_iff_eq.mp hbeq)

variable (peer svc) in
/-- **What the characteristics of a service make of a part of the device,** characteristic by
characteristic, where neither the descriptors nor the reports touch it. -/
theorem examineChrs_fold {α : Type} {g : Dev → α} {f : UInt8 → α → GattChr → α}
    (hp : ∀ field : DevField, field.incidental = true → p field = true)
    (hreport : ∀ report, p (.pushReport report) = true)
    (hg : ∀ field, p field = true → ∀ dev, g ((field.write dev).toOption.getD dev) = g dev)
    (hchr : ∀ (chr : GattChr) (x : Survey),
      g (peer.examineChr svc.uuid16 chr x).1.dev = f x.hidindex (g x.dev) chr)
    (chrs : List GattChr) : ∀ x : Survey,
    g (peer.examineChrs svc chrs x).dev = chrs.foldl (f x.hidindex) (g x.dev) := by
  induction chrs with
  | nil => exact fun _ => rfl
  | cons chr chrs ih =>
    intro x
    have hindex : (peer.examineChr svc.uuid16 chr x).1.hidindex = x.hidindex := examineChr_hidindex
    rw [examineChrs, List.foldl_cons, ← hchr, ← hindex]
    generalize peer.examineChr svc.uuid16 chr x = r
    obtain ⟨x', descends⟩ := r
    cases descends with
    | false => exact ih x'
    | true =>
      refine (ih _).trans ?_
      rw [if_pos rfl, chrDescriptors_hidindex]
      exact congrArg (fun a => chrs.foldl (f x'.hidindex) a)
        ((written_chrDescriptors hp hreport _).const hg)

end Peer

/-! ### The battery level -/

/-- The fields apart from the handle of the battery level. -/
def DevField.offBattery : DevField → Bool
  | .batteryHandle _ => false
  | _ => true

theorem DevField.batteryHandle_write (field : DevField) (h : field.offBattery = true) (dev : Dev) :
    ((field.write dev).toOption.getD dev).batteryHandle = dev.batteryHandle := by
  cases field with
  | batteryHandle _ => cases h
  | protocolMode _ _ | reportMap _ _ _ =>
    simp only [DevField.write]
    split
    · rfl
    · split <;> rfl
  | _ => rfl

theorem DevField.offBattery_of_incidental (field : DevField) (h : field.incidental = true) :
    field.offBattery = true := by
  cases field <;> first | rfl | exact h

namespace Peer

variable {peer : Peer} {svc : GattSvc} {chr : GattChr} {x : Survey}

theorem examineChr_battery (suuid : UInt16) (chr : GattChr) (x : Survey) :
    (peer.examineChr suuid chr x).1.dev.batteryHandle =
      if suuid = Uuid.bas then (chrBattery? chr).getD x.dev.batteryHandle
      else x.dev.batteryHandle := by
  unfold examineChr
  by_cases hgap : suuid = Uuid.gap
  · rw [if_pos hgap, hgap, if_neg (by decide)]
    exact (written_gapChr.mono DevField.offBattery_of_incidental).const DevField.batteryHandle_write
  rw [if_neg hgap]
  by_cases hbas : suuid = Uuid.bas
  · rw [if_pos hbas, if_pos hbas, basChr, chrBattery?]
    by_cases hlevel : chr.uuid16 = Uuid.batteryLevel ∧ chr.readable = true
    · rw [if_pos hlevel, if_pos (by simpa using hlevel)]
      rfl
    · rw [if_neg hlevel, if_neg (by simpa using hlevel)]
      rfl
  rw [if_neg hbas, if_neg hbas]
  split
  · exact (written_disChr.mono DevField.offBattery_of_incidental).const DevField.batteryHandle_write
  · exact (written_hidChr (fun _ _ => rfl) fun _ _ _ => rfl).const DevField.batteryHandle_write

theorem examineSvc_battery (svc : GattSvc) (x : Survey) : (peer.examineSvc x svc).dev.batteryHandle =
    (peer.svcBattery? svc).getD x.dev.batteryHandle := by
  have hchrs := examineChrs_fold peer svc (g := Dev.batteryHandle)
    DevField.offBattery_of_incidental (fun _ => rfl) DevField.batteryHandle_write
    (f := fun _ handle chr => if svc.uuid16 = Uuid.bas then (chrBattery? chr).getD handle else handle)
    (fun chr x => examineChr_battery svc.uuid16 chr x) (peer.chrs svc.startHandle svc.endHandle) x
  unfold examineSvc svcBattery?
  by_cases hbas : svc.uuid16 = Uuid.bas
  · have hhid : ¬svc.uuid16 = Uuid.hid := by
      rw [hbas]
      decide
    simp only [hbas, if_true] at hchrs
    rw [if_pos (.inl hbas), if_pos hbas, if_neg hhid, hchrs, foldl_getD]
  · simp only [hbas, if_false] at hchrs
    rw [if_neg hbas, Option.getD_none]
    have hfold : ∀ l : List GattChr, l.foldl (fun handle _ => handle) x.dev.batteryHandle =
        x.dev.batteryHandle := fun l => by
      induction l with
      | nil => rfl
      | cons _ _ ih => exact ih
    rw [hfold] at hchrs
    split
    · split
      · exact hchrs
      · exact hchrs
    · rfl

/-- **The battery level that is subscribed to is the last one of the table.** -/
theorem surveyed_battery (peer : Peer) (dev : Dev) (memory : List UInt8) :
    (peer.surveyed dev memory).batteryHandle = peer.battery?.getD dev.batteryHandle := by
  have hfold : ∀ (svcs : List GattSvc) (x : Survey),
      (svcs.foldl peer.examineSvc x).dev.batteryHandle =
        svcs.foldl (fun handle svc => (peer.svcBattery? svc).getD handle) x.dev.batteryHandle := by
    intro svcs
    induction svcs with
    | nil => exact fun _ => rfl
    | cons svc svcs ih =>
      intro x
      rw [List.foldl_cons, List.foldl_cons, ih, examineSvc_battery]
  rw [surveyed, hfold, foldl_getD]
  rfl

end Peer

/-! ### The protocol modes -/

/-- The protocol mode of a HID service as the device has it. -/
def Dev.modeAt (dev : Dev) (index : Nat) : Option UInt8 := dev.protocolMode.bind (·[index]?)

/-- The fields apart from the protocol modes. -/
def DevField.offMode : DevField → Bool
  | .protocolMode _ _ => false
  | _ => true

theorem DevField.modeAt_write (index : Nat) (field : DevField) (h : field.offMode = true) (dev : Dev) :
    ((field.write dev).toOption.getD dev).modeAt index = dev.modeAt index := by
  cases field with
  | protocolMode _ _ => cases h
  | reportMap _ _ _ =>
    simp only [DevField.write]
    split
    · rfl
    · split <;> rfl
  | _ => rfl

/-- Writing a mode changes it where there is one. -/
theorem DevField.modeAt_protocolMode (i j : Nat) (value : UInt8) (dev : Dev) :
    (((DevField.protocolMode i value).write dev).toOption.getD dev).modeAt j =
      if i = j then (dev.modeAt j).map fun _ => value else dev.modeAt j := by
  cases hmodes : dev.protocolMode with
  | none => simp [DevField.write, Dev.modeAt, hmodes, Except.toOption]
  | some modes =>
    by_cases hlt : i < modes.length
    · have hwrite : (DevField.protocolMode i value).write dev =
          .ok { dev with protocolMode := some (modes.set i value) } := by
        simp [DevField.write, hmodes, hlt]
      rw [hwrite]
      by_cases hij : i = j
      · subst hij
        simp [Dev.modeAt, hmodes, Except.toOption, hlt]
      · simp [Dev.modeAt, hmodes, Except.toOption, hij]
    · have hwrite : (DevField.protocolMode i value).write dev = .error .outOfBounds := by
        simp [DevField.write, hmodes, hlt]
      rw [hwrite]
      by_cases hij : i = j
      · subst hij
        simp [Dev.modeAt, hmodes, Except.toOption, Nat.not_lt.mp hlt]
      · simp [Except.toOption, hij]

theorem DevField.offMode_of_incidental (field : DevField) (h : field.incidental = true) :
    field.offMode = true := by
  cases field <;> first | rfl | exact h

namespace Peer

variable {peer : Peer} {svc : GattSvc}

theorem examineChr_mode_other {suuid : UInt16}
    (h : suuid = Uuid.gap ∨ suuid = Uuid.bas ∨ suuid = Uuid.dis) (index : Nat) (chr : GattChr)
    (x : Survey) : (peer.examineChr suuid chr x).1.dev.modeAt index = x.dev.modeAt index := by
  have hwritten : WrittenBy DevField.offMode x.dev (peer.examineChr suuid chr x).1.dev := by
    unfold examineChr
    rcases h with rfl | rfl | rfl
    · exact written_gapChr.mono DevField.offMode_of_incidental
    · exact written_basChr fun _ => rfl
    · exact written_disChr.mono DevField.offMode_of_incidental
  exact hwritten.const (g := fun dev => dev.modeAt index) (DevField.modeAt_write index)

theorem examineChr_mode_hid (j : Nat) (chr : GattChr) (x : Survey) :
    (peer.examineChr Uuid.hid chr x).1.dev.modeAt j =
      if x.hidindex.toNat = j then (x.dev.modeAt j).map fun mode => (peer.chrMode? chr).getD mode
      else x.dev.modeAt j := by
  have hhid : peer.examineChr Uuid.hid chr x = peer.hidChr chr x := rfl
  have hnone : (if x.hidindex.toNat = j then (x.dev.modeAt j).map fun mode => mode
      else x.dev.modeAt j) = x.dev.modeAt j := by
    simp
  rw [hhid]
  by_cases hmode : chr.uuid16 = Uuid.protocolMode
  · by_cases hgives : chr.readable = true ∧ (peer.read chr.valHandle).rlen ≠ 0
    · have hchr : peer.chrMode? chr = some ((peer.read chr.valHandle).byte 0) :=
        if_pos ⟨hmode, hgives⟩
      rw [hchr, hidChr, if_pos hmode, if_pos hgives.1, store, if_pos hgives.2]
      exact DevField.modeAt_protocolMode ..
    · have hchr : peer.chrMode? chr = none := if_neg fun h => hgives h.2
      have hsame : (peer.hidChr chr x).1 = x := by
        rw [hidChr, if_pos hmode]
        split
        · rename_i hreadable
          exact if_neg fun hlen => hgives ⟨hreadable, hlen⟩
        · rfl
      rw [hchr, hsame]
      exact hnone.symm
  · have hchr : peer.chrMode? chr = none := if_neg fun h => hmode h.1
    have hwritten : WrittenBy DevField.offMode x.dev (peer.hidChr chr x).1.dev := by
      rw [hidChr, if_neg hmode]
      repeat' split
      all_goals first | exact .refl | exact written_store fun _ => rfl
    rw [hchr, hwritten.const (g := fun dev => dev.modeAt j) (DevField.modeAt_write j)]
    exact hnone.symm

/-- The modes of a HID service end up with the last one that its characteristics give. -/
theorem examineSvc_mode_hid (j : Nat) (hhid : svc.uuid16 = Uuid.hid) (x : Survey) :
    (peer.examineSvc x svc).dev.modeAt j =
      if x.hidindex.toNat = j then (x.dev.modeAt j).map fun mode => (peer.svcMode? svc).getD mode
      else x.dev.modeAt j := by
  have hchrs := examineChrs_fold peer svc (g := fun dev => dev.modeAt j)
    DevField.offMode_of_incidental (fun _ => rfl) (DevField.modeAt_write j)
    (f := fun index mode? chr =>
      if index.toNat = j then mode?.map fun mode => (peer.chrMode? chr).getD mode else mode?)
    (fun chr x => hhid ▸ examineChr_mode_hid j chr x) (peer.chrs svc.startHandle svc.endHandle) x
  have hsvc : (peer.examineSvc x svc).dev =
      (peer.examineChrs svc (peer.chrs svc.startHandle svc.endHandle) x).dev := by
    simp [examineSvc, hhid]
  rw [hsvc, hchrs, svcMode?]
  generalize peer.chrs svc.startHandle svc.endHandle = chrs
  by_cases hj : x.hidindex.toNat = j
  · simp only [hj, if_true]
    have hfold : ∀ (l : List GattChr) (mode? : Option UInt8),
        l.foldl (fun mode? chr => mode?.map fun mode => (peer.chrMode? chr).getD mode) mode? =
          mode?.map fun mode => l.foldl (fun mode chr => (peer.chrMode? chr).getD mode) mode := by
      intro l
      induction l with
      | nil => exact fun mode? => by simp
      | cons chr l ih =>
        intro mode?
        rw [List.foldl_cons, ih, Option.map_map]
        rfl
    simp only [hfold, foldl_getD]
  · simp only [hj, if_false]
    induction chrs with
    | nil => rfl
    | cons _ _ ih => exact ih

theorem examineSvc_mode_other (j : Nat) (hhid : svc.uuid16 ≠ Uuid.hid) (x : Survey) :
    (peer.examineSvc x svc).dev.modeAt j = x.dev.modeAt j := by
  unfold examineSvc
  split
  · rename_i hsvc
    have hother : svc.uuid16 = Uuid.gap ∨ svc.uuid16 = Uuid.bas ∨ svc.uuid16 = Uuid.dis := by
      tauto
    have hchrs := examineChrs_fold peer svc (g := fun dev => dev.modeAt j)
      DevField.offMode_of_incidental (fun _ => rfl) (DevField.modeAt_write j)
      (f := fun _ mode? _ => mode?) (fun chr x => examineChr_mode_other hother j chr x)
      (peer.chrs svc.startHandle svc.endHandle) x
    refine hchrs.trans ?_
    generalize peer.chrs svc.startHandle svc.endHandle = chrs
    induction chrs with
    | nil => rfl
    | cons _ _ ih => exact ih
  · rfl

theorem examineSvc_hidindex (svc : GattSvc) (x : Survey) : (peer.examineSvc x svc).hidindex =
    if svc.uuid16 = Uuid.hid then x.hidindex + 1 else x.hidindex := by
  unfold examineSvc
  by_cases hhid : svc.uuid16 = Uuid.hid
  · simp [hhid, examineChrs_hidindex]
  · simp only [if_neg hhid]
    split
    · exact examineChrs_hidindex ..
    · rfl

/-- **The HID services give their modes in turn.** -/
theorem foldl_examineSvc_mode (peer : Peer) (j : Nat) (svcs : List GattSvc) : ∀ x : Survey,
    x.hidindex.toNat + (hidServices svcs).length < 256 →
      (svcs.foldl peer.examineSvc x).dev.modeAt j =
        if x.hidindex.toNat ≤ j then (x.dev.modeAt j).map fun mode =>
          ((hidServices svcs)[j - x.hidindex.toNat]?.bind peer.svcMode?).getD mode
        else x.dev.modeAt j := by
  induction svcs with
  | nil => exact fun x _ => by simp [hidServices]
  | cons svc svcs ih =>
    intro x hfew
    have hindex : (peer.examineSvc x svc).hidindex = _ := examineSvc_hidindex svc x
    rw [List.foldl_cons]
    by_cases hhid : svc.uuid16 = Uuid.hid
    · rw [if_pos hhid] at hindex
      rw [hidServices_cons_hid hhid, List.length_cons] at hfew
      have hnext : (peer.examineSvc x svc).hidindex.toNat = x.hidindex.toNat + 1 := by
        rw [hindex, UInt8.toNat_add, UInt8.toNat_one]
        omega
      rw [ih _ (by omega), hnext, examineSvc_mode_hid j hhid, hidServices_cons_hid hhid]
      rcases Nat.lt_trichotomy x.hidindex.toNat j with hlt | heq | hgt
      · have hsub : j - x.hidindex.toNat = (j - (x.hidindex.toNat + 1)) + 1 := by omega
        rw [if_pos (Nat.succ_le_of_lt hlt), if_neg (Nat.ne_of_lt hlt), if_pos (Nat.le_of_lt hlt), hsub,
          List.getElem?_cons_succ]
      · rw [if_neg (by omega), if_pos heq, if_pos (Nat.le_of_eq heq), heq, Nat.sub_self]
        rfl
      · rw [if_neg (by omega), if_neg (by omega), if_neg (by omega)]
    · rw [if_neg hhid] at hindex
      rw [hidServices_cons_other hhid] at hfew
      rw [ih _ (by rw [hindex]; exact hfew), hindex, examineSvc_mode_other j hhid,
        hidServices_cons_other hhid]

/-- **The modes of the device,** as far as the table gives them. -/
theorem surveyed_mode (dev : Dev) (memory : List UInt8) (hfew : peer.services.length < 256) (j : Nat) :
    (peer.surveyed dev memory).modeAt j = memory[j]?.map fun mode => (peer.mode? j).getD mode := by
  have hlength : (hidServices peer.services).length ≤ peer.services.length := List.length_filter_le ..
  have hfold := peer.foldl_examineSvc_mode j peer.services { dev := peer.tables dev memory }
    (by simp; omega)
  rw [surveyed, hfold]
  simp [mode?, Dev.modeAt, tables]

/-! ### The indices of the reports -/

theorem mapIndex_describe (report : DevReport) (dsc : GattDsc) :
    (peer.describe report dsc).mapIndex = report.mapIndex := by
  unfold describe
  simp only
  repeat' split
  all_goals rfl

theorem mapIndex_newReport (chr : GattChr) (index : UInt8) : (newReport chr index).mapIndex = index := by
  unfold newReport
  simp only
  repeat' split
  all_goals rfl

theorem mapIndex_svcReports {index : UInt8} {report : DevReport} {chrs : List GattChr}
    (h : report ∈ peer.svcReports svc index chrs) : report.mapIndex = index := by
  induction chrs with
  | nil => cases h
  | cons chr chrs ih =>
    rw [svcReports] at h
    split at h
    · rcases List.mem_cons.mp h with rfl | hrest
      · have hfold : ∀ (dscs : List GattDsc) (report : DevReport),
            (dscs.foldl peer.describe report).mapIndex = report.mapIndex := by
          intro dscs
          induction dscs with
          | nil => exact fun _ => rfl
          | cons dsc dscs ih => exact fun report => (ih _).trans (mapIndex_describe report dsc)
        exact (hfold _ (newReport chr index)).trans (mapIndex_newReport chr index)
      · exact ih hrest
    · exact ih h

/-- A report belongs to one of the HID services. -/
theorem mapIndex_hidReports {report : DevReport} {svcs : List GattSvc} : ∀ {index : UInt8},
    index.toNat + (hidServices svcs).length < 256 → report ∈ peer.hidReports index svcs →
      report.mapIndex.toNat < index.toNat + (hidServices svcs).length := by
  induction svcs with
  | nil =>
    intro index _ h
    cases h
  | cons svc svcs ih =>
    intro index hfew h
    rw [hidReports] at h
    by_cases hhid : svc.uuid16 = Uuid.hid
    · rw [hidServices_cons_hid hhid, List.length_cons] at hfew ⊢
      rw [if_pos hhid] at h
      have hnext : (index + 1).toNat = index.toNat + 1 := by
        rw [UInt8.toNat_add, UInt8.toNat_one]
        omega
      rcases List.mem_append.mp h with hhere | hlater
      · rw [mapIndex_svcReports hhere]
        omega
      · have hbound := ih (by omega) hlater
        omega
    · rw [hidServices_cons_other hhid] at hfew ⊢
      rw [if_neg hhid] at h
      exact ih hfew h

end Peer

/-! ## Notifications -/

/-- The report of a handle: the latest one. -/
def Peer.reportAt? (peer : Peer) (attr : UInt16) : Option DevReport :=
  (peer.hidReports 0 peer.services).reverse.find? (·.handle == attr)

/-- What a notification becomes. The mode of a report is the one that its HID service gives; where the
service gives none, it is some mode. -/
inductive Peer.Notified (peer : Peer) (d : DevId) (reports : List DevReport) (attr : UInt16)
    (data : List UInt8) : Option HidhEvent → Prop
  | battery : attr = peer.battery?.getD 0 →
      Notified peer d reports attr data (some (.battery d (data.getD 0 0)))
  | unknown : attr ≠ peer.battery?.getD 0 → peer.reportAt? attr = none →
      Notified peer d reports attr data none
  | report {report found : DevReport} {mode : UInt8} : attr ≠ peer.battery?.getD 0 →
      peer.reportAt? attr = some report → found ∈ reports → found.bare = report.bare →
      (∀ given, peer.mode? report.mapIndex.toNat = some given → mode = given) →
      Notified peer d reports attr data
        (if report.protocolMode = mode then some (reportEvent d found data) else none)

/-- **The device does with a notification what the table says.** -/
theorem Peer.Describes.notified {peer : Peer} {dev : Dev} (h : peer.Describes dev) (attr : UInt16)
    (data : List UInt8) : ∃ event?, notifyEvent dev attr data = .ok event? ∧
      peer.Notified dev.id dev.reports attr data event? := by
  have hreports := h.reports
  obtain ⟨hfew, memory, hmemory, hdev⟩ := h
  have hbattery : dev.batteryHandle = peer.battery?.getD 0 :=
    (congrArg Dev.batteryHandle hdev).trans (peer.surveyed_battery dev.blank memory)
  have hmode : ∀ j, dev.modeAt j = memory[j]?.map fun mode => (peer.mode? j).getD mode := fun j =>
    (congrArg (fun dev => dev.modeAt j) hdev).trans (surveyed_mode dev.blank memory hfew j)
  unfold notifyEvent
  rw [hbattery]
  by_cases hattr : attr = peer.battery?.getD 0
  · exact ⟨_, if_pos hattr, .battery hattr⟩
  rw [if_neg hattr]
  have hfind : ∀ l : List DevReport, (l.map DevReport.bare).find? (·.handle == attr) =
      (l.find? (·.handle == attr)).map DevReport.bare := fun l => List.find?_map ..
  have hbare := (hfind dev.reports).symm.trans ((congrArg _ hreports).trans (hfind _))
  cases hfound : dev.reports.find? (·.handle == attr) with
  | none =>
    rw [hfound] at hbare
    exact ⟨none, rfl, .unknown hattr (Option.map_eq_none_iff.mp hbare.symm)⟩
  | some found =>
    rw [hfound] at hbare
    obtain ⟨report, hreport, hsame⟩ := Option.map_eq_some_iff.mp hbare.symm
    have hmem : report ∈ peer.hidReports 0 peer.services :=
      List.mem_reverse.mp (List.mem_of_find?_eq_some hreport)
    have hindex : found.mapIndex = report.mapIndex := (congrArg DevReport.mapIndex hsame.symm :)
    have hproto : found.protocolMode = report.protocolMode :=
      (congrArg DevReport.protocolMode hsame.symm :)
    have hlength : (Peer.hidServices peer.services).length ≤ peer.services.length :=
      List.length_filter_le ..
    have hbound := Peer.mapIndex_hidReports (by simp; omega) hmem
    have hcount : memory.length = (Peer.hidServices peer.services).length := by
      rw [hmemory, Peer.hidCount, List.countP_eq_length_filter, UInt8.toNat_ofNat']
      exact Nat.mod_eq_of_lt (Nat.lt_of_le_of_lt hlength hfew)
    have hlt : report.mapIndex.toNat < memory.length := by simpa [hcount] using hbound
    obtain ⟨mode, hat, hgiven⟩ : ∃ mode, dev.modeAt report.mapIndex.toNat = some mode ∧
        ∀ given, peer.mode? report.mapIndex.toNat = some given → mode = given := by
      refine ⟨(peer.mode? report.mapIndex.toNat).getD memory[report.mapIndex.toNat], ?_, ?_⟩
      · rw [hmode, List.getElem?_eq_getElem hlt, Option.map_some]
      · intro given hgives
        rw [hgives, Option.getD_some]
    obtain ⟨modes, hmodes, helem⟩ := Option.bind_eq_some_iff.mp hat
    have hevent : peer.Notified dev.id dev.reports attr data
        (if report.protocolMode = mode then some (reportEvent dev.id found data) else none) :=
      .report hattr hreport (List.mem_of_find?_eq_some hfound) hsame.symm hgiven
    refine ⟨_, ?_, hevent⟩
    simp only [hmodes, hindex, helem, hproto, ite_not]
    split <;> rfl

section Runs

variable {peers : DevId → Peer} {cfg : KbdConfig} {bonds : List (Bda × UInt8)} {c : HostConfig}

/-- **Notifications follow the table.** In a run whose peers are served from their tables, a
notification from a device whose discovery is over becomes the event that the table says, if there is
memory for one, and nothing else changes; it never faults. -/
theorem notificationsFollowTable (h : Reach host (servedBy peers) (boot cfg bonds) c)
    (hlive : c.state.fault = none) {conn attr : UInt16} {data : List UInt8} {mem : Bool} {dev : Dev}
    {s' : Sys} (hconn : c.state.getByConnId conn = some dev)
    (hpending : c.state.ctl.stage.pending? ≠ some dev.id)
    (hstep : eventStep (.notifyRx conn attr data mem) c.state = some s') :
    ∃ event?, (peers dev.id).Notified dev.id dev.reports attr data event? ∧
      s' = if mem then event?.elim c.state c.state.post else c.state := by
  have hdev : dev ∈ c.state.hidh.devices := List.mem_of_find?_eq_some hconn
  have hdescribes : (peers dev.id).Describes dev.profile :=
    elsewhere_of_reach h hlive dev.profile (List.mem_map_of_mem hdev) hpending
  obtain ⟨event?, hevent, hnotified⟩ := hdescribes.notified attr data
  have hevent : notifyEvent dev attr data = .ok event? := hevent
  refine ⟨event?, hnotified, ?_⟩
  have hstep : gapNotifyRx c.state conn attr data mem = some s' := hstep
  unfold gapNotifyRx at hstep
  split at hstep
  · simp only [hconn, hevent] at hstep
    cases event? with
    | none =>
      obtain rfl := Option.some.inj hstep
      cases mem <;> rfl
    | some event =>
      cases mem with
      | false => exact (Option.some.inj hstep).symm
      | true =>
        simp only [Bool.not_true, Bool.false_eq_true, if_false] at hstep
        split at hstep
        · exact (Option.some.inj hstep).symm
        · cases hstep
  · cases hstep

/-- The table of a keyboard whose HID service gives the report protocol. -/
def reportPeer : Peer where
  services := [⟨Uuid.hid, 1, 11⟩]
  chrs _ _ := [⟨Uuid.protocolMode, 2, 3, 2⟩, ⟨Uuid.reportMap, 4, 5, 2⟩, ⟨Uuid.rpt, 6, 7, 0x12⟩]
  dscs _ _ := [⟨Uuid.cltCfg, 8⟩, ⟨Uuid.rptRef, 9⟩]
  value handle :=
    if handle = 3 then [ProtocolMode.report]
    else if handle = 5 then keyboardMap
    else [0, ReportType.input]

/-- Its discovery, where the allocated protocol modes hold the boot protocol, up to `connecting`. -/
def reportRun : List (Move Choice Event) :=
  mains 1 ++ answers [.svc ⟨Uuid.hid, 1, 11⟩, .done] ++ mains 4 ++
  [.main { bytes := [ProtocolMode.boot] }] ++ mains 2 ++
  answers [.chr ⟨Uuid.protocolMode, 2, 3, 2⟩, .chr ⟨Uuid.reportMap, 4, 5, 2⟩,
    .chr ⟨Uuid.rpt, 6, 7, 0x12⟩, .done] ++
  mains 5 ++ answers [.data [ProtocolMode.report], .done] ++
  mains 5 ++ answers [.data keyboardMap, .done] ++
  mains 6 ++ answers [.dsc ⟨Uuid.cltCfg, 8⟩, .dsc ⟨Uuid.rptRef, 9⟩, .done] ++
  mains 6 ++ answers [.data [0, ReportType.input], .done] ++
  mains 18 ++ answers [.done] ++ mains 3 ++ answers [.done] ++ mains 8

/-- Its report becomes an event. -/
theorem notificationsFollowTable_report : ∃ (d : DevId) (reports : List DevReport) (event : HidhEvent),
    reportPeer.Notified d reports 7 [0, 0, 4, 0, 0, 0, 0, 0] (some event) := by
  let notify : Event := .notifyRx 5 7 [0, 0, 4, 0, 0, 0, 0, 0]
  obtain ⟨c, hrun, hstate⟩ := exists_run (servedBy fun _ => reportPeer)
    (scanRun 7 ++ selectRun ++ linkRun 7 ++ reportRun) (boot {} []) (fun c =>
      decide (c.state.fault = none ∧ c.state.ctl.stage.pending? = none ∧
        (c.state.getByConnId 5).isSome = true) &&
      (eventStep notify c.state).any fun s' =>
        decide (c.state.hidh.eventQueue.items.length < s'.hidh.eventQueue.items.length))
    (by decide +kernel)
  obtain ⟨hfound, hposts⟩ := Bool.and_eq_true_iff.mp hstate
  obtain ⟨hlive, hpending, hconn⟩ := of_decide_eq_true hfound
  obtain ⟨dev, hdev⟩ := Option.isSome_iff_exists.mp hconn
  obtain ⟨s', hstep, hgrows⟩ := (Option.any_eq_true ..).mp hposts
  obtain ⟨event?, hnotified, hs'⟩ := notificationsFollowTable (.of_run hrun) hlive hdev
    (by rw [hpending]; simp) hstep
  rw [if_pos rfl] at hs'
  cases event? with
  | none =>
    rw [hs'] at hgrows
    exact absurd (of_decide_eq_true hgrows) (Nat.lt_irrefl _)
  | some event => exact ⟨dev.id, dev.reports, event, hnotified⟩

end Runs

end BleKbdHost.Host
