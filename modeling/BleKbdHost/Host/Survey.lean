import BleKbdHost.Host.Table

/-!
# What an attribute table says of the reports

A survey writes to the device; what it writes, and what it leaves alone, says what the device is like
in the end. Each report characteristic gives one report.
-/

namespace BleKbdHost.Host

open Hid Keys Conc

/-! ## What a survey writes -/

/-- The fields that are written for an attribute, apart from the protocol modes and the handle of the
battery level. -/
def DevField.incidental : DevField → Bool
  | .deviceName _ | .manufacturerName _ | .serialNumber _ | .pnpId _ _ _ | .batteryCccHandle _
  | .reportMap _ _ _ => true
  | _ => false

/-- The fields that are written for an attribute. -/
def DevField.quiet : DevField → Bool
  | .protocolMode _ _ | .batteryHandle _ => true
  | field => field.incidental

/-- The fields that are written while the services are examined. -/
def DevField.surveys : DevField → Bool
  | .pushReport _ => true
  | field => field.quiet

/-- One device comes about from the other by writes to such fields. -/
abbrev WrittenBy (p : DevField → Bool) : Dev → Dev → Prop :=
  Relation.ReflTransGen fun dev dev' =>
    ∃ field : DevField, p field = true ∧ dev' = (field.write dev).toOption.getD dev

/-- What stays as it is. -/
structure SameFrame (dev dev' : Dev) : Prop where
  blank : dev'.blank = dev.blank
  appearance : dev'.appearance = dev.appearance
  reportMapsLen : dev'.reportMapsLen = dev.reportMapsLen
  maps : dev'.reportMaps.map List.length = dev.reportMaps.map List.length

section Surveys

variable {dev dev' : Dev} {p q : DevField → Bool}

theorem WrittenBy.mono (h : WrittenBy p dev dev')
    (hpq : ∀ field, p field = true → q field = true) : WrittenBy q dev dev' := by
  refine Relation.ReflTransGen.mono (fun _ _ hstep => ?_) _ _ h
  obtain ⟨field, hfield, hwrite⟩ := hstep
  exact ⟨field, hpq field hfield, hwrite⟩

/-- What none of the writes changes. -/
theorem WrittenBy.const {α : Type} {g : Dev → α} (h : WrittenBy p dev dev')
    (hg : ∀ field, p field = true → ∀ dev, g ((field.write dev).toOption.getD dev) = g dev) :
    g dev' = g dev := by
  induction h with
  | refl => rfl
  | tail _ hstep ih =>
    obtain ⟨field, hfield, rfl⟩ := hstep
    exact (hg field hfield _).trans ih

theorem DevField.quiet_of_incidental (field : DevField) (h : field.incidental = true) :
    field.quiet = true := by
  cases field <;> first | rfl | exact h

theorem DevField.surveys_of_quiet (field : DevField) (h : field.quiet = true) :
    field.surveys = true := by
  cases field <;> first | rfl | exact h

theorem DevField.frame_write {field : DevField} (h : field.surveys = true) (dev : Dev) :
    SameFrame dev ((field.write dev).toOption.getD dev) := by
  cases field with
  | appearance _ | reports _ => cases h
  | protocolMode index value =>
    simp only [DevField.write]
    split
    · exact ⟨rfl, rfl, rfl, rfl⟩
    · split <;> exact ⟨rfl, rfl, rfl, rfl⟩
  | reportMap index data len =>
    simp only [DevField.write]
    split
    · exact ⟨rfl, rfl, rfl, rfl⟩
    · rename_i maps hmaps
      split
      · exact ⟨rfl, rfl, rfl, by simp [Except.toOption, hmaps]⟩
      · exact ⟨rfl, rfl, rfl, rfl⟩
  | _ => exact ⟨rfl, rfl, rfl, rfl⟩

theorem WrittenBy.frame (h : WrittenBy DevField.surveys dev dev') : SameFrame dev dev' where
  blank := h.const fun _ hfield dev => (DevField.frame_write hfield dev).blank
  appearance := h.const fun _ hfield dev => (DevField.frame_write hfield dev).appearance
  reportMapsLen := h.const fun _ hfield dev => (DevField.frame_write hfield dev).reportMapsLen
  maps := h.const (g := fun dev => dev.reportMaps.map List.length) fun _ hfield dev =>
    (DevField.frame_write hfield dev).maps

theorem DevField.reports_write (field : DevField) (h : field.quiet = true) (dev : Dev) :
    ((field.write dev).toOption.getD dev).reports = dev.reports := by
  cases field with
  | appearance _ | reports _ | pushReport _ => cases h
  | protocolMode _ _ | reportMap _ _ _ =>
    simp only [DevField.write]
    split
    · rfl
    · split <;> rfl
  | _ => rfl

theorem WrittenBy.reports (h : WrittenBy DevField.quiet dev dev') : dev'.reports = dev.reports :=
  h.const DevField.reports_write

variable {peer : Peer} {chr : GattChr} {x : Survey} {suuid : UInt16}

theorem written_write (x : Survey) {field : DevField} (h : p field = true) :
    WrittenBy p x.dev (x.write field).dev := .single ⟨field, h, rfl⟩

theorem written_store {field : ReadVar → DevField} (h : ∀ out, p (field out) = true) :
    WrittenBy p x.dev (peer.store chr field x).dev := by
  unfold Peer.store
  split
  · exact written_write x (h _)
  · exact .refl

theorem written_gapChr : WrittenBy DevField.incidental x.dev (peer.gapChr chr x).1.dev := by
  unfold Peer.gapChr
  split
  · exact written_store fun _ => rfl
  · exact .refl

theorem written_basChr (h : ∀ handle, p (.batteryHandle handle) = true) :
    WrittenBy p x.dev (Peer.basChr chr x).1.dev := by
  unfold Peer.basChr
  split
  · exact written_write x (h _)
  · exact .refl

theorem written_pnpId : WrittenBy DevField.incidental x.dev (peer.pnpId chr x).dev := by
  unfold Peer.pnpId
  simp only
  split
  · exact written_write x rfl
  · exact .refl

theorem written_disChr : WrittenBy DevField.incidental x.dev (peer.disChr chr x).dev := by
  unfold Peer.disChr
  repeat' split
  all_goals first | exact .refl | exact written_pnpId | exact written_store fun _ => rfl

theorem written_hidChr (hmode : ∀ index value, p (.protocolMode index value) = true)
    (hmap : ∀ index data len, p (.reportMap index data len) = true) :
    WrittenBy p x.dev (peer.hidChr chr x).1.dev := by
  unfold Peer.hidChr
  repeat' split
  all_goals first
    | exact .refl
    | exact written_store fun _ => hmode ..
    | exact written_store fun _ => hmap ..

theorem written_examineChr :
    WrittenBy DevField.quiet x.dev (peer.examineChr suuid chr x).1.dev := by
  unfold Peer.examineChr
  split
  · exact written_gapChr.mono DevField.quiet_of_incidental
  split
  · exact written_basChr fun _ => rfl
  split
  · exact written_disChr.mono DevField.quiet_of_incidental
  · exact written_hidChr (fun _ _ => rfl) fun _ _ _ => rfl

theorem written_examineDsc (dsc : GattDsc) :
    WrittenBy DevField.incidental x.dev (peer.examineDsc suuid chr x dsc).dev := by
  unfold Peer.examineDsc
  repeat' split
  all_goals first | exact .refl | exact written_write x rfl

theorem written_pushReport (h : ∀ report, p (.pushReport report) = true) :
    WrittenBy p x.dev (Peer.pushReport suuid x).dev := by
  unfold Peer.pushReport
  repeat' split
  all_goals first | exact .refl | exact written_write x (h _)

theorem written_foldl {α : Type} {f : Survey → α → Survey}
    (h : ∀ x a, WrittenBy p x.dev (f x a).dev) (l : List α) :
    ∀ x : Survey, WrittenBy p x.dev (l.foldl f x).dev := by
  induction l with
  | nil => exact fun _ => .refl
  | cons a l ih => exact fun x => (h x a).trans (ih (f x a))

theorem written_chrDescriptors (hp : ∀ field : DevField, field.incidental = true → p field = true)
    (hreport : ∀ report, p (.pushReport report) = true) (endHandle : UInt16) :
    WrittenBy p x.dev (peer.chrDescriptors suuid chr endHandle x).dev :=
  ((written_foldl (fun _ dsc => written_examineDsc dsc) _ x).mono hp).trans
    (written_pushReport hreport)

theorem written_examineChrs (svc : GattSvc) (chrs : List GattChr) : ∀ x : Survey,
    WrittenBy DevField.surveys x.dev (peer.examineChrs svc chrs x).dev := by
  induction chrs with
  | nil => exact fun _ => .refl
  | cons chr chrs ih =>
    intro x
    rw [Peer.examineChrs]
    have hchr : WrittenBy DevField.quiet x.dev (peer.examineChr svc.uuid16 chr x).1.dev :=
      written_examineChr
    refine (hchr.mono DevField.surveys_of_quiet).trans ?_
    generalize peer.examineChr svc.uuid16 chr x = r
    obtain ⟨x', descends⟩ := r
    cases descends with
    | false => exact ih x'
    | true =>
      refine .trans (written_chrDescriptors (fun field hfield => ?_) (fun _ => rfl) _) (ih _)
      exact field.surveys_of_quiet (field.quiet_of_incidental hfield)

theorem written_examineSvc (svc : GattSvc) :
    WrittenBy DevField.surveys x.dev (peer.examineSvc x svc).dev := by
  unfold Peer.examineSvc
  split
  · have hchrs : WrittenBy DevField.surveys x.dev
        (peer.examineChrs svc (peer.chrs svc.startHandle svc.endHandle) x).dev :=
      written_examineChrs ..
    simp only
    split
    · exact hchrs
    · exact hchrs
  · exact .refl

/-- **A device has the tables it was given,** and its own address. -/
theorem surveyed_frame (peer : Peer) (dev : Dev) (memory : List UInt8) :
    SameFrame (peer.tables dev memory) (peer.surveyed dev memory) :=
  WrittenBy.frame (written_foldl (f := peer.examineSvc) (fun _ svc => written_examineSvc svc)
    peer.services { dev := peer.tables dev memory })

end Surveys

/-! ## The reports of a table -/

namespace Peer

variable (peer : Peer)

/-- The reports of a HID service, in the order of its characteristics. -/
def svcReports (svc : GattSvc) (index : UInt8) : List GattChr → List DevReport
  | [] => []
  | chr :: chrs =>
    if isReport chr.uuid16 then
      (peer.dscs chr.valHandle (endHandle svc chrs)).foldl peer.describe (newReport chr index) ::
        svcReports svc index chrs
    else svcReports svc index chrs

/-- The reports of the HID services, which are numbered from `index` on. -/
def hidReports (index : UInt8) : List GattSvc → List DevReport
  | [] => []
  | svc :: svcs =>
    if svc.uuid16 = Uuid.hid then
      peer.svcReports svc index (peer.chrs svc.startHandle svc.endHandle) ++
        hidReports (index + 1) svcs
    else hidReports index svcs

variable {peer} {x : Survey} {chr : GattChr} {suuid : UInt16}

theorem examineChr_hidindex : (peer.examineChr suuid chr x).1.hidindex = x.hidindex := by
  have hstore : ∀ field, (peer.store chr field x).hidindex = x.hidindex := by
    intro field
    unfold store
    split <;> rfl
  unfold examineChr
  split
  · unfold gapChr
    split
    · exact hstore _
    · rfl
  split
  · unfold basChr
    split <;> rfl
  split
  · unfold disChr pnpId
    simp only
    repeat' split
    all_goals first | rfl | exact hstore _
  · unfold hidChr
    repeat' split
    all_goals first | rfl | exact hstore _

theorem foldl_examineDsc_hidindex (dscs : List GattDsc) : ∀ x : Survey,
    (dscs.foldl (peer.examineDsc suuid chr) x).hidindex = x.hidindex := by
  induction dscs with
  | nil => exact fun _ => rfl
  | cons dsc dscs ih =>
    intro x
    refine (ih _).trans ?_
    unfold examineDsc
    repeat' split
    all_goals rfl

theorem chrDescriptors_hidindex (endHandle : UInt16) :
    (peer.chrDescriptors suuid chr endHandle x).hidindex = x.hidindex := by
  have hfold : ((peer.dscs chr.valHandle endHandle).foldl (peer.examineDsc suuid chr) x).hidindex =
      x.hidindex := foldl_examineDsc_hidindex _ x
  refine .trans ?_ hfold
  unfold chrDescriptors pushReport
  repeat' split
  all_goals rfl

theorem foldl_examineDsc_hid (dscs : List GattDsc) : ∀ (x : Survey) (report : DevReport),
    x.report = some report → dscs.foldl (peer.examineDsc Uuid.hid chr) x =
      { x with report := some (dscs.foldl peer.describe report) } := by
  induction dscs with
  | nil =>
    intro x report hreport
    rw [List.foldl_nil, List.foldl_nil, ← hreport]
  | cons dsc dscs ih =>
    intro x report hreport
    have hstep : peer.examineDsc Uuid.hid chr x dsc =
        { x with report := some (peer.describe report dsc) } := by
      have hbas : Uuid.hid ≠ Uuid.bas := by decide
      simp [examineDsc, hbas, hreport]
    rw [List.foldl_cons, List.foldl_cons, hstep, ih _ (peer.describe report dsc) rfl]

/-- Only a HID service has reports. -/
theorem chrDescriptors_reports_other (hsuuid : suuid ≠ Uuid.hid) (endHandle : UInt16) :
    (peer.chrDescriptors suuid chr endHandle x).dev.reports = x.dev.reports := by
  have hfold := ((written_foldl (f := peer.examineDsc suuid chr)
    (fun _ dsc => written_examineDsc dsc) (peer.dscs chr.valHandle endHandle) x).mono
      DevField.quiet_of_incidental).reports
  refine .trans ?_ hfold
  unfold chrDescriptors pushReport
  split
  · rw [if_neg hsuuid]
  · rfl

theorem examineChrs_hidindex (svc : GattSvc) (chrs : List GattChr) : ∀ x : Survey,
    (peer.examineChrs svc chrs x).hidindex = x.hidindex := by
  induction chrs with
  | nil => exact fun _ => rfl
  | cons chr chrs ih =>
    intro x
    have hchr : (peer.examineChr svc.uuid16 chr x).1.hidindex = x.hidindex := examineChr_hidindex
    rw [examineChrs, ← hchr]
    generalize peer.examineChr svc.uuid16 chr x = r
    obtain ⟨x', descends⟩ := r
    cases descends with
    | false => exact ih x'
    | true => exact (ih _).trans (chrDescriptors_hidindex _)

theorem examineChrs_reports_other (svc : GattSvc) (hsvc : svc.uuid16 ≠ Uuid.hid)
    (chrs : List GattChr) : ∀ x : Survey,
    (peer.examineChrs svc chrs x).dev.reports = x.dev.reports := by
  induction chrs with
  | nil => exact fun _ => rfl
  | cons chr chrs ih =>
    intro x
    have hchr : (peer.examineChr svc.uuid16 chr x).1.dev.reports = x.dev.reports :=
      written_examineChr.reports
    rw [examineChrs, ← hchr]
    generalize peer.examineChr svc.uuid16 chr x = r
    obtain ⟨x', descends⟩ := r
    cases descends with
    | false => exact ih x'
    | true => exact (ih _).trans (chrDescriptors_reports_other hsvc _)

theorem examineChr_hid (chr : GattChr) (x : Survey) :
    (isReport chr.uuid16 ∧ peer.examineChr Uuid.hid chr x =
        ({ x with report := some (newReport chr x.hidindex) }, true)) ∨
      ¬isReport chr.uuid16 ∧ (peer.examineChr Uuid.hid chr x).2 = false := by
  have hhid : peer.examineChr Uuid.hid chr x = peer.hidChr chr x := rfl
  rw [hhid, hidChr]
  by_cases hmode : chr.uuid16 = Uuid.protocolMode
  · rw [if_pos hmode, hmode]
    exact .inr ⟨by decide, rfl⟩
  rw [if_neg hmode]
  by_cases hmap : chr.uuid16 = Uuid.reportMap
  · rw [if_pos hmap, hmap]
    exact .inr ⟨by decide, rfl⟩
  rw [if_neg hmap]
  by_cases hreport : isReport chr.uuid16
  · exact .inl ⟨hreport, if_pos hreport⟩
  · rw [if_neg hreport]
    exact .inr ⟨hreport, rfl⟩

/-- **Each report characteristic of a HID service gives one report.** -/
theorem examineChrs_reports (svc : GattSvc) (hsvc : svc.uuid16 = Uuid.hid) (chrs : List GattChr) :
    ∀ x : Survey, (peer.examineChrs svc chrs x).dev.reports =
      (peer.svcReports svc x.hidindex chrs).reverse ++ x.dev.reports := by
  induction chrs with
  | nil => exact fun _ => rfl
  | cons chr chrs ih =>
    intro x
    rw [examineChrs, svcReports, hsvc]
    rcases peer.examineChr_hid chr x with ⟨hreport, hexamine⟩ | ⟨hother, hskips⟩
    · rw [hexamine, if_pos hreport]
      simp only [if_true]
      rw [ih, chrDescriptors_hidindex, List.reverse_cons, List.append_assoc]
      congr 1
      rw [chrDescriptors, foldl_examineDsc_hid _ _ _ rfl]
      rfl
    · have hsame : (peer.examineChr Uuid.hid chr x).1.dev.reports = x.dev.reports :=
        written_examineChr.reports
      have hindex : (peer.examineChr Uuid.hid chr x).1.hidindex = x.hidindex := examineChr_hidindex
      rw [if_neg hother, ← hsame, ← hindex]
      revert hskips
      generalize peer.examineChr Uuid.hid chr x = r
      obtain ⟨x', descends⟩ := r
      intro hskips
      obtain rfl : descends = false := hskips
      exact ih x'

theorem foldl_examineSvc_reports (svcs : List GattSvc) : ∀ x : Survey,
    (svcs.foldl peer.examineSvc x).dev.reports =
      (peer.hidReports x.hidindex svcs).reverse ++ x.dev.reports := by
  induction svcs with
  | nil => exact fun _ => rfl
  | cons svc svcs ih =>
    intro x
    rw [List.foldl_cons, ih, hidReports]
    by_cases hhid : svc.uuid16 = Uuid.hid
    · have hsvc : peer.examineSvc x svc =
          { peer.examineChrs svc (peer.chrs svc.startHandle svc.endHandle) x with
            hidindex := x.hidindex + 1 } := by
        simp [examineSvc, hhid, examineChrs_hidindex]
      rw [hsvc, if_pos hhid, examineChrs_reports svc hhid, List.reverse_append, List.append_assoc]
    · have hindex : (peer.examineSvc x svc).hidindex = x.hidindex := by
        unfold examineSvc
        simp only [if_neg hhid]
        split
        · exact examineChrs_hidindex ..
        · rfl
      have hreports : (peer.examineSvc x svc).dev.reports = x.dev.reports := by
        unfold examineSvc
        simp only [if_neg hhid]
        split
        · exact examineChrs_reports_other svc hhid ..
        · rfl
      rw [hindex, hreports, if_neg hhid]

theorem surveyed_reports (peer : Peer) (dev : Dev) (memory : List UInt8) :
    (peer.surveyed dev memory).reports = (peer.hidReports 0 peer.services).reverse ++ dev.reports :=
  foldl_examineSvc_reports peer.services { dev := peer.tables dev memory }

end Peer

/-- A report without what the report maps say of it. -/
def DevReport.bare (report : DevReport) : DevReport :=
  { report with
    reportId := if report.protocolMode = ProtocolMode.boot then 0 else report.reportId
    usage := .generic
    valueLen := 0 }

theorem matchItem_bare (report : DevReport) (item : EspHidReportItem) :
    (matchItem report item).bare = report.bare := by
  unfold matchItem
  split
  · rename_i h
    simp [DevReport.bare, h.1]
  · split <;> rfl

theorem matchReports_bare (i : Nat) (map : EspHidReportMap) (reports : List DevReport) :
    (matchReports i map reports).map DevReport.bare = reports.map DevReport.bare := by
  have hitems : ∀ (items : List EspHidReportItem) (report : DevReport),
      (items.foldl matchItem report).bare = report.bare := by
    intro items
    induction items with
    | nil => exact fun _ => rfl
    | cons item items ih => exact fun report => (ih _).trans (matchItem_bare report item)
  rw [matchReports, List.map_map]
  refine List.map_congr_left fun report _ => ?_
  simp only [Function.comp]
  split
  · exact hitems _ report
  · rfl

theorem matchLoop_bare (maps : List (Option EspHidReportMap)) : ∀ (i : Nat) (reports : List DevReport),
    (matchLoop i maps reports).map DevReport.bare = reports.map DevReport.bare := by
  induction maps with
  | nil => exact fun _ _ => rfl
  | cons map? maps ih =>
    intro i reports
    cases map? with
    | none => exact ih _ _
    | some map => exact (ih _ _).trans (matchReports_bare i map reports)

/-- **A table describes the reports of its report characteristics.** -/
theorem Peer.Describes.reports {peer : Peer} {dev : Dev} (h : peer.Describes dev) :
    dev.reports.map DevReport.bare =
      (peer.hidReports 0 peer.services).reverse.map DevReport.bare := by
  obtain ⟨-, memory, -, hdev⟩ := h
  have hreports : dev.reports = matchLoop 0
      (parsedMaps .init ((peer.surveyed dev.blank memory).reportMaps.getD []))
      (peer.surveyed dev.blank memory).reports := congrArg Dev.reports hdev
  rw [hreports, matchLoop_bare, peer.surveyed_reports]
  simp [Dev.blank]

end BleKbdHost.Host
