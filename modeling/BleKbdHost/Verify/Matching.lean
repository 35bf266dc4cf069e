import Mathlib.Data.List.Forall2
import Mathlib.Data.List.Induction
import BleKbdHost.Host.Placement
import BleKbdHost.Host.Records

/-!
# Matching reports with report maps

The last loop of `read_device_services` looks each report of a device up in the parsed map of its
service. A report of boot mode takes what an item of its usage says, and just as well what an item of
its report id says, of whatever usage that is; from then on it counts as a report of that usage.
-/

namespace BleKbdHost.Host

open Hid Keys Conc

/-! ## The loop -/

/-- The parsed maps of the raw ones, in order; `none` for one that is empty or turned down. -/
def parsedMaps (parser : ParserStatics) : List RawReportMap → List (Option EspHidReportMap)
  | [] => []
  | raw :: raws =>
    match raw.len, raw.data with
    | 0, _ | _, none => none :: parsedMaps parser raws
    | _, some buf =>
      match espHidParseReportMap parser buf.bytes with
      | .ok (map, parser) => map :: parsedMaps parser raws
      | .error _ => none :: parsedMaps parser raws

/-- The loop over the maps from index `i` on. -/
def matchLoop : Nat → List (Option EspHidReportMap) → List DevReport → List DevReport
  | _, [], reports => reports
  | i, none :: maps, reports => matchLoop (i + 1) maps reports
  | i, some map :: maps, reports => matchLoop (i + 1) maps (matchReports i map reports)

/-- The parsed map of the service that a report belongs to. -/
def mapOf (maps : List (Option EspHidReportMap)) (report : DevReport) : Option EspHidReportMap :=
  maps[report.mapIndex.toNat]?.join

namespace DevReport

/-! ## One report -/

/-- The report as an item says. -/
def take (report : DevReport) (item : EspHidReportItem) : DevReport :=
  { report with reportId := item.reportId, usage := item.usage, valueLen := item.valueLen.toNat }

/-- An item of the report's protocol mode and type. -/
def sameKind (report : DevReport) (item : EspHidReportItem) : Bool :=
  decide (item.protocolMode = report.protocolMode) && decide (item.reportType = report.reportType)

/-- The item declares the report's id. -/
def declaredBy (report : DevReport) (item : EspHidReportItem) : Bool :=
  report.sameKind item && decide (item.reportId = report.reportId)

/-- The item is of the report's usage. -/
def usedBy (report : DevReport) (item : EspHidReportItem) : Bool :=
  report.sameKind item && decide (item.usage = report.usage)

/-- Whether the loop takes what an item says. -/
def takes (report : DevReport) (item : EspHidReportItem) : Bool :=
  report.declaredBy item || decide (report.protocolMode = ProtocolMode.boot) && report.usedBy item

theorem matchItem_eq (report : DevReport) (item : EspHidReportItem) :
    matchItem report item = if report.takes item then report.take item else report := by
  unfold matchItem takes declaredBy usedBy sameKind take
  by_cases hmode : item.protocolMode = report.protocolMode
  · by_cases htype : item.reportType = report.reportType
    · by_cases hid : item.reportId = report.reportId
      · by_cases husage : item.usage = report.usage
        · simp [hmode, htype, hid, husage]
        · simp [hmode, htype, hid, Ne.symm husage]
      · by_cases husage : item.usage = report.usage
        · simp [hmode, htype, hid, Ne.symm hid, husage]
        · simp [hmode, htype, hid, Ne.symm hid, husage, Ne.symm husage]
    · simp [htype, Ne.symm htype]
  · simp [hmode, Ne.symm hmode]

/-- The report after the last of the items that are selected. -/
def settled (report : DevReport) (sel : EspHidReportItem → Bool) (items : List EspHidReportItem) :
    DevReport := ((items.filter sel).getLast?.map report.take).getD report

section Settled

variable {report : DevReport} {sel : EspHidReportItem → Bool} {items : List EspHidReportItem}

theorem settled_append (item : EspHidReportItem) : report.settled sel (items ++ [item]) =
    if sel item then (report.settled sel items).take item else report.settled sel items := by
  unfold settled
  rw [List.filter_append]
  cases hsel : sel item with
  | true =>
    rw [List.filter_cons_of_pos hsel, List.filter_nil, List.getLast?_append, List.getLast?_singleton]
    cases (items.filter sel).getLast? <;> rfl
  | false =>
    rw [List.filter_cons_of_neg (by rw [hsel]; exact Bool.false_ne_true), List.filter_nil,
      List.append_nil]
    rfl

/-- Where the loop takes exactly the items that are selected. -/
theorem foldl_eq_settled (h : ∀ before item after, items = before ++ item :: after →
    (report.settled sel before).takes item = sel item) :
    items.foldl matchItem report = report.settled sel items := by
  induction items using List.reverseRecOn with
  | nil => rfl
  | append_singleton items item ih =>
    have hbefore := ih fun before item' after hsplit =>
      h before item' (after ++ [item]) (by rw [hsplit, List.append_assoc, List.cons_append])
    rw [List.foldl_append, hbefore, List.foldl_cons, List.foldl_nil, matchItem_eq, settled_append,
      h items item [] rfl]

theorem settled_of_singleton {item : EspHidReportItem} (h : items.filter sel = [item]) :
    report.settled sel items = report.take item := by
  rw [settled, h]
  rfl

theorem settled_of_nil (h : items.filter sel = []) : report.settled sel items = report := by
  rw [settled, h]
  rfl

/-- A selected item is the last one, or the report is as it was. -/
theorem settled_cases (report : DevReport) (sel : EspHidReportItem → Bool)
    (items : List EspHidReportItem) : report.settled sel items = report ∨
      ∃ item ∈ items, sel item = true ∧ report.settled sel items = report.take item := by
  unfold settled
  cases hlast : (items.filter sel).getLast? with
  | none => exact .inl rfl
  | some item =>
    obtain ⟨hitem, hsel⟩ := List.mem_filter.mp (List.mem_of_getLast? hlast)
    exact .inr ⟨item, hitem, hsel, rfl⟩

theorem settled_frame (report : DevReport) (sel : EspHidReportItem → Bool)
    (items : List EspHidReportItem) :
    report.settled sel items = { report with
      reportId := (report.settled sel items).reportId
      usage := (report.settled sel items).usage
      valueLen := (report.settled sel items).valueLen } := by
  rcases report.settled_cases sel items with h | ⟨item, -, -, h⟩
  · rw [h]
  · rw [h]
    rfl

theorem settled_perm {items' : List EspHidReportItem} (hperm : items'.Perm items)
    (hone : (items.filter sel).length ≤ 1) :
    report.settled sel items' = report.settled sel items := by
  have hfilter := hperm.filter sel
  unfold settled
  match hitems : items.filter sel with
  | [] =>
    rw [hitems] at hfilter
    rw [hfilter.eq_nil]
  | [item] =>
    rw [hitems] at hfilter
    rw [List.perm_singleton.mp hfilter]
  | _ :: _ :: _ =>
    rw [hitems] at hone
    simp at hone

end Settled

end DevReport

/-! ## The property -/

/-- No two items have the same protocol mode, type and report id. -/
def Distinct (items : List EspHidReportItem) : Prop :=
  items.Pairwise fun a b => ¬(a.protocolMode = b.protocolMode ∧ a.reportType = b.reportType ∧
    a.reportId = b.reportId)

/-- `report'` is `report` with what its own declaration among the items says. -/
structure Matched (items : List EspHidReportItem) (report report' : DevReport) : Prop where
  declared : report.protocolMode = ProtocolMode.report → ∀ item,
    items.filter report.declaredBy = [item] →
      report'.usage = item.usage ∧ report'.valueLen = item.valueLen.toNat
  undeclared : report.protocolMode = ProtocolMode.report →
    items.filter report.declaredBy = [] → report' = report
  usage : report.protocolMode = ProtocolMode.boot → report'.usage = report.usage
  used : report.protocolMode = ProtocolMode.boot → ∀ item, items.filter report.usedBy = [item] →
    report'.reportId = item.reportId ∧ report'.valueLen = item.valueLen.toNat
  unused : report.protocolMode = ProtocolMode.boot →
    items.filter report.usedBy = [] → report' = report
  reportId : report.protocolMode = ProtocolMode.report → report'.reportId = report.reportId
  frame : report' = { report with
    reportId := report'.reportId, usage := report'.usage, valueLen := report'.valueLen }

/-- Each report is matched with the map of its service, if that was parsed, and whatever the order
of the items; the others are left as they are. -/
def UsagesRight (maps : List (Option EspHidReportMap)) (reports : List DevReport) : Prop :=
  List.Forall₂ (fun report report' =>
    match mapOf maps report with
    | some map => Matched map.reports report report' ∧ (Distinct map.reports →
        ∀ items : List EspHidReportItem, items.Perm map.reports →
          items.foldl matchItem report = report')
    | none => report' = report) reports (matchLoop 0 maps reports)

/-! ## The condition -/

namespace DevReport

/-- The id of the last item of the report's usage, or the report's own. -/
def currentId (report : DevReport) (items : List EspHidReportItem) : UInt8 :=
  ((items.filter report.usedBy).getLast?.map (·.reportId)).getD report.reportId

/-- No item of another usage has the report id that the report has there. -/
def InOrder (report : DevReport) (items : List EspHidReportItem) : Prop :=
  ∀ before item after, items = before ++ item :: after → report.sameKind item = true →
    item.usage ≠ report.usage → item.reportId ≠ report.currentId before

/-- There is at most one item of the report's usage, and none of another usage has its report id. -/
def Alone (report : DevReport) (items : List EspHidReportItem) : Prop :=
  (items.filter report.usedBy).length ≤ 1 ∧ ∀ item ∈ items, report.sameKind item = true →
    item.usage ≠ report.usage → item.reportId ≠ report.reportId

/-- What the items of a map must be for a report of boot mode. -/
def Apart (report : DevReport) (items : List EspHidReportItem) : Prop :=
  report.protocolMode = ProtocolMode.boot →
    report.InOrder items ∧ (Distinct items → report.Alone items)

/-! ## Reports of report mode -/

variable {report : DevReport} {items items' : List EspHidReportItem}

theorem sameKind_iff {item : EspHidReportItem} : report.sameKind item = true ↔
    item.protocolMode = report.protocolMode ∧ item.reportType = report.reportType := by
  rw [sameKind, Bool.and_eq_true, decide_eq_true_iff, decide_eq_true_iff]

theorem declaredBy_iff {item : EspHidReportItem} : report.declaredBy item = true ↔
    report.sameKind item = true ∧ item.reportId = report.reportId := by
  rw [declaredBy, Bool.and_eq_true, decide_eq_true_iff]

theorem usedBy_iff {item : EspHidReportItem} : report.usedBy item = true ↔
    report.sameKind item = true ∧ item.usage = report.usage := by
  rw [usedBy, Bool.and_eq_true, decide_eq_true_iff]

/-- A report of report mode takes the items that declare its id. -/
theorem foldl_of_report (hmode : report.protocolMode = ProtocolMode.report) :
    items.foldl matchItem report = report.settled report.declaredBy items := by
  apply foldl_eq_settled
  intro before item _ _
  have hboot : ¬ProtocolMode.report = ProtocolMode.boot := by decide
  rcases report.settled_cases report.declaredBy before with h | ⟨last, -, hlast, h⟩
  · rw [h, takes, hmode, decide_eq_false hboot, Bool.false_and, Bool.or_false]
  · have hid : last.reportId = report.reportId := (declaredBy_iff.mp hlast).2
    rw [h]
    simp [takes, declaredBy, usedBy, sameKind, take, hmode, hboot, hid]

/-- In a map without repetitions at most one item declares an id. -/
theorem length_declaredBy_le (h : Distinct items) : (items.filter report.declaredBy).length ≤ 1 := by
  have hfilter : Distinct (items.filter report.declaredBy) := h.filter _
  match hitems : items.filter report.declaredBy with
  | [] => exact Nat.zero_le 1
  | [_] => exact Nat.le_refl 1
  | a :: b :: rest =>
    rw [hitems] at hfilter
    have ha : a ∈ items.filter report.declaredBy := by rw [hitems]; exact List.mem_cons_self
    have hb : b ∈ items.filter report.declaredBy := by
      rw [hitems]
      exact List.mem_cons_of_mem _ List.mem_cons_self
    obtain ⟨hkind, hid⟩ := declaredBy_iff.mp (List.mem_filter.mp ha).2
    obtain ⟨hkind', hid'⟩ := declaredBy_iff.mp (List.mem_filter.mp hb).2
    obtain ⟨hmode, htype⟩ := sameKind_iff.mp hkind
    obtain ⟨hmode', htype'⟩ := sameKind_iff.mp hkind'
    exact absurd ⟨hmode.trans hmode'.symm, htype.trans htype'.symm, hid.trans hid'.symm⟩
      (List.rel_of_pairwise_cons hfilter List.mem_cons_self)

/-! ## Reports of boot mode -/

theorem settled_usedBy (report : DevReport) (items : List EspHidReportItem) :
    (report.settled report.usedBy items).reportId = report.currentId items ∧
      (report.settled report.usedBy items).usage = report.usage := by
  unfold currentId
  constructor
  · unfold settled
    cases (items.filter report.usedBy).getLast? <;> rfl
  · rcases report.settled_cases report.usedBy items with h | ⟨last, -, hlast, h⟩
    · rw [h]
    · rw [h]
      exact (usedBy_iff.mp hlast).2

/-- A report of boot mode takes the items of its usage, where no others have its id. -/
theorem foldl_of_inOrder (hmode : report.protocolMode = ProtocolMode.boot)
    (h : report.InOrder items) :
    items.foldl matchItem report = report.settled report.usedBy items := by
  apply foldl_eq_settled
  intro before item after hsplit
  obtain ⟨hid, husage⟩ := report.settled_usedBy before
  have hframe := report.settled_frame report.usedBy before
  have hkind : (report.settled report.usedBy before).sameKind item = report.sameKind item := by
    rw [hframe]
    rfl
  have hboot : (report.settled report.usedBy before).protocolMode = ProtocolMode.boot := by
    rw [hframe]
    exact hmode
  generalize report.settled report.usedBy before = now at hid husage hkind hboot ⊢
  unfold takes declaredBy usedBy
  rw [hkind, hid, husage, hboot, decide_eq_true rfl, Bool.true_and]
  cases hsame : report.sameKind item with
  | false => rfl
  | true =>
    simp only [Bool.true_and]
    by_cases hitem : item.usage = report.usage
    · rw [decide_eq_true hitem, Bool.or_true]
    · rw [decide_eq_false (h before item after hsplit hsame hitem), Bool.false_or]

/-- In a map without repetitions. -/
theorem inOrder_of_alone (hdistinct : Distinct items) (h : report.Alone items) :
    report.InOrder items := by
  intro before item after hsplit hkind husage hid
  unfold currentId at hid
  cases hlast : (before.filter report.usedBy).getLast? with
  | none =>
    rw [hlast] at hid
    refine h.2 item ?_ hkind husage hid
    rw [hsplit]
    exact List.mem_append_right _ List.mem_cons_self
  | some last =>
    rw [hlast] at hid
    obtain ⟨hmem, hused⟩ := List.mem_filter.mp (List.mem_of_getLast? hlast)
    obtain ⟨hmode, htype⟩ := sameKind_iff.mp hkind
    obtain ⟨hmode', htype'⟩ := sameKind_iff.mp (usedBy_iff.mp hused).1
    rw [hsplit] at hdistinct
    exact (List.pairwise_append.mp hdistinct).2.2 last hmem item List.mem_cons_self
      ⟨hmode'.trans hmode.symm, htype'.trans htype.symm, hid.symm⟩

theorem Alone.perm (h : report.Alone items) (hperm : items'.Perm items) : report.Alone items' := by
  refine ⟨?_, fun item hitem => h.2 item (hperm.mem_iff.mp hitem)⟩
  rw [(hperm.filter report.usedBy).length_eq]
  exact h.1

end DevReport

theorem Distinct.perm {items items' : List EspHidReportItem} (h : Distinct items)
    (hperm : items'.Perm items) : Distinct items' := by
  refine (hperm.pairwise_iff ?_).mpr h
  rintro a b hne ⟨hmode, htype, hid⟩
  exact hne ⟨hmode.symm, htype.symm, hid.symm⟩

namespace DevReport

variable {report : DevReport} {items : List EspHidReportItem}

theorem matched_of_settled {report' : DevReport} {sel : EspHidReportItem → Bool}
    (h : report' = report.settled sel items)
    (hreport : report.protocolMode = ProtocolMode.report → sel = report.declaredBy)
    (hboot : report.protocolMode = ProtocolMode.boot → sel = report.usedBy) :
    Matched items report report' := by
  have hmodes : ProtocolMode.report ≠ ProtocolMode.boot := by decide
  constructor
  · intro hmode item hone
    rw [← hreport hmode] at hone
    rw [h, settled_of_singleton hone]
    exact ⟨rfl, rfl⟩
  · intro hmode hnone
    rw [← hreport hmode] at hnone
    rw [h, settled_of_nil hnone]
  · intro hmode
    rw [h, hboot hmode]
    exact (report.settled_usedBy items).2
  · intro hmode item hone
    rw [← hboot hmode] at hone
    rw [h, settled_of_singleton hone]
    exact ⟨rfl, rfl⟩
  · intro hmode hnone
    rw [← hboot hmode] at hnone
    rw [h, settled_of_nil hnone]
  · intro hmode
    rw [h, hreport hmode]
    rcases report.settled_cases report.declaredBy items with h | ⟨last, -, hlast, h⟩
    · rw [h]
    · rw [h]
      exact (declaredBy_iff.mp hlast).2
  · rw [h]
    exact report.settled_frame sel items

/-- A report of one of the two modes, whose map is fit for it, is matched. -/
theorem matched_of_apart (hmode : report.protocolMode = ProtocolMode.report ∨
    report.protocolMode = ProtocolMode.boot) (h : report.Apart items) :
    Matched items report (items.foldl matchItem report) ∧ (Distinct items →
      ∀ items' : List EspHidReportItem, items'.Perm items →
        items'.foldl matchItem report = items.foldl matchItem report) := by
  have hmodes : ProtocolMode.report ≠ ProtocolMode.boot := by decide
  rcases hmode with hmode | hmode
  · refine ⟨matched_of_settled (foldl_of_report hmode) (fun _ => rfl) fun hboot =>
      absurd (hmode.symm.trans hboot) hmodes, fun hdistinct items' hperm => ?_⟩
    rw [foldl_of_report hmode, foldl_of_report hmode]
    exact settled_perm hperm (length_declaredBy_le hdistinct)
  · obtain ⟨horder, halone⟩ := h hmode
    refine ⟨matched_of_settled (foldl_of_inOrder hmode horder)
      (fun hreport => absurd (hreport.symm.trans hmode) hmodes) fun _ => rfl,
      fun hdistinct items' hperm => ?_⟩
    have halone' := (halone hdistinct).perm hperm
    rw [foldl_of_inOrder hmode horder,
      foldl_of_inOrder hmode (inOrder_of_alone (hdistinct.perm hperm) halone')]
    exact settled_perm hperm (halone hdistinct).1

/-- A report that is in another usage stays there. -/
theorem usage_foldl (items : List EspHidReportItem) : ∀ {now : DevReport}, Distinct items →
    (∀ item ∈ items, now.sameKind item = true → item.reportId ≠ now.reportId) →
      (items.foldl matchItem now).usage = now.usage := by
  induction items with
  | nil => exact fun _ _ => rfl
  | cons item items ih =>
    intro now hdistinct hids
    obtain ⟨hfirst, hrest⟩ := List.pairwise_cons.mp hdistinct
    have hids' := fun other (hother : other ∈ items) => hids other (List.mem_cons_of_mem item hother)
    rw [List.foldl_cons, matchItem_eq]
    by_cases htakes : now.takes item = true
    · rw [if_pos htakes]
      have hused : now.usedBy item = true := by
        rw [takes, Bool.or_eq_true] at htakes
        rcases htakes with hdeclared | hused
        · obtain ⟨hkind, hid⟩ := declaredBy_iff.mp hdeclared
          exact absurd hid (hids item List.mem_cons_self hkind)
        · exact (Bool.and_eq_true_iff.mp hused).2
      obtain ⟨hkind, husage⟩ := usedBy_iff.mp hused
      obtain ⟨hmode, htype⟩ := sameKind_iff.mp hkind
      refine (ih hrest fun other hother hsame hid => ?_).trans husage
      obtain ⟨hmode', htype'⟩ := sameKind_iff.mp hsame
      exact hfirst other hother ⟨hmode.trans hmode'.symm, htype.trans htype'.symm, hid.symm⟩
    · rw [if_neg htakes]
      exact ih hrest hids'

/-- What is left, where a report of boot mode has its usage at the end, if an item of its usage is
the last one. -/
theorem reportId_of_last {item : EspHidReportItem} (hmode : report.protocolMode = ProtocolMode.boot)
    (hused : report.usedBy item = true)
    (husage : ((items ++ [item]).foldl matchItem report).usage = report.usage) :
    ((items ++ [item]).foldl matchItem report).reportId = item.reportId := by
  have hkept : ∀ (items : List EspHidReportItem) (now : DevReport),
      (items.foldl matchItem now).protocolMode = now.protocolMode ∧
        (items.foldl matchItem now).reportType = now.reportType := by
    intro items
    induction items with
    | nil => exact fun _ => ⟨rfl, rfl⟩
    | cons first rest ih =>
      intro now
      obtain ⟨hprotocol, htype⟩ := ih (matchItem now first)
      rw [List.foldl_cons, hprotocol, htype, matchItem_eq]
      split <;> exact ⟨rfl, rfl⟩
  obtain ⟨hprotocol, htype⟩ := hkept items report
  rw [List.foldl_append, List.foldl_cons, List.foldl_nil, matchItem_eq] at husage ⊢
  generalize items.foldl matchItem report = now at hprotocol htype husage ⊢
  by_cases htakes : now.takes item = true
  · rw [if_pos htakes]
    rfl
  · rw [if_neg htakes] at husage
    refine absurd ?_ htakes
    obtain ⟨hkind, hsame⟩ := usedBy_iff.mp hused
    have hused' : now.usedBy item = true := by
      rw [usedBy_iff, sameKind_iff, hprotocol, htype, husage]
      exact ⟨sameKind_iff.mp hkind, hsame⟩
    rw [takes, hused', hprotocol, hmode]
    exact Bool.or_true _

/-- In a map without repetitions, a report that is matched in every order has its item alone. -/
theorem alone_of_matched (hmode : report.protocolMode = ProtocolMode.boot) (hdistinct : Distinct items)
    (husage : (items.foldl matchItem report).usage = report.usage)
    (horder : ∀ items' : List EspHidReportItem, items'.Perm items →
      items'.foldl matchItem report = items.foldl matchItem report) : report.Alone items := by
  constructor
  · -- of two items of the usage, whichever comes last would give the report id
    refine Nat.not_lt.mp fun hlt => ?_
    match hused : items.filter report.usedBy with
    | [] =>
      rw [hused] at hlt
      exact absurd hlt (by decide)
    | [_] =>
      rw [hused] at hlt
      exact absurd hlt (Nat.lt_irrefl 1)
    | a :: b :: rest =>
      have hlast : ∀ item ∈ items.filter report.usedBy,
          (items.foldl matchItem report).reportId = item.reportId := by
        intro item hitem
        obtain ⟨hmem, hused⟩ := List.mem_filter.mp hitem
        have hperm : (items.erase item ++ [item]).Perm items :=
          (List.perm_append_singleton item _).trans (List.perm_cons_erase hmem).symm
        rw [← horder _ hperm]
        apply reportId_of_last hmode hused
        rw [horder _ hperm]
        exact husage
      have ha : a ∈ items.filter report.usedBy := by rw [hused]; exact List.mem_cons_self
      have hb : b ∈ items.filter report.usedBy := by
        rw [hused]
        exact List.mem_cons_of_mem _ List.mem_cons_self
      have hpair : Distinct (items.filter report.usedBy) := hdistinct.filter _
      rw [hused] at hpair
      obtain ⟨hmodeA, htypeA⟩ := sameKind_iff.mp (usedBy_iff.mp (List.mem_filter.mp ha).2).1
      obtain ⟨hmodeB, htypeB⟩ := sameKind_iff.mp (usedBy_iff.mp (List.mem_filter.mp hb).2).1
      exact List.rel_of_pairwise_cons hpair List.mem_cons_self
        ⟨hmodeA.trans hmodeB.symm, htypeA.trans htypeB.symm, (hlast a ha).symm.trans (hlast b hb)⟩
  · -- an item of another usage with the report's id would come first
    intro item hmem hkind hother hid
    have hperm : (item :: items.erase item).Perm items := (List.perm_cons_erase hmem).symm
    have hfirst := horder _ hperm
    have htakes : report.takes item = true := by
      rw [takes, declaredBy_iff.mpr ⟨hkind, hid⟩, Bool.true_or]
    obtain ⟨hmode', htype⟩ := sameKind_iff.mp hkind
    obtain ⟨hpair, hrest⟩ := List.pairwise_cons.mp (hdistinct.perm hperm)
    rw [List.foldl_cons, matchItem_eq, if_pos htakes] at hfirst
    have hstays : ((items.erase item).foldl matchItem (report.take item)).usage = item.usage := by
      apply usage_foldl _ hrest
      intro other hother hsame hid'
      obtain ⟨hmode'', htype'⟩ := sameKind_iff.mp hsame
      exact hpair other hother ⟨hmode'.trans hmode''.symm, htype.trans htype'.symm, hid'.symm⟩
    rw [hfirst, husage] at hstays
    exact hother hstays.symm

end DevReport

/-! ## The loop in the code -/

/-- The device has these raw maps and reports, and the parser stands there. -/
def Matching (d : DevId) (maps : List RawReportMap) (parser : ParserStatics)
    (reports : List DevReport) (s : Sys) : Prop :=
  s.nimble.parser = parser ∧ ∃ dev, s.dev? d = some dev ∧ dev.reportMaps = some maps ∧
    dev.reports = reports

section Loop

variable {g : Guard Op Choice Sys Event} {d : DevId} {maps : List RawReportMap}
variable {parser : ParserStatics} {reports : List DevReport}

theorem exec_host (o : Op) (c : Choice) (s : Sys) : host.exec o c s = o.exec c s := rfl

/-- No pre-condition. -/
abbrev anywhere : Op → Sys → Prop := fun _ _ => True

theorem matchLoop_nil (maps : List (Option EspHidReportMap)) : ∀ i, matchLoop i maps [] = [] := by
  induction maps with
  | nil => exact fun _ => rfl
  | cons map? maps ih =>
    intro i
    cases map? with
    | none => exact ih _
    | some map => exact ih _

variable (hkeep : ∀ s, s.releasing d = true → g.env .dispatch s = false)
include hkeep

theorem stable_matching : Stable host g (Matching d maps parser reports) := by
  rintro s s' ⟨e, -, hg, hstep⟩ ⟨hparser, dev, hdev, hmaps, hreports⟩
  refine ⟨(eventStep_parserStatics hstep).trans hparser, ?_⟩
  have hfound := eventStep_found hstep (d := d) fun he => by
    subst he
    refine eq_false_of_ne_true fun hreleasing => ?_
    rw [hkeep s hreleasing] at hg
    cases hg
  rw [hdev] at hfound
  obtain ⟨dev', hdev', heq⟩ := Option.map_eq_some_iff.mp hfound
  exact ⟨dev', hdev', (congrArg Dev.reportMaps heq).trans hmaps,
    (congrArg Dev.reports heq).trans hreports⟩

/-- A look at the device. -/
theorem triple_lookDev {α : Type} (dflt : α) (f : Dev → α) {p : α → Prop}
    (hp : ∀ dev, dev.reportMaps = some maps → dev.reports = reports → p (f dev)) :
    Triple host g anywhere (Matching d maps parser reports) (lookDev d dflt f) fun a s =>
      p a ∧ Matching d maps parser reports s := by
  refine .ask (stable_matching hkeep) (fun a => (Stable.const _).and (stable_matching hkeep))
    (fun _ _ _ => trivial) fun c s hs _ _ _ => ⟨?_, hs⟩
  obtain ⟨-, dev, hdev, hmaps, hreports⟩ := hs
  simp only [hdev]
  exact hp dev hmaps hreports

/-- A write to the device. -/
theorem triple_setField {field : DevField} {reports' : List DevReport}
    (hwrite : ∀ dev, dev.reportMaps = some maps → dev.reports = reports → ∃ dev',
      field.write dev = .ok dev' ∧ dev'.reportMaps = some maps ∧ dev'.reports = reports') :
    Triple host g anywhere (Matching d maps parser reports) (.perform (.setField d field)) fun _ =>
      Matching d maps parser reports' := by
  refine .perform (stable_matching hkeep) (stable_matching hkeep) (fun _ _ _ => trivial)
    fun c s hs _ _ _ => ?_
  obtain ⟨hparser, dev, hdev, hmaps, hreports⟩ := hs
  obtain ⟨dev', hwritten, hmaps', hreports'⟩ := hwrite dev hmaps hreports
  obtain ⟨hdev', hnimble⟩ := exec_setField c hdev hwritten
  exact ⟨(congrArg Nimble.parser hnimble).trans hparser, dev', hdev', hmaps', hreports'⟩

/-- The read of a raw map. -/
theorem triple_readReportMap {before rest : List RawReportMap} {raw : RawReportMap}
    (hmaps : maps = before ++ raw :: rest) :
    Triple host g anywhere (Matching d maps parser reports) (readReportMap d before.length)
      fun raw' s => raw' = raw ∧ Matching d maps parser reports s := by
  refine .ask (stable_matching hkeep) (fun _ => (Stable.const _).and (stable_matching hkeep))
    (fun _ _ _ => trivial) fun c s hs _ _ _ => ?_
  obtain ⟨hparser, dev, hdev, hraws, hreports⟩ := hs
  have hread : s.reportMap d before.length = .ok raw := by
    simp [Sys.reportMap, hdev, hraws, hmaps, slot]
  refine ⟨by rw [hread]; rfl, ?_⟩
  simp only [exec_host, Op.exec, hread, Sys.absorb]
  exact ⟨hparser, dev, hdev, hraws, hreports⟩

/-- Parsing a raw map: its result is the next of the parsed maps, and the parser goes on from there. -/
theorem triple_parseReportMap {raw : RawReportMap} (hlen : raw.len ≠ 0) (raws : List RawReportMap) :
    Triple host g anywhere (Matching d maps parser reports) (parseReportMap raw.data) fun map? s =>
      ∃ parser', parsedMaps parser (raw :: raws) = map? :: parsedMaps parser' raws ∧
        Matching d maps parser' reports s := by
  refine .op (stable_matching hkeep) (fun _ _ _ => trivial) fun c s hs _ _ _ => ?_
  obtain ⟨hparser, dev, hdev, hraws, hreports⟩ := hs
  rcases raw with ⟨_ | buf, len⟩
  · exact wp_of_dead rfl _
  · simp only [exec_host, Op.exec]
    by_cases hfreed : s.freed.contains buf.token = true
    · rw [if_pos hfreed]
      exact wp_of_dead rfl _
    rw [if_neg hfreed, hparser]
    cases hparse : espHidParseReportMap parser buf.bytes with
    | error fault => exact wp_of_dead rfl _
    | ok r =>
      obtain ⟨map?, parser'⟩ := r
      refine fun s' hrun _ => ⟨parser', ?_, (stable_matching hkeep).interfere hrun
        ⟨rfl, dev, hdev, hraws, hreports⟩⟩
      have hlen' : ¬len = 0 := hlen
      rw [parsedMaps.eq_def]
      simp [hparse]

/-- **The loop of the code is the loop over the parsed maps.** -/
theorem triple_mapLoop {rest : List RawReportMap} : ∀ (raws before : List RawReportMap)
    (parser : ParserStatics) (reports : List DevReport), maps = before ++ (raws ++ rest) →
      Triple host g anywhere (Matching d maps parser reports) (mapLoop d raws.length before.length)
        fun _ s => ∃ parser', Matching d maps parser'
          (matchLoop before.length (parsedMaps parser raws) reports) s := by
  intro raws
  induction raws with
  | nil =>
    intro before parser reports _
    exact .ret (stable_matching hkeep) fun s hs => ⟨parser, hs⟩
  | cons raw raws ih =>
    intro before parser reports hmaps
    have hrest : maps = (before ++ [raw]) ++ (raws ++ rest) := by rw [hmaps]; simp
    have hlength : (before ++ [raw]).length = before.length + 1 := by simp
    have hnext := fun parser reports => ih (before ++ [raw]) parser reports hrest
    rw [hlength] at hnext
    refine Triple.bind (triple_lookDev hkeep [] (·.reports) (p := (· = reports)) fun _ _ h => h)
      fun reports' => Triple.pure fun hreports => ?_
    subst hreports
    refine .ite (fun hempty => ?_) fun _ => ?_
    · -- without reports nothing is parsed, and there is nothing to match
      rw [List.isEmpty_iff.mp hempty]
      exact (hnext parser []).weaken fun _ s ⟨parser', hs⟩ => ⟨parser', by
        rwa [matchLoop_nil] at hs ⊢⟩
    refine Triple.bind (triple_readReportMap hkeep hmaps) fun raw' => Triple.pure fun hraw => ?_
    subst hraw
    refine .ite (fun hlen => ?_) fun hlen => ?_
    · refine (hnext parser reports').weaken fun _ s ⟨parser', hs⟩ => ⟨parser', ?_⟩
      rw [parsedMaps.eq_def]
      simpa [hlen, matchLoop] using hs
    refine Triple.bind (triple_parseReportMap hkeep hlen raws) fun map? =>
      Triple.of_exists fun parser' => Triple.pure fun hparsed => ?_
    rw [hparsed]
    cases map? with
    | none => exact hnext parser' reports'
    | some map =>
      refine Triple.bind (triple_lookDev hkeep 0 (·.appearance) (p := fun _ => True)
        fun _ _ _ => trivial) fun appearance => Triple.pure fun _ => ?_
      refine Triple.bind (B := fun _ => Matching d maps parser' reports') (.ite (fun _ => ?_)
        fun _ => .ret (stable_matching hkeep) fun _ => id) fun _ => ?_
      · exact triple_setField hkeep fun dev hmaps hreports => ⟨_, rfl, hmaps, hreports⟩
      · exact Triple.bind (triple_setField hkeep fun dev hmaps _ => ⟨_, rfl, hmaps, rfl⟩)
          fun _ => hnext parser' _

end Loop

/-! ## The result -/

/-- The loop over the maps from index `i` on looks each report up in its own map. -/
theorem matchLoop_eq (maps : List (Option EspHidReportMap)) : ∀ (i : Nat) (reports : List DevReport),
    matchLoop i maps reports = reports.map fun report =>
      match (if i ≤ report.mapIndex.toNat then maps[report.mapIndex.toNat - i]?.join else none) with
      | some map => map.reports.foldl matchItem report
      | none => report := by
  have hindex : ∀ (items : List EspHidReportItem) (report : DevReport),
      (items.foldl matchItem report).mapIndex = report.mapIndex := by
    intro items
    induction items with
    | nil => exact fun _ => rfl
    | cons item items ih =>
      intro report
      rw [List.foldl_cons, ih, DevReport.matchItem_eq]
      split <;> rfl
  induction maps with
  | nil =>
    intro i reports
    rw [matchLoop]
    refine (List.map_id reports).symm.trans (List.map_congr_left fun report _ => ?_)
    split
    · rename_i heq
      split at heq <;> cases heq
    · rfl
  | cons map? maps ih =>
    intro i reports
    have hrest : ∀ report : DevReport, report.mapIndex.toNat ≠ i →
        (if i ≤ report.mapIndex.toNat then (map? :: maps)[report.mapIndex.toNat - i]?.join else none) =
          if i + 1 ≤ report.mapIndex.toNat then maps[report.mapIndex.toNat - (i + 1)]?.join
          else none := by
      intro report hne
      by_cases hle : i + 1 ≤ report.mapIndex.toNat
      · have hsub : report.mapIndex.toNat - i = report.mapIndex.toNat - (i + 1) + 1 := by omega
        rw [if_pos hle, if_pos (by omega), hsub, List.getElem?_cons_succ]
      · rw [if_neg hle, if_neg (by omega)]
    cases map? with
    | none =>
      rw [matchLoop, ih]
      refine List.map_congr_left fun report _ => ?_
      by_cases hi : report.mapIndex.toNat = i
      · have hnone : ¬i + 1 ≤ i := by omega
        simp [hi, hnone]
      · rw [hrest report hi]
    | some map =>
      rw [matchLoop, ih, matchReports, List.map_map]
      refine List.map_congr_left fun report _ => ?_
      by_cases hi : report.mapIndex.toNat = i
      · have hnone : ¬i + 1 ≤ i := by omega
        simp only [Function.comp_apply, hi, ↓reduceIte, hindex, if_neg hnone, Nat.le_refl, Nat.sub_self,
          List.getElem?_cons_zero, Option.join_some]
      · rw [hrest report hi]
        simp [hi]

theorem matchLoop_zero (maps : List (Option EspHidReportMap)) (reports : List DevReport) :
    matchLoop 0 maps reports = reports.map fun report =>
      match mapOf maps report with
      | some map => map.reports.foldl matchItem report
      | none => report := by
  rw [matchLoop_eq]
  rfl

/-- What the property says of one report. -/
theorem usagesRight_def (maps : List (Option EspHidReportMap)) (reports : List DevReport) :
    UsagesRight maps reports ↔ ∀ report ∈ reports, ∀ map, mapOf maps report = some map →
      Matched map.reports report (map.reports.foldl matchItem report) ∧ (Distinct map.reports →
        ∀ items : List EspHidReportItem, items.Perm map.reports →
          items.foldl matchItem report = map.reports.foldl matchItem report) := by
  unfold UsagesRight
  rw [matchLoop_zero, List.forall₂_map_right_iff, List.forall₂_same]
  refine forall₂_congr fun report _ => ?_
  cases mapOf maps report with
  | none => simp
  | some map => simp

/-- **Reports get the usage of their own declaration** if each report of boot mode has in its map no
item of another usage with the report id that it has there, and in a map without repetitions it has to
be so: its usage comes in one item at most, and no other item has its report id. -/
theorem usagesRight_of_apart (maps : List (Option EspHidReportMap)) (reports : List DevReport)
    (hmodes : ∀ report ∈ reports, report.protocolMode = ProtocolMode.report ∨
      report.protocolMode = ProtocolMode.boot) :
    ((∀ report ∈ reports, ∀ map, mapOf maps report = some map → report.Apart map.reports) →
      UsagesRight maps reports) ∧
    (UsagesRight maps reports → ∀ report ∈ reports, ∀ map, mapOf maps report = some map →
      Distinct map.reports → report.Apart map.reports) := by
  rw [usagesRight_def]
  constructor
  · intro h report hreport map hmap
    exact DevReport.matched_of_apart (hmodes report hreport) (h report hreport map hmap)
  · intro h report hreport map hmap hdistinct hboot
    obtain ⟨hmatched, horder⟩ := h report hreport map hmap
    have halone := DevReport.alone_of_matched hboot hdistinct (hmatched.usage hboot)
      (horder hdistinct)
    exact ⟨DevReport.inOrder_of_alone hdistinct halone, fun _ => halone⟩

/-- A report of report mode and one of boot mode, on the map of a keyboard. -/
theorem usagesRight_keyboard : UsagesRight (parsedMaps .init [⟨some ⟨0, keyboardMap⟩, 13⟩])
    [newReport ⟨Uuid.bootKbdInp, 4, 5, 0x12⟩ 0,
      { newReport ⟨Uuid.rpt, 7, 8, 0x12⟩ 0 with reportType := ReportType.input }] := by
  refine (usagesRight_of_apart _ _ (by decide)).1 fun report hreport map hmap _ => ?_
  have hkeyboard : parsedMaps .init [⟨some ⟨0, keyboardMap⟩, 13⟩] =
      [some ⟨.keyboard, Appearance.keyboard, 2, [⟨0, 0, 1, 1, .keyboard, 8⟩,
        ⟨0, 0, 1, 0, .keyboard, 8⟩]⟩] := by decide
  rw [hkeyboard] at hmap
  have hboot : report = newReport ⟨Uuid.bootKbdInp, 4, 5, 0x12⟩ 0 := by
    rcases List.mem_pair.mp hreport with rfl | rfl
    · rfl
    · rename_i hmode
      exact absurd hmode (by decide)
  subst hboot
  cases hmap
  have hdistinct : Distinct [⟨0, 0, 1, 1, .keyboard, 8⟩, ⟨0, 0, 1, 0, .keyboard, 8⟩] := by
    unfold Distinct
    decide
  have halone : DevReport.Alone (newReport ⟨Uuid.bootKbdInp, 4, 5, 0x12⟩ 0)
      [⟨0, 0, 1, 1, .keyboard, 8⟩, ⟨0, 0, 1, 0, .keyboard, 8⟩] := by
    unfold DevReport.Alone
    decide
  exact ⟨DevReport.inOrder_of_alone hdistinct halone, fun _ => halone⟩

/-- The map of a mouse without a report id and of a keyboard with one. -/
def mouseAndKeyboardMap : List UInt8 :=
  [0x05, 1, 0x09, 2, 0xa1, 1, 0x75, 8, 0x95, 3, 0x81, 0, 0xc0] ++
  [0x05, 1, 0x09, 6, 0xa1, 1, 0x85, 1, 0x75, 8, 0x95, 8, 0x81, 0, 0xc0]

/-- The boot keyboard report becomes a mouse report there. -/
theorem not_usagesRight_mouse : ¬UsagesRight (parsedMaps .init [⟨some ⟨0, mouseAndKeyboardMap⟩, 28⟩])
    [newReport ⟨Uuid.bootKbdInp, 4, 5, 0x12⟩ 0] := by
  intro h
  have hmouse : (mapOf (parsedMaps .init [⟨some ⟨0, mouseAndKeyboardMap⟩, 28⟩])
      (newReport ⟨Uuid.bootKbdInp, 4, 5, 0x12⟩ 0)).any (fun map => decide ((map.reports.foldl matchItem
        (newReport ⟨Uuid.bootKbdInp, 4, 5, 0x12⟩ 0)).usage = .mouse)) = true := by decide
  obtain ⟨map, hmap, husage⟩ := (Option.any_eq_true ..).mp hmouse
  have hmatched := ((usagesRight_def ..).mp h _ List.mem_cons_self map hmap).1
  exact absurd ((hmatched.usage rfl).symm.trans (of_decide_eq_true husage)) (by decide)

end BleKbdHost.Host
