import BleKbdHost.Hid.Collections
import BleKbdHost.Hid.ParserHistory

/-!
# The lengths in a parsed map

The parser sums bits in 16 bits, and records a collection only where it comes to its end with whole
bytes. `lengthsExact_iff` says for which descriptors the lengths that it records are the sums.
-/

namespace BleKbdHost.Hid

/-! ## Accepted descriptors -/

/-- A descriptor for which a map is returned. -/
theorem outcome_some {hidRm : List UInt8} {map : EspHidReportMap}
    (h : outcome .init hidRm = .ok (some map)) :
    complete hidRm = true ∧ (handleCmds .start (items hidRm)).2 = true ∧
      map.reports = (reported .start (items hidRm)).flatMap reportItems := by
  by_cases hall : (handleCmds .start (items hidRm)).2 = true ∧ complete hidRm = true
  · obtain ⟨hok, hcomplete⟩ := hall
    refine ⟨hcomplete, hok, ?_⟩
    rcases espHidParseReportMap_accepted hcomplete hok with
      ⟨-, hfault⟩ | ⟨-, temp, hreports, st, hret⟩
    · rw [outcome, hfault] at h
      cases h
    · rw [outcome, hret] at h
      cases h
      exact hreports
  · have hrun : handleCmds { ParserStatics.init with newMap := true } (items hidRm) =
        ((handleCmds .start (items hidRm)).1, (handleCmds .start (items hidRm)).2) := rfl
    rw [outcome, espHidParseReportMap_eq hrun, if_neg (by simpa using hall)] at h
    cases h

/-- The map has the entries of the collections. -/
theorem reports_of_outcome {hidRm : List UInt8} {map : EspHidReportMap}
    (h : outcome .init hidRm = .ok (some map)) :
    map.reports = (collectionsOf hidRm).flatMap AppCollection.items := by
  obtain ⟨-, hok, hreports⟩ := outcome_some h
  rw [hreports]
  exact reportItems_reported (items hidRm) Follows.start hok

/-! ## The entries of report mode -/

def EspHidReportItem.isReport (item : EspHidReportItem) : Bool :=
  item.protocolMode == ProtocolMode.report

/-- The total of a type. -/
def HidReportParams.len (p : HidReportParams) : MainType → UInt16
  | .input => p.inputLen
  | .output => p.outputLen
  | .feature => p.featureLen

theorem reportUsage_congr {p q : HidReportParams} (hpage : p.usagePage = q.usagePage)
    (husage : p.usage = q.usage) : reportUsage p = reportUsage q := by
  unfold reportUsage
  rw [hpage, husage]

/-- The entry of a type. -/
def Stretch.entry (s : Stretch) (type : MainType) : EspHidReportItem :=
  reportItem s.params type.reportType ProtocolMode.report (UInt16.ofNat (s.bits type) / 8)

/-- The entries of report mode: one for each type that is recorded and has bits. -/
theorem Stretch.filter_items (s : Stretch) :
    s.items.filter (·.isReport) = s.usageClass.recordedTypes.flatMap fun type =>
      if s.len type ≠ 0 then [s.entry type] else [] := by
  have hpair : ∀ (n : Nat) (type : UInt8) (boot : List EspHidReportItem),
      boot.filter (·.isReport) = [] →
        (if 0 < UInt16.ofNat n then
          reportItem s.params type ProtocolMode.report (UInt16.ofNat n / 8) :: boot
        else []).filter (·.isReport) =
          if n % 65536 ≠ 0 then [reportItem s.params type ProtocolMode.report (UInt16.ofNat n / 8)]
          else [] := by
    intro n type boot hboot
    simp only [pos_ofNat_iff]
    split
    · rw [List.filter_cons_of_pos (by rfl), hboot]
    · rfl
  have hin := hpair (s.bits .input) ReportType.input
  have hout := hpair (s.bits .output) ReportType.output
  have hfeature := hpair (s.bits .feature) ReportType.feature
  unfold items reportItems usageClass
  cases reportUsage s.params with
  | keyboard =>
    rw [List.filter_append]
    exact congr (congrArg _ (hin _ rfl)) ((hout _ rfl).trans (List.append_nil _).symm)
  | mouse => exact (hin _ rfl).trans (List.append_nil _).symm
  | _ =>
    rw [List.filter_append, List.filter_append, List.append_assoc]
    exact congr (congrArg _ (hin _ rfl))
      (congr (congrArg _ (hout _ rfl)) ((hfeature _ rfl).trans (List.append_nil _).symm))

theorem Stretch.entry_valueLen (s : Stretch) (type : MainType) :
    (s.entry type).valueLen.toNat = s.len type / 8 := by
  have hdiv : (UInt16.ofNat (s.bits type) / 8).toNat = s.bits type % 65536 / 8 := by
    rw [UInt16.toNat_div, UInt16.toNat_ofNat']
    rfl
  exact hdiv

/-- Where there are whole bytes, an entry has all bits that are counted. -/
theorem Stretch.entry_bits {s : Stretch} {type : MainType} (h : 8 ∣ s.bits type) :
    (s.entry type).valueLen.toNat * 8 = s.len type := by
  rw [s.entry_valueLen, len]
  omega

theorem Stretch.dvd_of_aligned {s : Stretch} (h : s.aligned = true) (type : MainType) :
    8 ∣ s.bits type := by
  unfold aligned at h
  simp only [Bool.and_eq_true, decide_eq_true_eq] at h
  obtain ⟨⟨hin, hout⟩, hfeature⟩ := h
  cases type with
  | input => exact hin
  | output => exact hout
  | feature => exact hfeature

/-! ## Collections with one report id -/

namespace AppCollection

variable (coll : AppCollection)

/-- The collection uses at most one report id. -/
def OneId : Prop :=
  ∃ id : UInt8, ∀ cmd ∈ coll.body, cmd.cmd = HidRm.reportId → cmd.value = id.toUInt32

/-- The bits that the main items of a type declare. -/
def bits (type : MainType) : Nat := (coll.stretches.map fun part => part.1.bits type).sum

/-- The usage class that the header gives the reports. -/
def usageClass : EspHidUsage := coll.start.stretch.usageClass

/-- The types and sizes, in bits, of the reports. -/
def lengths : List (UInt8 × Nat) :=
  coll.usageClass.recordedTypes.flatMap fun type =>
    if coll.bits type ≠ 0 then [(type.reportType, coll.bits type)] else []

/-- If there are reports, the collection comes to its end with whole bytes, and none of them is
beyond 16 bits. -/
def Measured : Prop :=
  coll.lengths ≠ [] → coll.closed = true ∧ (∀ type, 8 ∣ coll.bits type) ∧
    ∀ type ∈ coll.usageClass.recordedTypes, coll.bits type < 65536

end AppCollection

/-- The types and sizes, in bits, of the entries of report mode. -/
def reportLengths (reports : List EspHidReportItem) : List (UInt8 × Nat) :=
  (reports.filter (·.isReport)).map fun item => (item.reportType, item.valueLen.toNat * 8)

/-- The entries of report mode have the sizes that the collections declare. -/
def LengthsExact (map : EspHidReportMap) (colls : List AppCollection) : Prop :=
  reportLengths map.reports = colls.flatMap (·.lengths)

namespace Cursor

/-- With one report id, no stretch ends in a body, and the last one keeps its usage. -/
theorem after_of_oneId {id : UInt8} (body : List HidReportCmd) : ∀ {c : Cursor},
    (∀ cmd ∈ body, cmd.cmd = HidRm.reportId → cmd.value = id.toUInt32) →
      c.stretch.id = 0 ∨ c.stretch.id = id.toUInt32 →
        c.endedIn body = [] ∧ (c.after body).stretch.page = c.stretch.page ∧
          (c.after body).stretch.usage = c.stretch.usage := by
  induction body with
  | nil => exact fun _ _ => ⟨rfl, rfl, rfl⟩
  | cons cmd cmds ih =>
    intro c hids hid
    have hkept : c.ended cmd = [] ∧ (c.next cmd).stretch.page = c.stretch.page ∧
        (c.next cmd).stretch.usage = c.stretch.usage ∧
          ((c.next cmd).stretch.id = 0 ∨ (c.next cmd).stretch.id = id.toUInt32) := by
      by_cases htag : cmd.cmd = HidRm.reportId
      · have hvalue := hids cmd List.mem_cons_self htag
        have hends : c.ends cmd.value = false := by
          unfold ends Stretch.reportId
          rcases hid with hid | hid <;> simp [hid, hvalue]
        rw [hvalue] at hends
        unfold ended next
        simp [htag, hends, hvalue]
      · unfold ended next
        simp only [htag, false_and, ↓reduceIte]
        refine ⟨trivial, ?_⟩
        repeat' split
        all_goals exact ⟨rfl, rfl, hid⟩
    obtain ⟨hended, hpage, husage, hid'⟩ := hkept
    obtain ⟨hrest, hpage', husage'⟩ := ih (fun c hc => hids c (List.mem_cons_of_mem cmd hc)) hid'
    rw [endedIn, hended, hrest]
    exact ⟨rfl, hpage'.trans hpage, husage'.trans husage⟩

end Cursor

namespace AppCollection

variable {coll : AppCollection}

/-- A collection with one report id is a single stretch. -/
theorem OneId.stretches_eq (h : coll.OneId) :
    coll.stretches = [(coll.last, coll.closed && coll.last.aligned)] ∧
      coll.last.usageClass = coll.usageClass := by
  obtain ⟨id, hids⟩ := h
  obtain ⟨hended, hpage, husage⟩ := Cursor.after_of_oneId (c := coll.start) coll.body hids (.inl rfl)
  refine ⟨?_, ?_⟩
  · rw [stretches, hended]
    rfl
  · exact reportUsage_congr (congrArg UInt32.toUInt16 hpage) (congrArg UInt32.toUInt16 husage)

theorem OneId.bits_eq (h : coll.OneId) (type : MainType) : coll.bits type = coll.last.bits type := by
  rw [bits, h.stretches_eq.1, List.map_singleton, List.sum_singleton]

theorem recorded_eq (coll : AppCollection) :
    coll.recorded = (coll.stretches.filter (·.2)).map (·.1) := by
  unfold recorded stretches
  rw [List.filter_append, List.map_append]
  refine congr (congrArg _ ?_) ?_
  · rw [List.filter_eq_self.mpr, List.map_map]
    · exact (List.map_id _).symm
    · intro part hpart
      obtain ⟨s, -, rfl⟩ := List.mem_map.mp hpart
      rfl
  · cases coll.closed && coll.last.aligned <;> rfl

/-- The types and sizes of what the parser records of a collection with one report id. -/
theorem OneId.reportLengths_items (h : coll.OneId) :
    reportLengths coll.items =
      if coll.closed && coll.last.aligned then
        coll.usageClass.recordedTypes.flatMap fun type =>
          if coll.last.len type ≠ 0 then [(type.reportType, coll.last.len type)] else []
      else [] := by
  unfold reportLengths items
  rw [recorded_eq, h.stretches_eq.1, ← h.stretches_eq.2]
  cases hkept : coll.closed && coll.last.aligned with
  | false => rfl
  | true =>
    obtain ⟨-, haligned⟩ := Bool.and_eq_true_iff.mp hkept
    have hone : ([(coll.last, true)].filter (·.2)).map (·.1) = [coll.last] := rfl
    rw [if_pos rfl, hone, List.flatMap_singleton, Stretch.filter_items, List.map_flatMap]
    refine congrArg List.flatten (List.map_congr_left fun type _ => ?_)
    split
    · rw [List.map_singleton, Stretch.entry_bits (Stretch.dvd_of_aligned haligned type)]
      rfl
    · rfl

/-- What the parser records of a collection with one report id are its reports exactly if it comes to
its end with whole bytes and no overflow. -/
theorem OneId.measured_iff (h : coll.OneId) :
    (reportLengths coll.items).length ≤ coll.lengths.length ∧
      (reportLengths coll.items = coll.lengths ↔ coll.Measured) := by
  have hpart : ∀ type ∈ coll.usageClass.recordedTypes,
      (if coll.last.len type ≠ 0 then [(type.reportType, coll.last.len type)] else []).length ≤
        (if coll.bits type ≠ 0 then [(type.reportType, coll.bits type)] else []).length := by
    intro type _
    rw [h.bits_eq]
    unfold Stretch.len
    split
    · rename_i hne
      rw [if_pos fun hzero => hne (by rw [hzero])]
      exact Nat.le_refl _
    · exact Nat.zero_le _
  obtain ⟨hle, hiff⟩ := flatMap_eq_flatMap_iff hpart
  have hwhole : coll.last.aligned = true ↔ ∀ type, 8 ∣ coll.bits type := by
    constructor
    · intro haligned type
      rw [h.bits_eq]
      exact Stretch.dvd_of_aligned haligned type
    · intro hall
      simp only [h.bits_eq] at hall
      simp [Stretch.aligned, hall]
  rw [h.reportLengths_items]
  cases hkept : coll.closed && coll.last.aligned with
  | false =>
    refine ⟨Nat.zero_le _, ?_⟩
    simp only [Bool.false_eq_true, ↓reduceIte]
    constructor
    · intro hnil hne
      exact absurd hnil.symm hne
    · intro hmeasured
      refine Decidable.byContradiction fun hne => ?_
      obtain ⟨hclosed, hall, -⟩ := hmeasured fun hnil => hne hnil.symm
      rw [hclosed, hwhole.mpr hall] at hkept
      cases hkept
  | true =>
    obtain ⟨hclosed, haligned⟩ := Bool.and_eq_true_iff.mp hkept
    refine ⟨hle, hiff.trans ?_⟩
    have htype : ∀ type, ((if coll.last.len type ≠ 0 then [(type.reportType, coll.last.len type)]
        else []) = if coll.bits type ≠ 0 then [(type.reportType, coll.bits type)] else []) ↔
          coll.bits type < 65536 := by
      intro type
      rw [h.bits_eq]
      unfold Stretch.len
      constructor
      · intro heq
        refine Decidable.byContradiction fun hge => ?_
        have hne : coll.last.bits type ≠ 0 := by omega
        rw [if_pos hne] at heq
        split at heq
        · have hsame := congrArg Prod.snd (List.cons.inj heq).1
          simp only at hsame
          omega
        · cases heq
      · intro hlt
        rw [Nat.mod_eq_of_lt hlt]
    simp only [htype]
    constructor
    · exact fun hlt _ => ⟨hclosed, hwhole.mp haligned, hlt⟩
    · intro hmeasured type htype
      by_cases hnil : coll.lengths = []
      · have hzero := List.flatMap_eq_nil_iff.mp hnil type htype
        refine Decidable.byContradiction fun hge => ?_
        rw [if_pos (by omega)] at hzero
        cases hzero
      · exact (hmeasured hnil).2.2 type htype

end AppCollection

/-- The entries are the reports that the collections declare exactly if every collection that has
reports comes to its end with whole bytes of each type, and with less than 65536 bits in each report. -/
theorem lengthsExact_iff {hidRm : List UInt8} {map : EspHidReportMap}
    (h : outcome .init hidRm = .ok (some map)) (hone : ∀ coll ∈ collectionsOf hidRm, coll.OneId) :
    LengthsExact map (collectionsOf hidRm) ↔ ∀ coll ∈ collectionsOf hidRm, coll.Measured := by
  have hlengths : reportLengths map.reports =
      (collectionsOf hidRm).flatMap fun coll => reportLengths coll.items := by
    unfold reportLengths
    rw [reports_of_outcome h, List.filter_flatMap, List.map_flatMap]
  unfold LengthsExact
  rw [hlengths, (flatMap_eq_flatMap_iff fun coll hcoll => (hone coll hcoll).measured_iff.1).2]
  exact forall₂_congr fun coll hcoll => (hone coll hcoll).measured_iff.2

/-! ## Narrowing -/

/-- The item is handled as if the integers of the parser had no bounds: what it declares is kept as it
is, the product is an `int`, and the total of its type grows by the product. -/
structure HandledExactly (st : ParserStatics) (cmd : HidReportCmd) : Prop where
  size : cmd.cmd = HidRm.reportSize → (handleCmd st cmd).1.reportSize.toNat = cmd.value.toNat
  count : cmd.cmd = HidRm.reportCount → (handleCmd st cmd).1.reportCount.toNat = cmd.value.toNat
  main : ∀ type, mainType? cmd.cmd = some type →
    st.reportSize.toNat * st.reportCount.toNat < 2 ^ 31 ∧
      ((handleCmd st cmd).1.reportParams.len type).toNat =
        (st.reportParams.len type).toNat + st.reportSize.toNat * st.reportCount.toNat

/-- In a run, no item of a body is narrowed. -/
def NarrowsNothing (st : ParserStatics) : List HidReportCmd → Prop
  | [] => True
  | cmd :: cmds =>
    (st.parseStep = .waitEndCollection → HandledExactly st cmd) ∧
      NarrowsNothing (handleCmd st cmd).1 cmds

/-- Report sizes and counts are 16 bit values, and so are the bits of each type in a stretch. -/
structure AppCollection.Fits (coll : AppCollection) : Prop where
  data : ∀ cmd ∈ coll.body, cmd.cmd = HidRm.reportSize ∨ cmd.cmd = HidRm.reportCount →
    cmd.value.toNat < 65536
  totals : ∀ part ∈ coll.stretches, ∀ type, part.1.bits type < 65536

namespace Cursor

variable {c : Cursor} {cmd : HidReportCmd}

/-- What an item adds to the bits of the stretch. -/
theorem bits_next (c : Cursor) (cmd : HidReportCmd) (type : MainType) :
    (c.next cmd).stretch.bits type =
      if cmd.cmd = HidRm.reportId ∧ c.ends cmd.value then 0
      else c.stretch.bits type +
        if mainType? cmd.cmd = some type then c.size.toNat * c.count.toNat else 0 := by
  by_cases hid : cmd.cmd = HidRm.reportId
  · have hmain : mainType? HidRm.reportId = none := by decide
    unfold next
    rw [if_pos hid, hid, hmain]
    cases c.ends cmd.value <;> simp [Stretch.bits]
  rw [if_neg fun hall => hid hall.1]
  unfold next
  rw [if_neg hid]
  by_cases hpage : cmd.cmd = HidRm.usagePage
  · rw [if_pos hpage, hpage]
    rfl
  rw [if_neg hpage]
  by_cases husage : cmd.cmd = HidRm.usage
  · rw [if_pos husage, husage]
    rfl
  rw [if_neg husage]
  by_cases hsize : cmd.cmd = HidRm.reportSize
  · rw [if_pos hsize, hsize]
    rfl
  rw [if_neg hsize]
  by_cases hcount : cmd.cmd = HidRm.reportCount
  · rw [if_pos hcount, hcount]
    rfl
  rw [if_neg hcount]
  cases hmain : mainType? cmd.cmd with
  | none => rfl
  | some type' => simp only [Stretch.bits_add, Option.some.injEq]

/-- The size and the count in force behind an item. -/
theorem format_next (c : Cursor) (cmd : HidReportCmd) :
    (c.next cmd).size = (if cmd.cmd = HidRm.reportSize then cmd.value else c.size) ∧
      (c.next cmd).count = if cmd.cmd = HidRm.reportCount then cmd.value else c.count := by
  unfold next
  by_cases hsize : cmd.cmd = HidRm.reportSize
  · rw [hsize]
    exact ⟨rfl, rfl⟩
  by_cases hcount : cmd.cmd = HidRm.reportCount
  · rw [hcount]
    exact ⟨rfl, rfl⟩
  rw [if_neg hsize, if_neg hcount, if_neg hsize, if_neg hcount]
  repeat' split
  all_goals exact ⟨rfl, rfl⟩

/-- Behind 16 bit values, the size and the count in force are 16 bit values. -/
theorem narrow_after (body : List HidReportCmd) : ∀ {c : Cursor},
    (∀ cmd ∈ body, cmd.cmd = HidRm.reportSize ∨ cmd.cmd = HidRm.reportCount →
      cmd.value.toNat < 65536) → c.size.toNat < 65536 ∧ c.count.toNat < 65536 →
        (c.after body).size.toNat < 65536 ∧ (c.after body).count.toNat < 65536 := by
  induction body with
  | nil => exact fun _ h => h
  | cons cmd cmds ih =>
    intro c hdata h
    refine ih (c := c.next cmd) (fun cmd hcmd => hdata cmd (List.mem_cons_of_mem _ hcmd)) ?_
    have hcmd := hdata cmd List.mem_cons_self
    rw [(format_next c cmd).1, (format_next c cmd).2]
    constructor
    · split
      · exact hcmd (.inl ‹_›)
      · exact h.1
    · split
      · exact hcmd (.inr ‹_›)
      · exact h.2

end Cursor

namespace AppCollection

variable {page usage : UInt32} {body : List HidReportCmd} {cmd : HidReportCmd} {closed : Bool}

theorem fits_iff : (mk page usage body closed).Fits ↔
    (∀ cmd ∈ body, cmd.cmd = HidRm.reportSize ∨ cmd.cmd = HidRm.reportCount → cmd.value.toNat < 65536) ∧
      (∀ s ∈ (start ⟨page, usage, body, false⟩).endedIn body, ∀ type, s.bits type < 65536) ∧
        ∀ type, (Place.cursor page usage body).stretch.bits type < 65536 := by
  constructor
  · rintro ⟨hdata, htotals⟩
    refine ⟨hdata, fun s hs type => ?_, fun type => ?_⟩
    · exact htotals (s, true) (List.mem_append_left _ (List.mem_map_of_mem hs)) type
    · exact htotals _ (List.mem_append_right _ (List.mem_singleton_self _)) type
  · rintro ⟨hdata, hended, hlast⟩
    refine ⟨hdata, fun part hpart type => ?_⟩
    rcases List.mem_append.mp hpart with hpart | hpart
    · obtain ⟨s, hs, rfl⟩ := List.mem_map.mp hpart
      exact hended s hs type
    · rw [List.mem_singleton.mp hpart]
      exact hlast type

/-- One more item in a body. -/
theorem fits_append : (mk page usage (body ++ [cmd]) closed).Fits ↔ (mk page usage body closed).Fits ∧
    (cmd.cmd = HidRm.reportSize ∨ cmd.cmd = HidRm.reportCount → cmd.value.toNat < 65536) ∧
      ∀ type, ((Place.cursor page usage body).next cmd).stretch.bits type < 65536 := by
  have hended : (start ⟨page, usage, body ++ [cmd], false⟩).endedIn (body ++ [cmd]) =
      (start ⟨page, usage, body, false⟩).endedIn body ++ (Place.cursor page usage body).ended cmd :=
    Cursor.endedIn_append _ body cmd
  have hcursor : Place.cursor page usage (body ++ [cmd]) = (Place.cursor page usage body).next cmd :=
    Cursor.after_append _ body cmd
  rw [fits_iff, fits_iff, hended, hcursor]
  constructor
  · rintro ⟨hdata, hended, hlast⟩
    refine ⟨⟨fun c hc => hdata c (List.mem_append_left _ hc), fun s hs =>
      hended s (List.mem_append_left _ hs), fun type => ?_⟩,
      hdata cmd (List.mem_append_right _ (List.mem_singleton_self _)), hlast⟩
    -- the stretch under way ends with the item or goes on, and then only grows
    have hnext := hlast type
    rw [Cursor.bits_next] at hnext
    by_cases hends : cmd.cmd = HidRm.reportId ∧ (Place.cursor page usage body).ends cmd.value
    · refine hended _ (List.mem_append_right _ ?_) type
      rw [Cursor.ended, if_pos hends]
      exact List.mem_singleton_self _
    · rw [if_neg hends] at hnext
      exact Nat.lt_of_le_of_lt (Nat.le_add_right _ _) hnext
  · rintro ⟨⟨hdata, hended, hlast⟩, hcmd, hnext⟩
    refine ⟨fun c hc => ?_, fun s hs => ?_, hnext⟩
    · rcases List.mem_append.mp hc with hc | hc
      · exact hdata c hc
      · rw [List.mem_singleton.mp hc]
        exact hcmd
    · rcases List.mem_append.mp hs with hs | hs
      · exact hended s hs
      · unfold Cursor.ended at hs
        split at hs
        · rw [List.mem_singleton.mp hs]
          exact hlast
        · cases hs

end AppCollection

theorem AtCursor.len_toNat {c : Cursor} {st : ParserStatics} (h : AtCursor c st) (type : MainType) :
    (st.reportParams.len type).toNat = c.stretch.bits type % 65536 := by
  rw [h.params]
  cases type <;> exact UInt16.toNat_ofNat'

/-- An item of a body that does not end it. -/
theorem AtCursor.handledExactly_iff {c : Cursor} {st : ParserStatics} {cmd : HidReportCmd}
    (h : AtCursor c st) (hnext : AtCursor (c.next cmd) (handleCmd st cmd).1)
    (hsize : c.size.toNat < 65536) (hcount : c.count.toNat < 65536)
    (hbits : ∀ type, c.stretch.bits type < 65536) :
    HandledExactly st cmd ↔
      (cmd.cmd = HidRm.reportSize ∨ cmd.cmd = HidRm.reportCount → cmd.value.toNat < 65536) ∧
        ∀ type, (c.next cmd).stretch.bits type < 65536 := by
  have hproduct : st.reportSize.toNat * st.reportCount.toNat = c.size.toNat * c.count.toNat := by
    rw [h.size, h.count, UInt32.toNat_toUInt16, UInt32.toNat_toUInt16, Nat.mod_eq_of_lt hsize,
      Nat.mod_eq_of_lt hcount]
  have hlen : ∀ type, (st.reportParams.len type).toNat = c.stretch.bits type := fun type =>
    (h.len_toNat type).trans (Nat.mod_eq_of_lt (hbits type))
  constructor
  · rintro ⟨hkeptSize, hkeptCount, hmain⟩
    refine ⟨?_, fun type => ?_⟩
    · rintro (htag | htag)
      · rw [← hkeptSize htag]
        exact UInt16.toNat_lt _
      · rw [← hkeptCount htag]
        exact UInt16.toNat_lt _
    · rw [Cursor.bits_next]
      split
      · decide
      · split
        · rename_i htype
          rw [← hproduct, ← hlen, ← (hmain type htype).2]
          exact UInt16.toNat_lt _
        · exact hbits type
  · rintro ⟨hdata, htotals⟩
    refine ⟨fun htag => ?_, fun htag => ?_, fun type htype => ?_⟩
    · rw [hnext.size, (Cursor.format_next c cmd).1, if_pos htag, UInt32.toNat_toUInt16]
      exact Nat.mod_eq_of_lt (hdata (.inl htag))
    · rw [hnext.count, (Cursor.format_next c cmd).2, if_pos htag, UInt32.toNat_toUInt16]
      exact Nat.mod_eq_of_lt (hdata (.inr htag))
    · have hid : ¬(cmd.cmd = HidRm.reportId ∧ c.ends cmd.value = true) := by
        rintro ⟨hid, -⟩
        rw [hid] at htype
        cases htype
      have hgrown : (c.next cmd).stretch.bits type =
          c.stretch.bits type + c.size.toNat * c.count.toNat := by
        rw [Cursor.bits_next, if_neg hid, if_pos htype]
      have hlt := htotals type
      rw [hnext.len_toNat, Nat.mod_eq_of_lt hlt, hgrown, hlen, hproduct]
      omega

/-- The part of a collection before a place fits. -/
def Place.Fits : Place → Prop
  | .inside page usage _ body => (AppCollection.mk page usage body false).Fits
  | _ => True

theorem AppCollection.fits_closed {page usage : UInt32} {body : List HidReportCmd} {closed : Bool} :
    (mk page usage body closed).Fits ↔ (mk page usage body false).Fits :=
  fits_iff.trans fits_iff.symm

/-- So does the collection that ends there. -/
theorem Place.Fits.closed {place : Place} (h : place.Fits) {cmd : HidReportCmd} {coll : AppCollection}
    (hcoll : coll ∈ place.closed cmd) : coll.Fits := by
  cases place with
  | inside page usage depth body =>
    unfold Place.closed at hcoll
    simp only at hcoll
    split at hcoll
    · rw [List.mem_singleton.mp hcoll]
      exact AppCollection.fits_closed.mpr h
    · cases hcoll
  | _ => cases hcoll

/-- The collection around a place is among those from there on. -/
theorem fits_of_collections (cmds : List HidReportCmd) : ∀ {place : Place},
    (∀ coll ∈ collections place cmds, coll.Fits) → place.Fits := by
  induction cmds with
  | nil =>
    intro place h
    cases place with
    | inside page usage depth body => exact h _ (List.mem_singleton_self _)
    | _ => trivial
  | cons cmd cmds ih =>
    intro place h
    cases place with
    | inside page usage depth body =>
      by_cases hlast : cmd.cmd = HidRm.endCollection ∧ depth = 1
      · obtain ⟨hclosing, rfl⟩ := hlast
        refine AppCollection.fits_closed.mp (h ⟨page, usage, body, true⟩ ?_)
        rw [collections, (Place.inside_last hclosing).2]
        exact List.mem_cons_self
      · obtain ⟨depth', hnext, hclosed⟩ := Place.inside_goesOn hlast
        rw [collections, hclosed, hnext] at h
        exact (AppCollection.fits_append.mp (ih h)).1
    | _ => trivial

/-- **One accepted item** is handled exactly where the body fits with it. -/
theorem Follows.handledExactly_iff {st : ParserStatics} {place : Place} {cmd : HidReportCmd}
    (h : Follows st place) (hok : (handleCmd st cmd).2 = true) (hfits : place.Fits) :
    (st.parseStep = .waitEndCollection → HandledExactly st cmd) ↔ (place.next cmd).Fits := by
  cases place with
  | beforePage =>
    have hstep : st.parseStep = .waitUsagePage := h
    exact iff_of_true (fun hend => by rw [hstep] at hend; cases hend) trivial
  | beforeUsage page =>
    exact iff_of_true (fun hend => by rw [h.1] at hend; cases hend) trivial
  | beforeCollection page usage =>
    refine iff_of_true (fun hend => by rw [h.1] at hend; cases hend) ?_
    exact AppCollection.fits_iff.mpr ⟨nofun, nofun, fun _ => Nat.zero_lt_succ _⟩
  | inside page usage depth body =>
    rw [imp_iff_right h.1]
    by_cases hlast : cmd.cmd = HidRm.endCollection ∧ depth = 1
    · obtain ⟨hclosing, rfl⟩ := hlast
      rw [(Place.inside_last hclosing).1]
      refine iff_of_true ⟨fun htag => ?_, fun htag => ?_, fun type htype => ?_⟩ trivial
      · rw [hclosing] at htag
        cases htag
      · rw [hclosing] at htag
        cases htag
      · rw [hclosing] at htype
        cases htype
    · obtain ⟨depth', hnext, -⟩ := Place.inside_goesOn hlast
      have hfollows := h.step hok
      rw [hnext] at hfollows ⊢
      have hcursor : AtCursor ((Place.cursor page usage body).next cmd) (handleCmd st cmd).1 := by
        have hat := hfollows.2.2
        rwa [Place.cursor, Cursor.after_append] at hat
      obtain ⟨hdata, -, hbits⟩ := AppCollection.fits_iff.mp hfits
      obtain ⟨hsize, hcount⟩ := Cursor.narrow_after body hdata
        (c := AppCollection.start ⟨page, usage, body, false⟩) ⟨Nat.zero_lt_succ _, Nat.zero_lt_succ _⟩
      rw [h.2.2.handledExactly_iff hcursor hsize hcount hbits]
      exact (AppCollection.fits_append.trans (and_iff_right hfits)).symm

/-- **A run narrows nothing** where its collections fit, by induction over the items. -/
theorem Follows.narrowsNothing_iff (cmds : List HidReportCmd) : ∀ {st : ParserStatics} {place : Place},
    Follows st place → (handleCmds st cmds).2 = true → place.Fits →
      (NarrowsNothing st cmds ↔ ∀ coll ∈ collections place cmds, coll.Fits) := by
  induction cmds with
  | nil =>
    intro st place _ _ hfits
    refine iff_of_true trivial fun coll hcoll => ?_
    cases place with
    | inside page usage depth body =>
      rw [List.mem_singleton.mp hcoll]
      exact hfits
    | _ => cases hcoll
  | cons cmd cmds ih =>
    intro st place h hok hfits
    rw [handleCmds_cons] at hok
    by_cases hcmd : (handleCmd st cmd).2 = true
    · rw [if_pos hcmd] at hok
      rw [NarrowsNothing, h.handledExactly_iff hcmd hfits, collections]
      constructor
      · rintro ⟨hnext, hrest⟩ coll hcoll
        rcases List.mem_append.mp hcoll with hcoll | hcoll
        · exact hfits.closed hcoll
        · exact (ih (h.step hcmd) hok hnext).mp hrest coll hcoll
      · intro hall
        have hrest : ∀ coll ∈ collections (place.next cmd) cmds, coll.Fits :=
          fun coll hcoll => hall coll (List.mem_append_right _ hcoll)
        have hnext := fits_of_collections cmds hrest
        exact ⟨hnext, (ih (h.step hcmd) hok hnext).mpr hrest⟩
    · rw [if_neg hcmd] at hok
      exact absurd hok hcmd

/-- **The lengths are exact**, for a descriptor in which each collection uses at most one report id, and
nothing is narrowed on the way, exactly if every collection fits into the 16 bit integers, and comes to
its end with whole bytes of each type if it has reports. -/
theorem exactLengths_iff {hidRm : List UInt8} {map : EspHidReportMap}
    (h : outcome .init hidRm = .ok (some map)) (hone : ∀ coll ∈ collectionsOf hidRm, coll.OneId) :
    (LengthsExact map (collectionsOf hidRm) ∧ NarrowsNothing .start (items hidRm)) ↔
      ∀ coll ∈ collectionsOf hidRm, coll.Measured ∧ coll.Fits := by
  obtain ⟨-, hok, -⟩ := outcome_some h
  rw [lengthsExact_iff h hone, Follows.start.narrowsNothing_iff (items hidRm) hok trivial]
  exact forall₂_and.symm

/-- A keyboard collection with an input report of 64 bits. -/
theorem exactLengths_keyboardRm : ∃ map, outcome .init keyboardRm = .ok (some map) ∧
    LengthsExact map (collectionsOf keyboardRm) ∧ NarrowsNothing .start (items keyboardRm) := by
  have hcolls : ∀ coll ∈ collectionsOf keyboardRm, (∀ cmd ∈ coll.body, cmd.cmd = HidRm.reportId →
      cmd.value = UInt8.toUInt32 0) ∧ coll.closed = true ∧ (8 ∣ coll.bits .input ∧
        coll.bits .input < 65536) ∧ (coll.bits .output = 0 ∧ coll.bits .feature = 0) ∧
          (∀ cmd ∈ coll.body, cmd.cmd = HidRm.reportSize ∨ cmd.cmd = HidRm.reportCount →
            cmd.value.toNat < 65536) ∧ ∀ part ∈ coll.stretches, part.1.bits .input < 65536 ∧
              part.1.bits .output < 65536 ∧ part.1.bits .feature < 65536 := by decide +kernel
  refine ⟨_, rfl, (exactLengths_iff rfl fun coll hcoll => ⟨0, (hcolls coll hcoll).1⟩).mpr ?_⟩
  intro coll hcoll
  obtain ⟨-, hclosed, ⟨hdvd, hlt⟩, ⟨hout, hfeature⟩, hdata, htotals⟩ := hcolls coll hcoll
  refine ⟨fun _ => ⟨hclosed, fun type => ?_, fun type _ => ?_⟩, hdata, fun part hpart type => ?_⟩
  · cases type with
    | input => exact hdvd
    | output => exact hout ▸ Nat.dvd_zero 8
    | feature => exact hfeature ▸ Nat.dvd_zero 8
  · cases type with
    | input => exact hlt
    | output => exact hout ▸ by decide
    | feature => exact hfeature ▸ by decide
  · obtain ⟨hin, hout, hfeature⟩ := htotals part hpart
    cases type <;> assumption

/-- A keyboard collection with an input report of 8193 fields of 8 bits. -/
def longRm : List UInt8 :=
  [0x05, 0x01, 0x09, 0x06, 0xA1, 0x01, 0x75, 0x08, 0x96, 0x01, 0x20, 0x81, 0x02, 0xC0]

/-- It is parsed as a report of 1 byte. -/
theorem not_lengthsExact_longRm : ∃ map, outcome .init longRm = .ok (some map) ∧
    (∀ coll ∈ collectionsOf longRm, coll.OneId) ∧ ¬LengthsExact map (collectionsOf longRm) := by
  have hids : ∀ coll ∈ collectionsOf longRm, ∀ cmd ∈ coll.body, cmd.cmd = HidRm.reportId →
      cmd.value = UInt8.toUInt32 0 := by decide +kernel
  refine ⟨_, rfl, fun coll hcoll => ⟨0, hids coll hcoll⟩, ?_⟩
  unfold LengthsExact
  decide +kernel

/-- A keyboard collection with an input report of 64 bits and a feature item of 65535 times 65528 bits,
whose product is no `int`. -/
def overflowRm : List UInt8 :=
  [0x05, 0x01, 0x09, 0x06, 0xA1, 0x01, 0x75, 0x08, 0x95, 0x08, 0x81, 0x02,
    0x76, 0xFF, 0xFF, 0x96, 0xF8, 0xFF, 0xB1, 0x02, 0xC0]

/-- Its map is right, but one collection does not fit. -/
example : (∃ map, outcome .init overflowRm = .ok (some map) ∧
    LengthsExact map (collectionsOf overflowRm)) ∧
      ∃ coll ∈ collectionsOf overflowRm, ¬coll.bits .feature < 65536 := by
  refine ⟨⟨_, rfl, ?_⟩, by decide +kernel⟩
  unfold LengthsExact
  decide +kernel

end BleKbdHost.Hid
