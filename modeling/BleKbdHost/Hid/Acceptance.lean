import BleKbdHost.Hid.Collections

/-!
# Which descriptors are accepted

`handle_cmd` turns down an item that does not come next in the header of a collection, and one that
ends a stretch whose entries do not fit into the map. `accepted_iff` says of the items of a whole
descriptor when this does not happen.
-/

namespace BleKbdHost.Hid

/-! ## The order of the items -/

/-- The item may stand there: a header is a usage page, a usage and an application collection. -/
def Place.admits : Place → HidReportCmd → Bool
  | .beforePage, cmd => cmd.cmd == HidRm.usagePage
  | .beforeUsage _, cmd => cmd.cmd == HidRm.usage
  | .beforeCollection _ _, cmd => cmd.cmd == HidRm.collection && cmd.value == 1
  | .inside _ _ _ _, _ => true

/-- So do all items from a place on. -/
def InOrder (place : Place) : List HidReportCmd → Bool
  | [] => true
  | cmd :: cmds => place.admits cmd && InOrder (place.next cmd) cmds

/-! ## The number of entries -/

/-- Each report has a boot report with it. -/
def EspHidUsage.boots : EspHidUsage → Bool
  | .keyboard | .mouse => true
  | _ => false

/-- How many entries the stretch takes: one for each type that is recorded and has bits, or two where
there are boot reports. -/
def Stretch.entryCount (s : Stretch) : Nat :=
  s.usageClass.recordedTypes.countP (fun type => s.len type ≠ 0) *
    if s.usageClass.boots then 2 else 1

/-- How many entries the collections take. -/
def entryCount (colls : List AppCollection) : Nat :=
  (colls.flatMap fun coll => coll.recorded.map Stretch.entryCount).sum

/-- The entries of a type that has bits. -/
theorem Stretch.length_ite (s : Stretch) (type : MainType) {n : UInt16}
    (hn : n = UInt16.ofNat (s.bits type)) (items : List EspHidReportItem) :
    (if 0 < n then items else []).length = (if s.len type ≠ 0 then 1 else 0) * items.length := by
  rw [hn]
  by_cases h : s.len type = 0
  · simp [pos_ofNat_iff, show s.bits type % 65536 = 0 from h, h]
  · simp [pos_ofNat_iff, show s.bits type % 65536 ≠ 0 from h, h]

theorem Stretch.length_items (s : Stretch) : (reportItems s.params).length = s.entryCount := by
  have hin := s.length_ite .input (n := s.params.inputLen) rfl
  have hout := s.length_ite .output (n := s.params.outputLen) rfl
  have hfeature := s.length_ite .feature (n := s.params.featureLen) rfl
  unfold reportItems entryCount usageClass
  cases reportUsage s.params with
  | keyboard =>
    simp only [List.length_append, hin, hout, List.length_cons, List.length_nil,
      EspHidUsage.recordedTypes, EspHidUsage.boots, List.countP_cons, List.countP_nil,
      decide_eq_true_eq, ↓reduceIte]
    omega
  | mouse =>
    simp only [hin, List.length_cons, List.length_nil, EspHidUsage.recordedTypes, EspHidUsage.boots,
      List.countP_cons, List.countP_nil, decide_eq_true_eq, ↓reduceIte]
    omega
  | _ =>
    simp only [List.length_append, hin, hout, hfeature, List.length_cons, List.length_nil,
      EspHidUsage.recordedTypes, EspHidUsage.boots, List.countP_cons, List.countP_nil,
      decide_eq_true_eq, Bool.false_eq_true, ↓reduceIte]
    omega

theorem entryCount_append (colls colls' : List AppCollection) :
    entryCount (colls ++ colls') = entryCount colls + entryCount colls' := by
  unfold entryCount
  rw [List.flatMap_append, List.sum_append]

theorem entryCount_unclosed (place : Place) :
    entryCount place.unclosed = (place.ended.map Stretch.entryCount).sum := by
  rw [entryCount, place.flatMap_unclosed]

/-- What ended before a place belongs to the collections from there on. -/
theorem ended_le_entryCount (cmds : List HidReportCmd) : ∀ (place : Place),
    (place.ended.map Stretch.entryCount).sum ≤ entryCount (collections place cmds) := by
  induction cmds with
  | nil => exact fun place => Nat.le_of_eq (entryCount_unclosed place).symm
  | cons cmd cmds ih =>
    intro place
    rw [collections, entryCount_append]
    cases place with
    | inside page usage depth body =>
      by_cases hlast : cmd.cmd = HidRm.endCollection ∧ depth = 1
      · obtain ⟨hclosing, rfl⟩ := hlast
        rw [(Place.inside_last hclosing).2]
        simp only [entryCount, AppCollection.recorded, List.flatMap_singleton, List.map_append,
          List.sum_append]
        exact Nat.le_trans (Nat.le_add_right _ _) (Nat.le_add_right _ _)
      · obtain ⟨depth', hnext, -⟩ := Place.inside_goesOn hlast
        have hended : ((Place.inside page usage depth body).next cmd).ended =
            (Place.inside page usage depth body).ended ++
              (Place.cursor page usage body).ended cmd := by
          rw [hnext]
          exact Cursor.endedIn_append _ body cmd
        have hle := ih ((Place.inside page usage depth body).next cmd)
        rw [hended, List.map_append, List.sum_append] at hle
        omega
    | _ => exact Nat.zero_le _

/-! ## The accumulator -/

/-- The entries recorded so far. -/
def ParserStatics.entries (st : ParserStatics) : Nat :=
  if st.newMap then 0 else (st.tempHidReportMap.getD .empty).reports.length

theorem ParserStatics.entries_le (st : ParserStatics) : st.entries ≤ 64 := by
  unfold entries
  split
  · exact Nat.zero_le _
  · exact (st.tempHidReportMap.getD .empty).bounded

theorem addReports_iff (its : List EspHidReportItem) : ∀ (map : TempHidReportMap),
    (addReports map its).2 = true ↔ map.reports.length + its.length ≤ 64 := by
  induction its with
  | nil => exact fun map => iff_of_true rfl map.bounded
  | cons item its ih =>
    intro map
    unfold addReports addReport
    by_cases hroom : map.reports.length < 64
    · simp only [hroom, ↓reduceDIte, ih, List.length_append, List.length_cons, List.length_nil]
      omega
    · simp only [hroom, ↓reduceDIte, Bool.false_eq_true, false_iff, List.length_cons]
      omega

theorem handleReport_iff (st : ParserStatics) (p : HidReportParams) :
    (handleReport st.tempHidReportMap p st.newMap).2 = true ↔
      st.entries + (reportItems p).length ≤ 64 := by
  unfold handleReport ParserStatics.entries
  rw [addReports_iff]
  cases st.newMap <;> exact Iff.rfl

/-- The entries that an item asks for. -/
def ParserStatics.asked (st : ParserStatics) (cmd : HidReportCmd) : Nat :=
  if callsHandleReport st cmd then (reportItems st.reportParams).length else 0

/-- The entries after an accepted item. -/
theorem entries_handleCmd {st : ParserStatics} {cmd : HidReportCmd}
    (hok : (handleCmd st cmd).2 = true) :
    (handleCmd st cmd).1.entries = st.entries + st.asked cmd := by
  unfold ParserStatics.asked
  cases hcalls : callsHandleReport st cmd with
  | false =>
    obtain ⟨htemp, hnew⟩ := handleCmd_of_not_calls hcalls
    rw [ParserStatics.entries, htemp, hnew]
    rfl
  | true =>
    obtain ⟨hret, htemp, hnew⟩ := handleCmd_of_calls hcalls
    rw [hok] at hret
    obtain ⟨hreports, -⟩ := handleReport_ok (Prod.ext rfl hret.symm :
      handleReport st.tempHidReportMap st.reportParams st.newMap = (_, true))
    rw [ParserStatics.entries, hnew hok, htemp, if_neg Bool.false_ne_true, Option.getD_some, hreports,
      List.length_append, if_pos rfl, ParserStatics.entries]
    cases st.newMap <;> rfl

/-- In a body, only a report that does not fit is turned down. -/
theorem handleCmd_inside {st : ParserStatics} {cmd : HidReportCmd}
    (hstep : st.parseStep = .waitEndCollection) (hcalls : callsHandleReport st cmd = false) :
    (handleCmd st cmd).2 = true := by
  simp only [callsHandleReport, hstep, beq_self_eq_true, Bool.true_and] at hcalls
  unfold handleCmd
  simp only [hstep]
  split
  · rename_i hid
    rw [handleReportId, if_neg]
    rintro ⟨hne, hchange, haligned⟩
    simp [haligned, hid, hne, hchange] at hcalls
  · repeat' split
    any_goals rfl
    rename_i hend
    unfold handleEndCollection
    simp only
    split
    · rename_i hdepth
      have hone : st.collectionDepth = 1 := by
        have := congrArg (· + 1) hdepth
        simpa using this
      split
      · rename_i haligned
        simp [haligned, hend, hone] at hcalls
      · rfl
    · rfl

/-- **When an item is accepted.** -/
theorem handleCmd_iff {st : ParserStatics} {place : Place} (h : Follows st place)
    (cmd : HidReportCmd) : (handleCmd st cmd).2 = true ↔ place.admits cmd = true ∧
      st.entries + st.asked cmd ≤ 64 := by
  have hheader : st.parseStep ≠ .waitEndCollection →
      ((handleCmd st cmd).2 = true ↔ place.admits cmd = true) →
      ((handleCmd st cmd).2 = true ↔ place.admits cmd = true ∧ st.entries + st.asked cmd ≤ 64) := by
    intro hstep hiff
    rw [ParserStatics.asked, Follows.not_calls hstep, hiff]
    exact (and_iff_left st.entries_le).symm
  cases place with
  | beforePage =>
    have hstep : st.parseStep = .waitUsagePage := h
    refine hheader (by rw [hstep]; decide) ?_
    by_cases htag : cmd.cmd = HidRm.usagePage <;> simp [handleCmd, hstep, Place.admits, htag]
  | beforeUsage page =>
    refine hheader (by rw [h.1]; decide) ?_
    by_cases htag : cmd.cmd = HidRm.usage <;> simp [handleCmd, h.1, Place.admits, htag]
  | beforeCollection page usage =>
    refine hheader (by rw [h.1]; decide) ?_
    by_cases htag : cmd.cmd = HidRm.collection <;> by_cases hvalue : cmd.value = 1 <;>
      simp [handleCmd, h.1, Place.admits, htag, hvalue]
  | inside page usage depth body =>
    unfold ParserStatics.asked
    cases hcalls : callsHandleReport st cmd with
    | false => exact iff_of_true (handleCmd_inside h.1 hcalls) ⟨rfl, st.entries_le⟩
    | true =>
      rw [(handleCmd_of_calls hcalls).1, handleReport_iff, if_pos rfl]
      exact (and_iff_right rfl).symm

/-! ## The result -/

/-- What an item records is counted with the stretches that end there. -/
theorem Follows.counts {st : ParserStatics} {place : Place} (h : Follows st place) (cmd : HidReportCmd) :
    (place.ended.map Stretch.entryCount).sum + st.asked cmd =
      entryCount (place.closed cmd) + ((place.next cmd).ended.map Stretch.entryCount).sum := by
  have hlength : ∀ stretches : List Stretch, ((stretches.map Stretch.params).map
      fun p => (reportItems p).length).sum = (stretches.map Stretch.entryCount).sum := by
    intro stretches
    rw [List.map_map]
    exact congrArg _ (List.map_congr_left fun s _ => s.length_items)
  have hclosed : (((place.closed cmd).flatMap (·.recorded.map Stretch.params)).map
      fun p => (reportItems p).length).sum = entryCount (place.closed cmd) := by
    unfold entryCount
    rw [List.map_flatMap]
    refine congrArg (fun f => ((place.closed cmd).flatMap f).sum) (funext fun coll => ?_)
    rw [List.map_map]
    exact List.map_congr_left fun s _ => s.length_items
  have hsum := congrArg (fun ps => (ps.map fun p => (reportItems p).length).sum) (h.records cmd)
  simp only [List.map_append, List.sum_append, hlength, hclosed] at hsum
  rw [← hsum, ParserStatics.asked]
  cases callsHandleReport st cmd <;> rfl

/-- **A run is accepted** if its items come in order and what it records fits, by induction over the
items. -/
theorem handleCmds_iff (cmds : List HidReportCmd) : ∀ {st : ParserStatics} {place : Place},
    Follows st place → ((handleCmds st cmds).2 = true ↔ InOrder place cmds = true ∧
      st.entries + entryCount (collections place cmds) ≤
        64 + (place.ended.map Stretch.entryCount).sum) := by
  induction cmds with
  | nil =>
    intro st place _
    refine iff_of_true rfl ⟨rfl, ?_⟩
    rw [collections, entryCount_unclosed]
    exact Nat.add_le_add_right st.entries_le _
  | cons cmd cmds ih =>
    intro st place h
    have hcounts := h.counts cmd
    have hcmd := handleCmd_iff h cmd
    rw [handleCmds_cons, collections, entryCount_append, InOrder, Bool.and_eq_true]
    by_cases hok : (handleCmd st cmd).2 = true
    · rw [if_pos hok, ih (h.step hok), entries_handleCmd hok]
      obtain ⟨hadmits, -⟩ := hcmd.mp hok
      rw [and_iff_right hadmits]
      refine and_congr_right fun _ => ?_
      omega
    · rw [if_neg hok]
      refine iff_of_false hok ?_
      rintro ⟨⟨hadmits, -⟩, hfits⟩
      have hended := ended_le_entryCount cmds (place.next cmd)
      exact hok (hcmd.mpr ⟨hadmits, by omega⟩)

/-- The statics as the item loop of the first call begins. -/
def ParserStatics.start : ParserStatics := { ParserStatics.init with newMap := true }

theorem Follows.start : Follows .start .beforePage := rfl

/-- **A first call accepts the items of a descriptor exactly** if they come in order and their reports
fit. -/
theorem accepted_iff (hidRm : List UInt8) : (handleCmds .start (items hidRm)).2 = true ↔
    InOrder .beforePage (items hidRm) = true ∧ entryCount (collectionsOf hidRm) ≤ 64 := by
  have hiff := handleCmds_iff (items hidRm) Follows.start
  have hentries : ParserStatics.start.entries = 0 := rfl
  rw [hentries, Nat.zero_add] at hiff
  exact hiff

end BleKbdHost.Hid
