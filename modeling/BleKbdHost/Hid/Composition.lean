import BleKbdHost.Hid.Nesting
import BleKbdHost.Hid.RoundTrip

/-!
# Descriptors one after the other

The bytes of two descriptors that the parser accepts, parsed as one. `composes_iff` says that they yield
the entries of the first and then those of the second exactly where the first one ends with the end of
a collection.
-/

namespace BleKbdHost.Hid

/-! ## Items -/

/-- Bytes behind the descriptor do not matter to an item inside. -/
theorem parseCmd_append_left {hidRm rest : List UInt8} {index size : Nat} {cmd : HidReportCmd}
    (hin : index < hidRm.length) (h : parseCmd hidRm index = .ok (.item cmd size)) :
    parseCmd (hidRm ++ rest) index = .ok (.item cmd size) := by
  have hlen : (hidRm ++ rest).length = hidRm.length + rest.length := List.length_append
  have hin' : index < (hidRm ++ rest).length := by omega
  unfold parseCmd at h ⊢
  rw [if_neg (Nat.ne_of_lt hin), readAt_of_lt hin] at h
  rw [if_neg (Nat.ne_of_lt hin'), readAt_of_lt hin', List.getElem_append_left hin]
  simp only [bind, Except.bind, pure, Except.pure] at h ⊢
  by_cases hcut : hidRm.length - index - 1 < itemDataLen hidRm[index]
  · rw [if_pos hcut] at h
    cases h
  · have hle : index + 1 + itemDataLen hidRm[index] ≤ hidRm.length := by omega
    rw [if_neg hcut, readBytes_of_le hle] at h
    rw [if_neg (by omega), readBytes_of_le (by omega), ← h,
      List.drop_append_of_le_length (by omega), List.take_append_of_le_length]
    rw [List.length_drop]
    omega

/-- Nor do bytes in front of it. -/
theorem parseCmd_append_right (before hidRm : List UInt8) (index : Nat) :
    parseCmd (before ++ hidRm) (before.length + index) = parseCmd hidRm index := by
  have hread : readAt (before ++ hidRm) (before.length + index) = readAt hidRm index := by
    unfold readAt
    rw [List.getElem?_append_right (Nat.le_add_right _ _), Nat.add_sub_cancel_left]
  have hbytes : ∀ n, readBytes (before ++ hidRm) (before.length + index + 1) n =
      readBytes hidRm (index + 1) n := by
    intro n
    have hfits : before.length + index + 1 + n ≤ (before ++ hidRm).length ↔
        index + 1 + n ≤ hidRm.length := by
      rw [List.length_append]
      omega
    have hdrop : (before ++ hidRm).drop (before.length + index + 1) = hidRm.drop (index + 1) := by
      rw [Nat.add_assoc, List.drop_append, List.drop_eq_nil_of_le (Nat.le_add_right _ _),
        List.nil_append, Nat.add_sub_cancel_left]
    simp only [readBytes, hfits, hdrop]
  have hend : before.length + index = (before ++ hidRm).length ↔ index = hidRm.length := by
    rw [List.length_append]
    omega
  have hleft : (before ++ hidRm).length - (before.length + index) = hidRm.length - index := by
    rw [List.length_append]
    omega
  unfold parseCmd
  simp only [hread, hbytes, hend, hleft]

theorem itemsFrom_append_right (before hidRm : List UInt8) : ∀ fuel index : Nat,
    itemsFrom (before ++ hidRm) fuel (before.length + index) = itemsFrom hidRm fuel index := by
  intro fuel
  induction fuel with
  | zero => intro index; rfl
  | succ fuel ih =>
    intro index
    have hin : before.length + index < (before ++ hidRm).length ↔ index < hidRm.length := by
      rw [List.length_append]
      omega
    simp only [itemsFrom, hin, parseCmd_append_right, Nat.add_assoc, ih]

/-- Behind bytes that split into items without a rest, the items of the next bytes follow. -/
theorem itemsFrom_append (hidRm rest : List UInt8) : ∀ fuel index : Nat,
    index ≤ hidRm.length → hidRm.length ≤ index + fuel → (itemsFrom hidRm fuel index).2 = true →
      itemsFrom (hidRm ++ rest) (fuel + rest.length) index =
        ((itemsFrom hidRm fuel index).1 ++ items rest, complete rest) := by
  intro fuel
  induction fuel with
  | zero =>
    intro index hle hfuel _
    obtain rfl : index = hidRm.length + 0 := by omega
    rw [itemsFrom_append_right, Nat.zero_add]
    rfl
  | succ fuel ih =>
    intro index hle hfuel hcomplete
    by_cases hin : index < hidRm.length
    · have hin' : index < (hidRm ++ rest).length := by
        rw [List.length_append]
        omega
      rw [Nat.add_right_comm]
      simp only [itemsFrom, hin, hin', ↓reduceIte] at hcomplete ⊢
      rcases parseCmd_spec hin with ⟨hfail, -⟩ | ⟨cmd, size, hitem, hpos, hend⟩
      · rw [hfail] at hcomplete
        cases hcomplete
      · simp only [hitem, parseCmd_append_left hin hitem] at hcomplete ⊢
        rw [ih (index + size) hend (by omega) hcomplete]
        rfl
    · obtain rfl : index = hidRm.length + 0 := by omega
      have hnil : itemsFrom hidRm (fuel + 1) (hidRm.length + 0) = ([], true) := by
        simp only [itemsFrom, hin, ↓reduceIte]
      rw [itemsFrom_append_right, hnil,
        itemsFrom_fuel rest (fuel + 1 + rest.length) rest.length 0 (by omega) (by omega)]
      rfl

/-- The items of one descriptor and then another. -/
theorem items_append {hidRm : List UInt8} (rest : List UInt8) (h : complete hidRm = true) :
    items (hidRm ++ rest) = items hidRm ++ items rest ∧ complete (hidRm ++ rest) = complete rest := by
  have hall := itemsFrom_append hidRm rest hidRm.length 0 (Nat.zero_le _) (by omega) h
  rw [← List.length_append] at hall
  unfold items
  rw [complete, hall]
  exact ⟨rfl, rfl⟩

/-! ## The second run -/

/-- Statics that hold different reports, but that are at the same place of a descriptor. -/
structure SamePlace (a b : ParserStatics) : Prop where
  parseStep : a.parseStep = b.parseStep
  header : a.parseStep ≠ .waitUsagePage →
    a.reportParams = b.reportParams ∧ a.reportSize = b.reportSize ∧ a.reportCount = b.reportCount
  depth : a.parseStep = .waitEndCollection → a.collectionDepth = b.collectionDepth

/-- The reports that the statics hold for the map. -/
def ParserStatics.held (st : ParserStatics) : List EspHidReportItem :=
  if st.newMap then [] else (st.tempHidReportMap.getD .empty).reports

theorem held_handleCmd {st : ParserStatics} {cmd : HidReportCmd} (hok : (handleCmd st cmd).2 = true) :
    (handleCmd st cmd).1.held = st.held ++
      (if callsHandleReport st cmd then [st.reportParams] else []).flatMap reportItems := by
  cases hcalls : callsHandleReport st cmd with
  | false =>
    obtain ⟨htemp, hnew⟩ := handleCmd_of_not_calls hcalls
    unfold ParserStatics.held
    rw [htemp, hnew]
    exact (List.append_nil _).symm
  | true =>
    obtain ⟨hret, htemp, hnew⟩ := handleCmd_of_calls hcalls
    have hrep : handleReport st.tempHidReportMap st.reportParams st.newMap =
        ((handleReport st.tempHidReportMap st.reportParams st.newMap).1, true) :=
      Prod.ext rfl (hret.symm.trans hok)
    rw [if_pos rfl, List.flatMap_singleton]
    unfold ParserStatics.held
    rw [hnew hok, htemp]
    exact (handleReport_ok hrep).1

/-- Inside a collection, only a report that does not fit is refused. -/
theorem handleCmd_accepts {st : ParserStatics} {cmd : HidReportCmd}
    (hstep : st.parseStep = .waitEndCollection) (h : callsHandleReport st cmd = false) :
    (handleCmd st cmd).2 = true := by
  simp only [callsHandleReport, hstep, beq_self_eq_true, Bool.true_and] at h
  unfold handleCmd
  simp only [hstep]
  by_cases hid : cmd.cmd = HidRm.reportId
  · rw [if_pos hid, handleReportId, if_neg]
    rintro ⟨hne, hchange, haligned⟩
    simp [haligned, hid, hne, hchange] at h
  by_cases hend : cmd.cmd = HidRm.endCollection
  · rw [hend]
    simp only [HidRm.endCollection, HidRm.reportId, HidRm.usagePage, HidRm.usage, HidRm.reportSize,
      HidRm.reportCount, HidRm.input, HidRm.output, HidRm.feature, HidRm.collection]
    change (handleEndCollection st).2 = true
    unfold handleEndCollection
    by_cases hdepth : st.collectionDepth = 1
    · have haligned : st.reportParams.aligned = false := by
        rw [hend, hdepth] at h
        simpa using h
      simp [hdepth, haligned]
    · have hne : st.collectionDepth - 1 ≠ 0 := by
        intro hzero
        have := congrArg (· + 1) hzero
        exact hdepth (by simpa using this)
      simp [hne]
  · rw [if_neg hid]
    repeat' split
    all_goals rfl

/-- The reports that a whole run collects. -/
theorem held_handleCmds (cmds : List HidReportCmd) : ∀ {st : ParserStatics},
    (handleCmds st cmds).2 = true →
      (handleCmds st cmds).1.held = st.held ++ (reported st cmds).flatMap reportItems := by
  induction cmds with
  | nil => exact fun _ => (List.append_nil _).symm
  | cons cmd cmds ih =>
    intro st hok
    rw [handleCmds_cons] at hok ⊢
    by_cases hcmd : (handleCmd st cmd).2 = true
    · rw [if_pos hcmd] at hok ⊢
      rw [ih hok, held_handleCmd hcmd, reported, if_pos hcmd, List.flatMap_append,
        List.append_assoc]
    · rw [if_neg hcmd] at hok
      exact absurd hok hcmd

theorem reported_append (cmds cmds' : List HidReportCmd) : ∀ {st : ParserStatics},
    (handleCmds st cmds).2 = true →
      reported st (cmds ++ cmds') = reported st cmds ++ reported (handleCmds st cmds).1 cmds' := by
  induction cmds with
  | nil => exact fun _ => rfl
  | cons cmd cmds ih =>
    intro st hok
    rw [handleCmds_cons] at hok ⊢
    by_cases hcmd : (handleCmd st cmd).2 = true
    · rw [if_pos hcmd] at hok ⊢
      rw [List.cons_append, reported, reported, if_pos hcmd, if_pos hcmd, ih hok,
        List.append_assoc]
    · rw [if_neg hcmd] at hok
      exact absurd hok hcmd

namespace SamePlace

variable {a b : ParserStatics} {cmd : HidReportCmd}

/-- Inside a collection only the reports may differ. -/
theorem eq (h : SamePlace a b) (hstep : a.parseStep = .waitEndCollection) :
    b = { a with newMap := b.newMap, tempHidReportMap := b.tempHidReportMap } := by
  obtain ⟨hparams, hsize, hcount⟩ := h.header (by rw [hstep]; decide)
  rcases a with ⟨⟩
  rcases b with ⟨⟩
  simp only [ParserStatics.mk.injEq, and_self, and_true]
  exact ⟨h.parseStep.symm, (h.depth hstep).symm, hparams.symm, hsize.symm, hcount.symm⟩

theorem callsHandleReport_eq (h : SamePlace a b) :
    callsHandleReport a cmd = callsHandleReport b cmd := by
  by_cases hstep : a.parseStep = .waitEndCollection
  · rw [h.eq hstep]
    rfl
  · have ha : (a.parseStep == .waitEndCollection) = false := beq_false_of_ne hstep
    have hb : (b.parseStep == .waitEndCollection) = false :=
      beq_false_of_ne (h.parseStep ▸ hstep)
    simp only [callsHandleReport, ha, hb, Bool.false_and]

/-- An accepted item is accepted at the same place, unless its report does not fit. -/
theorem accepts (h : SamePlace a b) (hok : (handleCmd a cmd).2 = true)
    (hfits : callsHandleReport a cmd = true →
      b.held.length + (reportItems a.reportParams).length ≤ 64) : (handleCmd b cmd).2 = true := by
  cases hcalls : callsHandleReport a cmd with
  | true =>
    have hcalls' : callsHandleReport b cmd = true := h.callsHandleReport_eq.symm.trans hcalls
    have hstep : a.parseStep = .waitEndCollection := by
      simp only [callsHandleReport, Bool.and_eq_true, beq_iff_eq] at hcalls
      exact hcalls.1.1
    have hparams : a.reportParams = b.reportParams := (h.header (by rw [hstep]; decide)).1
    rw [(handleCmd_of_calls hcalls').1]
    apply handleReport_fits
    rw [← hparams]
    exact hfits hcalls
  | false =>
    cases hstep : a.parseStep with
    | waitUsagePage =>
      have hstep' := h.parseStep.symm.trans hstep
      have htag := ((handleCmd_header hok).1 hstep).1
      simp only [handleCmd, hstep', htag, ne_eq, not_true_eq_false, ↓reduceIte]
    | waitUsage =>
      have hstep' := h.parseStep.symm.trans hstep
      have htag := ((handleCmd_header hok).2.1 hstep).1
      simp only [handleCmd, hstep', htag, ne_eq, not_true_eq_false, ↓reduceIte]
    | waitCollectionApplication =>
      have hstep' := h.parseStep.symm.trans hstep
      have htag := ((handleCmd_header hok).2.2 hstep).1
      simp only [handleCmd, hstep', htag.1, htag.2, ne_eq, not_true_eq_false, or_self, ↓reduceIte]
    | waitEndCollection =>
      exact handleCmd_accepts (h.parseStep.symm.trans hstep)
        (h.callsHandleReport_eq.symm.trans hcalls)

section Inside

variable {first : Bool} {temp : Option TempHidReportMap}

theorem handleReportId {value : UInt32} (ha : (handleReportId a value).2 = true)
    (hb : (handleReportId { a with newMap := first, tempHidReportMap := temp } value).2 = true) :
    SamePlace (Hid.handleReportId a value).1
      (Hid.handleReportId { a with newMap := first, tempHidReportMap := temp } value).1 := by
  unfold Hid.handleReportId at ha hb ⊢
  dsimp only at ha hb ⊢
  by_cases hflush : a.reportParams.reportId ≠ 0 ∧ a.reportParams.reportId.toUInt32 ≠ value ∧
      a.reportParams.aligned = true
  · simp only [if_pos hflush] at ha hb ⊢
    by_cases hok : (handleReport a.tempHidReportMap a.reportParams a.newMap).2 = true
    · by_cases hok' : (handleReport temp a.reportParams first).2 = true
      · simp only [if_pos hok, if_pos hok']
        exact ⟨rfl, fun _ => ⟨rfl, rfl, rfl⟩, fun _ => rfl⟩
      · rw [if_neg hok'] at hb
        cases hb
    · rw [if_neg hok] at ha
      cases ha
  · simp only [if_neg hflush]
    exact ⟨rfl, fun _ => ⟨rfl, rfl, rfl⟩, fun _ => rfl⟩

theorem handleEndCollection (ha : (handleEndCollection a).2 = true)
    (hb : (handleEndCollection { a with newMap := first, tempHidReportMap := temp }).2 = true) :
    SamePlace (Hid.handleEndCollection a).1
      (Hid.handleEndCollection { a with newMap := first, tempHidReportMap := temp }).1 := by
  unfold Hid.handleEndCollection at ha hb ⊢
  dsimp only at ha hb ⊢
  by_cases hdepth : a.collectionDepth - 1 = 0
  · simp only [if_pos hdepth] at ha hb ⊢
    by_cases haligned : a.reportParams.aligned = true
    · simp only [if_pos haligned] at ha hb ⊢
      by_cases hok : (handleReport a.tempHidReportMap a.reportParams a.newMap).2 = true
      · by_cases hok' : (handleReport temp a.reportParams first).2 = true
        · simp only [if_pos hok, if_pos hok']
          exact ⟨rfl, fun _ => ⟨rfl, rfl, rfl⟩, fun _ => rfl⟩
        · rw [if_neg hok'] at hb
          cases hb
      · rw [if_neg hok] at ha
        cases ha
    · simp only [if_neg haligned]
      exact ⟨rfl, fun _ => ⟨rfl, rfl, rfl⟩, fun _ => rfl⟩
  · simp only [if_neg hdepth]
    exact ⟨rfl, fun _ => ⟨rfl, rfl, rfl⟩, fun _ => rfl⟩

end Inside

/-- **One item** that both accept. -/
theorem step (h : SamePlace a b) (ha : (handleCmd a cmd).2 = true)
    (hb : (handleCmd b cmd).2 = true) : SamePlace (handleCmd a cmd).1 (handleCmd b cmd).1 := by
  cases hstep : a.parseStep with
  | waitUsagePage =>
    have hstep' := h.parseStep.symm.trans hstep
    have htag := ((handleCmd_header ha).1 hstep).1
    simp only [handleCmd, hstep, hstep', htag, ne_eq, not_true_eq_false, ↓reduceIte]
    exact ⟨rfl, fun _ => ⟨rfl, rfl, rfl⟩, (by simp)⟩
  | waitUsage =>
    have hstep' := h.parseStep.symm.trans hstep
    have htag := ((handleCmd_header ha).2.1 hstep).1
    obtain ⟨hparams, hsize, hcount⟩ := h.header (by rw [hstep]; decide)
    simp only [handleCmd, hstep, hstep', htag, ne_eq, not_true_eq_false, ↓reduceIte, hparams]
    exact ⟨rfl, fun _ => ⟨rfl, hsize, hcount⟩, (by simp)⟩
  | waitCollectionApplication =>
    have hstep' := h.parseStep.symm.trans hstep
    have htag := ((handleCmd_header ha).2.2 hstep).1
    obtain ⟨hparams, hsize, hcount⟩ := h.header (by rw [hstep]; decide)
    simp only [handleCmd, hstep, hstep', htag.1, htag.2, ne_eq, not_true_eq_false, or_self,
      ↓reduceIte, hparams]
    exact ⟨rfl, fun _ => ⟨rfl, hsize, hcount⟩, fun _ => rfl⟩
  | waitEndCollection =>
    obtain ⟨step, depth, params, size, count, first, temp⟩ := a
    obtain rfl : step = .waitEndCollection := hstep
    rw [h.eq rfl] at hb ⊢
    unfold handleCmd at ha hb ⊢
    dsimp only at ha hb ⊢
    by_cases hid : cmd.cmd = HidRm.reportId
    · simp only [if_pos hid] at ha hb ⊢
      exact handleReportId ha hb
    by_cases hend : cmd.cmd = HidRm.endCollection
    · rw [hend] at ha hb ⊢
      exact handleEndCollection ha hb
    · simp only [if_neg hid, if_neg hend]
      repeat' split
      all_goals exact ⟨rfl, fun _ => ⟨rfl, rfl, rfl⟩, fun _ => rfl⟩

/-- **Items** that one accepts, and whose reports fit at the other. -/
theorem run (cmds : List HidReportCmd) : ∀ {a b : ParserStatics}, SamePlace a b →
    (handleCmds a cmds).2 = true →
    b.held.length + ((reported a cmds).flatMap reportItems).length ≤ 64 →
      (handleCmds b cmds).2 = true ∧ reported b cmds = reported a cmds := by
  induction cmds with
  | nil => exact fun _ _ _ => ⟨rfl, rfl⟩
  | cons cmd cmds ih =>
    intro a b h hok hroom
    rw [handleCmds_cons] at hok ⊢
    by_cases ha : (handleCmd a cmd).2 = true
    · rw [if_pos ha] at hok
      simp only [reported, if_pos ha, List.flatMap_append, List.length_append] at hroom
      have hb : (handleCmd b cmd).2 = true := by
        refine h.accepts ha fun hcalls => ?_
        rw [if_pos hcalls, List.flatMap_singleton] at hroom
        omega
      have hparams : callsHandleReport a cmd = true → b.reportParams = a.reportParams := by
        intro hcalls
        have hstep : a.parseStep = .waitEndCollection := by
          simp only [callsHandleReport, Bool.and_eq_true, beq_iff_eq] at hcalls
          exact hcalls.1.1
        exact (h.header (by rw [hstep]; decide)).1.symm
      have hflush : (if callsHandleReport b cmd then [b.reportParams] else []) =
          if callsHandleReport a cmd then [a.reportParams] else [] := by
        rw [← h.callsHandleReport_eq]
        by_cases hcalls : callsHandleReport a cmd = true
        · rw [if_pos hcalls, if_pos hcalls, hparams hcalls]
        · rw [if_neg hcalls, if_neg hcalls]
      obtain ⟨hrun, hreported⟩ := ih (h.step ha hb) hok (by
        rw [held_handleCmd hb, hflush, List.length_append]
        omega)
      rw [if_pos hb]
      refine ⟨hrun, ?_⟩
      simp only [reported, if_pos ha, if_pos hb, hflush, hreported]
    · rw [if_neg ha] at hok
      exact absurd hok ha

end SamePlace

/-! ## Accepted descriptors -/

/-- The usage classes of reports, as the parser collects them. -/
def usageMask (ps : List HidReportParams) : UInt8 :=
  ps.foldl (fun mask p => mask ||| (reportUsage p).value) 0

/-- The map of reports. -/
def mapOf (ps : List HidReportParams) : EspHidReportMap where
  usage := (dominantUsage (usageMask ps)).1
  appearance := (dominantUsage (usageMask ps)).2
  reportsLen := (ps.flatMap reportItems).length.toUInt8
  reports := ps.flatMap reportItems

theorem usageMask_append (ps ps' : List HidReportParams) :
    usageMask (ps ++ ps') = usageMask ps ||| usageMask ps' := by
  have hfold : ∀ (ps : List HidReportParams) (mask : UInt8),
      ps.foldl (fun mask p => mask ||| (reportUsage p).value) mask = mask ||| usageMask ps := by
    intro ps
    induction ps with
    | nil => exact fun mask => (UInt8.or_zero).symm
    | cons p ps ih =>
      intro mask
      unfold usageMask
      rw [List.foldl_cons, List.foldl_cons, ih, ih, UInt8.zero_or, UInt8.or_assoc]
  unfold usageMask
  rw [List.foldl_append, hfold]
  rfl

/-- The parser accepts the bytes with at least one report, and is outside any collection behind them. -/
def Accepted (hidRm : List UInt8) (map : EspHidReportMap) : Prop :=
  ∃ st, espHidParseReportMap .init hidRm = .ok (some map, st) ∧
    st.parseStep ≠ .waitEndCollection ∧ map.reports ≠ []

/-- The blocks that the parser hands to `handle_report`. -/
def blocksOf (hidRm : List UInt8) : List HidReportParams := reported .start (items hidRm)

/-- Bytes whose items are all accepted, and some of which reach `handle_report`. -/
theorem outcome_mapOf {hidRm : List UInt8} (hcomplete : complete hidRm = true)
    (hok : (handleCmds .start (items hidRm)).2 = true) (hblocks : blocksOf hidRm ≠ []) :
    espHidParseReportMap .init hidRm = .ok (some (mapOf (blocksOf hidRm)),
      { (handleCmds .start (items hidRm)).1 with tempHidReportMap := none }) := by
  have hrun : handleCmds { ParserStatics.init with newMap := true } (items hidRm) =
      ((handleCmds .start (items hidRm)).1, true) := Prod.ext rfl hok
  have hrec : Recorded none (blocksOf hidRm) (handleCmds .start (items hidRm)).1 :=
    (Recorded.start ParserStatics.init).handleCmds hok
  obtain ⟨-, map, htemp, hreports, hmask⟩ := hrec.written hblocks
  rw [espHidParseReportMap_eq hrun, hcomplete]
  simp only [Bool.and_self, ↓reduceIte, finishMap, htemp]
  unfold outMap mapOf TempHidReportMap.reportsLen usageMask
  rw [hreports, hmask]

/-- Bytes whose collections are all closed leave the parser outside any collection. -/
theorem outside_of_excess {hidRm : List UInt8} (hok : (handleCmds .start (items hidRm)).2 = true)
    (hclosed : excess (items hidRm) = 0) :
    (handleCmds .start (items hidRm)).1.parseStep ≠ .waitEndCollection := by
  have hend := Walk.run hok (shallow_of_excess hok hclosed) _ List.prefix_rfl
  intro hstep
  generalize hall : items hidRm = all at hend hclosed hstep
  cases hend with
  | between _ hstep' | page _ _ hstep' | usage _ _ _ hstep' =>
    rw [hstep'] at hstep
    cases hstep
  | inside hbefore hheader hbody _ _ =>
    have hpos := hbody.pos
    rw [excess_append, hbefore.excess, hheader.excess, hbody.excess] at hclosed
    omega

/-- Such bytes are accepted in the sense above. -/
theorem accepted_of_excess {hidRm : List UInt8} {map : EspHidReportMap}
    (h : outcome .init hidRm = .ok (some map)) (hreports : map.reports ≠ [])
    (hclosed : excess (items hidRm) = 0) : Accepted hidRm map := by
  obtain ⟨hcomplete, hok, hmap⟩ := outcome_some h
  have hblocks : blocksOf hidRm ≠ [] := by
    intro hnil
    rw [blocksOf] at hnil
    rw [hnil] at hmap
    exact hreports hmap
  have hret := outcome_mapOf hcomplete hok hblocks
  rw [outcome, hret] at h
  cases h
  exact ⟨_, hret, outside_of_excess hok hclosed, hreports⟩

namespace Accepted

variable {hidRm hidRm' : List UInt8} {map map' : EspHidReportMap}

theorem outcome_eq (h : Accepted hidRm map) : outcome .init hidRm = .ok (some map) := by
  obtain ⟨st, hret, -⟩ := h
  unfold outcome
  rw [hret]
  rfl

theorem blocks_ne_nil (h : Accepted hidRm map) : blocksOf hidRm ≠ [] := by
  obtain ⟨-, -, hreports⟩ := outcome_some h.outcome_eq
  obtain ⟨-, -, -, hne⟩ := h
  intro hnil
  rw [blocksOf] at hnil
  rw [hnil] at hreports
  exact hne hreports

/-- What an accepted descriptor leaves. -/
theorem spec (h : Accepted hidRm map) : complete hidRm = true ∧
    (handleCmds .start (items hidRm)).2 = true ∧ map = mapOf (blocksOf hidRm) ∧
      (handleCmds .start (items hidRm)).1.parseStep ≠ .waitEndCollection := by
  obtain ⟨hcomplete, hok, -⟩ := outcome_some h.outcome_eq
  have hall := outcome_mapOf hcomplete hok h.blocks_ne_nil
  obtain ⟨st, hret, hstep, -⟩ := h
  rw [hret] at hall
  cases hall
  exact ⟨hcomplete, hok, rfl, hstep⟩

/-- It begins with a usage page. -/
theorem first (h : Accepted hidRm map) : ∃ page rest, items hidRm = page :: rest ∧
    page.cmd = HidRm.usagePage := by
  obtain ⟨-, hok, -⟩ := h.spec
  cases hitems : items hidRm with
  | nil => exact absurd (by rw [blocksOf, hitems]; rfl) h.blocks_ne_nil
  | cons page rest =>
    rw [hitems, handleCmds_cons] at hok
    refine ⟨page, rest, rfl, ?_⟩
    by_cases hpage : (handleCmd .start page).2 = true
    · exact ((handleCmd_header hpage).1 rfl).1
    · rw [if_neg hpage] at hok
      exact absurd hok hpage

end Accepted

/-- Outside collections, only the end of one brings the parser back to where it waits for a usage
page. -/
theorem handleCmd_between_iff {st : ParserStatics} {cmd : HidReportCmd}
    (hok : (handleCmd st cmd).2 = true) (hout : (handleCmd st cmd).1.parseStep ≠ .waitEndCollection) :
    (handleCmd st cmd).1.parseStep = .waitUsagePage ↔ cmd.cmd = HidRm.endCollection := by
  obtain ⟨hpage, husage, hcollection⟩ := handleCmd_header hok
  cases hstep : st.parseStep with
  | waitUsagePage =>
    obtain ⟨htag, hnext⟩ := hpage hstep
    rw [htag, hnext]
    exact iff_of_false (by decide) (by decide)
  | waitUsage =>
    obtain ⟨htag, hnext⟩ := husage hstep
    rw [htag, hnext]
    exact iff_of_false (by decide) (by decide)
  | waitCollectionApplication => exact absurd (hcollection hstep).2.1 hout
  | waitEndCollection =>
    by_cases hopening : cmd.cmd = HidRm.collection
    · exact absurd (handleCmd_opening hstep hopening).1 hout
    by_cases hclosing : cmd.cmd = HidRm.endCollection
    · obtain ⟨hlast, hinner⟩ := handleCmd_closing hstep hclosing
      refine iff_of_true (hlast ?_) hclosing
      by_contra hdepth
      exact hout (hinner hdepth).1
    · exact absurd (handleCmd_item hstep hopening hclosing hok).1 hout

/-- The last item is the end of a collection. -/
def EndsCollection (hidRm : List UInt8) : Prop :=
  ∃ before closing, items hidRm = before ++ [closing] ∧ closing.cmd = HidRm.endCollection

/-- The parser is between collections, and not in a header, exactly behind the end of one. -/
theorem Accepted.ends_iff {hidRm : List UInt8} {map : EspHidReportMap} (h : Accepted hidRm map) :
    (handleCmds .start (items hidRm)).1.parseStep = .waitUsagePage ↔ EndsCollection hidRm := by
  obtain ⟨-, hok, -, hout⟩ := h.spec
  obtain ⟨page, rest, hitems, -⟩ := h.first
  obtain ⟨before, last, hlast⟩ : ∃ before last, items hidRm = before ++ [last] := by
    rw [hitems]
    exact ⟨_, _, (List.dropLast_append_getLast (List.cons_ne_nil page rest)).symm⟩
  have hends : EndsCollection hidRm ↔ last.cmd = HidRm.endCollection := by
    constructor
    · rintro ⟨before', closing, heq, hclosing⟩
      rw [hlast] at heq
      cases (List.append_inj' heq rfl).2
      exact hclosing
    · exact fun hclosing => ⟨before, last, hlast, hclosing⟩
  rw [hends]
  rw [hlast, handleCmds_append] at hok hout ⊢
  by_cases hbefore : (handleCmds .start before).2 = true
  · rw [if_pos hbefore, handleCmds_cons] at hok hout ⊢
    by_cases hcmd : (handleCmd (handleCmds .start before).1 last).2 = true
    · rw [if_pos hcmd] at hout ⊢
      exact handleCmd_between_iff hcmd hout
    · rw [if_neg hcmd] at hok
      exact absurd hok hcmd
  · rw [if_neg hbefore] at hok
    exact absurd hok hbefore

/-! ## The result -/

/-- The bytes of both, parsed as one descriptor, yield the entries of the first and then those of the
second, under the dominant usage of both. -/
def Composes (hidRm hidRm' : List UInt8) (map map' : EspHidReportMap) : Prop :=
  ∃ whole, outcome .init (hidRm ++ hidRm') = .ok (some whole) ∧
    whole.reportsLen = map.reportsLen + map'.reportsLen ∧
      whole.reports = map.reports ++ map'.reports ∧
        (whole.usage, whole.appearance) =
          dominantUsage (usageMask (blocksOf hidRm) ||| usageMask (blocksOf hidRm'))

section Both

variable {hidRm hidRm' : List UInt8} {map map' whole : EspHidReportMap}

/-- Where the second is accepted behind the first, the first has ended with the end of a collection. -/
theorem ends_of_whole (h : Accepted hidRm map) (h' : Accepted hidRm' map')
    (hwhole : outcome .init (hidRm ++ hidRm') = .ok (some whole)) : EndsCollection hidRm := by
  rw [← h.ends_iff]
  obtain ⟨hcomplete, hok, -, hout⟩ := h.spec
  obtain ⟨page, rest, hitems, hpage⟩ := h'.first
  obtain ⟨-, hall, -⟩ := outcome_some hwhole
  rw [(items_append hidRm' hcomplete).1, handleCmds_append, if_pos hok, hitems,
    handleCmds_cons] at hall
  have hcmd : (handleCmd (handleCmds .start (items hidRm)).1 page).2 = true := by
    by_contra hne
    rw [if_neg hne] at hall
    exact hne hall
  obtain ⟨-, husage, hcollection⟩ := handleCmd_header hcmd
  cases hstep : (handleCmds .start (items hidRm)).1.parseStep with
  | waitUsagePage => rfl
  | waitUsage =>
    have htag := (husage hstep).1
    rw [hpage] at htag
    exact absurd htag (by decide)
  | waitCollectionApplication =>
    have htag := (hcollection hstep).1.1
    rw [hpage] at htag
    exact absurd htag (by decide)
  | waitEndCollection => exact absurd hstep hout

/-- Behind the end of a collection, the second descriptor is parsed as it would be on its own. -/
theorem whole_eq (h : Accepted hidRm map) (h' : Accepted hidRm' map')
    (hroom : map.reports.length + map'.reports.length ≤ 64) (hends : EndsCollection hidRm) :
    outcome .init (hidRm ++ hidRm') = .ok (some (mapOf (blocksOf hidRm ++ blocksOf hidRm'))) := by
  rw [← h.ends_iff] at hends
  obtain ⟨hcomplete, hok, rfl, -⟩ := h.spec
  obtain ⟨hcomplete', hok', rfl, -⟩ := h'.spec
  obtain ⟨hitems, hrest⟩ := items_append hidRm' hcomplete
  have hplace : SamePlace .start (handleCmds .start (items hidRm)).1 :=
    ⟨hends.symm, fun hne => absurd rfl hne, fun hend => by cases hend⟩
  have hheld : (handleCmds .start (items hidRm)).1.held = (blocksOf hidRm).flatMap reportItems :=
    held_handleCmds (items hidRm) hok
  obtain ⟨hrun, hreported⟩ := hplace.run (items hidRm') hok' (by
    rw [hheld]
    exact hroom)
  have hblocks : blocksOf (hidRm ++ hidRm') = blocksOf hidRm ++ blocksOf hidRm' := by
    unfold blocksOf
    rw [hitems, reported_append (items hidRm) (items hidRm') hok, hreported]
  have hall : (handleCmds .start (items (hidRm ++ hidRm'))).2 = true := by
    rw [hitems, handleCmds_append, if_pos hok]
    exact hrun
  unfold outcome
  rw [outcome_mapOf (hrest.trans hcomplete') hall, hblocks]
  · rfl
  · rw [hblocks]
    exact fun hnil => h.blocks_ne_nil (List.append_eq_nil_iff.mp hnil).1

/-- **Two accepted descriptors compose exactly** where the first ends with the end of a collection.
Swapped, they yield the same entries in another order. -/
theorem composes_iff (h : Accepted hidRm map) (h' : Accepted hidRm' map')
    (hroom : map.reports.length + map'.reports.length ≤ 64) :
    (Composes hidRm hidRm' map map' ↔ EndsCollection hidRm) ∧
      ∀ whole swapped, outcome .init (hidRm ++ hidRm') = .ok (some whole) →
        outcome .init (hidRm' ++ hidRm) = .ok (some swapped) →
          swapped.usage = whole.usage ∧ swapped.appearance = whole.appearance ∧
            swapped.reports.Perm whole.reports := by
  obtain ⟨-, -, hmap, -⟩ := h.spec
  obtain ⟨-, -, hmap', -⟩ := h'.spec
  constructor
  · constructor
    · rintro ⟨whole, hwhole, -⟩
      exact ends_of_whole h h' hwhole
    · intro hends
      refine ⟨_, whole_eq h h' hroom hends, ?_, ?_, ?_⟩
      · rw [hmap, hmap']
        unfold mapOf
        rw [List.flatMap_append, List.length_append]
        exact UInt8.ofNat_add _ _
      · rw [hmap, hmap']
        exact List.flatMap_append
      · rw [← usageMask_append]
        rfl
  · intro whole swapped hwhole hswapped
    have hends := ends_of_whole h h' hwhole
    have hends' := ends_of_whole h' h hswapped
    rw [whole_eq h h' hroom hends] at hwhole
    rw [whole_eq h' h (by omega) hends'] at hswapped
    cases hwhole
    cases hswapped
    have husage : usageMask (blocksOf hidRm' ++ blocksOf hidRm) =
        usageMask (blocksOf hidRm ++ blocksOf hidRm') := by
      rw [usageMask_append, usageMask_append, UInt8.or_comm]
    unfold mapOf
    rw [husage]
    exact ⟨rfl, rfl, List.perm_append_comm.flatMap_right reportItems⟩

end Both

theorem accepted_keyboardRm : ∃ map, Accepted keyboardRm map ∧ map.reports.length = 2 :=
  ⟨_, ⟨_, rfl, by decide, by decide⟩, rfl⟩

/-- Two keyboard collections. -/
theorem composes_keyboardRm : ∃ map, Composes keyboardRm keyboardRm map map := by
  obtain ⟨map, haccepted, hlen⟩ := accepted_keyboardRm
  refine ⟨map, (composes_iff haccepted haccepted (by omega)).1.mpr ?_⟩
  exact ⟨(items keyboardRm).dropLast, ⟨HidRm.endCollection, 0, 0⟩, rfl, rfl⟩

/-- Behind a lone usage page, the keyboard collection is turned down. -/
theorem not_composes_trailingRm : ∃ map map', Accepted trailingRm map ∧ Accepted keyboardRm map' ∧
    map.reports.length + map'.reports.length ≤ 64 ∧ outcome .init (trailingRm ++ keyboardRm) = .ok none ∧
      ¬Composes trailingRm keyboardRm map map' := by
  refine ⟨_, _, ⟨_, rfl, by decide, by decide⟩, ⟨_, rfl, by decide, by decide⟩, by decide, rfl, ?_⟩
  rintro ⟨whole, hwhole, -⟩
  have hnull : outcome .init (trailingRm ++ keyboardRm) = .ok none := rfl
  rw [hnull] at hwhole
  cases hwhole

end BleKbdHost.Hid
