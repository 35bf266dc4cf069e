import BleKbdHost.Hid.Parser

/-!
# The parser over the items of a descriptor

`esp_hid_parse_report_map` interleaves cutting items off the bytes with running the item machine.
Here the two are taken apart: `items` is what `parse_cmd` yields from the descriptor, `handleCmds`
runs `handle_cmd` over a list of items, and `espHidParseReportMap_eq` puts them back together.
`reported` lists the parameter blocks a run hands to `handle_report`, and `Recorded` says what the
accumulator holds in terms of that list.
-/

namespace BleKbdHost.Hid

/-! ## Items -/

/-- The items `parse_cmd` yields from byte `index` on; the flag is false where it refuses one. -/
def itemsFrom (hidRm : List UInt8) : Nat → Nat → List HidReportCmd × Bool
  | 0, _ => ([], true)
  | fuel + 1, index =>
    if index < hidRm.length then
      match parseCmd hidRm index with
      | .ok (.item cmd size) =>
        (cmd :: (itemsFrom hidRm fuel (index + size)).1, (itemsFrom hidRm fuel (index + size)).2)
      | _ => ([], false)
    else
      ([], true)

/-- The items of a descriptor. -/
def items (hidRm : List UInt8) : List HidReportCmd := (itemsFrom hidRm hidRm.length 0).1

/-- The bytes split into items without a rest. -/
def complete (hidRm : List UInt8) : Bool := (itemsFrom hidRm hidRm.length 0).2

/-- `handle_cmd` on each item until one is refused. -/
def handleCmds (st : ParserStatics) : List HidReportCmd → ParserStatics × Bool
  | [] => (st, true)
  | cmd :: cmds =>
    match handleCmd st cmd with
    | (st, true) => handleCmds st cmds
    | (st, false) => (st, false)

@[simp] theorem handleCmds_nil (st : ParserStatics) : handleCmds st [] = (st, true) := rfl

theorem handleCmds_cons (st : ParserStatics) (cmd : HidReportCmd) (cmds : List HidReportCmd) :
    handleCmds st (cmd :: cmds) =
      if (handleCmd st cmd).2 then handleCmds (handleCmd st cmd).1 cmds
      else handleCmd st cmd := by
  rcases h : handleCmd st cmd with ⟨st', ok⟩
  cases ok <;> simp [handleCmds, h]

/-- The number of rounds does not matter once it covers the bytes that are left. -/
theorem itemsFrom_fuel (hidRm : List UInt8) : ∀ (fuel fuel' index : Nat),
    hidRm.length ≤ index + fuel → hidRm.length ≤ index + fuel' →
      itemsFrom hidRm fuel index = itemsFrom hidRm fuel' index := by
  intro fuel
  induction fuel with
  | zero =>
    intro fuel' index h _
    cases fuel' with
    | zero => rfl
    | succ fuel' =>
      have hout : ¬index < hidRm.length := by omega
      simp only [itemsFrom, hout, ↓reduceIte]
  | succ fuel ih =>
    intro fuel' index h h'
    cases fuel' with
    | zero =>
      have hout : ¬index < hidRm.length := by omega
      simp only [itemsFrom, hout, ↓reduceIte]
    | succ fuel' =>
      simp only [itemsFrom]
      by_cases hin : index < hidRm.length
      · rcases parseCmd_spec hin with ⟨hfail, -⟩ | ⟨cmd, size, hitem, hpos, hle⟩
        · simp only [hfail]
        · simp only [hitem]
          rw [ih fuel' (index + size) (by omega) (by omega)]
      · simp only [hin, ↓reduceIte]

/-- **The item loop** never faults: it runs the item machine over the items of the bytes that are
left, and ends early where an item is cut off or refused. -/
theorem parseLoop_eq (hidRm : List UInt8) : ∀ (fuel index : Nat) (st : ParserStatics),
    parseLoop hidRm fuel index st =
      .ok ((handleCmds st (itemsFrom hidRm fuel index).1).2 && (itemsFrom hidRm fuel index).2,
        (handleCmds st (itemsFrom hidRm fuel index).1).1) := by
  intro fuel
  induction fuel with
  | zero => intro index st; rfl
  | succ fuel ih =>
    intro index st
    simp only [parseLoop, itemsFrom]
    by_cases hin : index < hidRm.length
    · simp only [hin, ↓reduceIte, bind, Except.bind]
      rcases parseCmd_spec hin with ⟨hfail, -⟩ | ⟨cmd, size, hitem, -, -⟩
      · simp [hfail]
      · simp only [hitem, handleCmds_cons]
        rcases hcmd : handleCmd st cmd with ⟨st', ok⟩
        cases ok
        · simp
        · simp [ih]
    · simp [hin]

/-- **One call**, in terms of the items of the descriptor. -/
theorem espHidParseReportMap_eq {st st' : ParserStatics} {hidRm : List UInt8} {ok : Bool}
    (hrun : handleCmds { st with newMap := true } (items hidRm) = (st', ok)) :
    espHidParseReportMap st hidRm =
      if ok && complete hidRm then finishMap st' else .ok (none, st') := by
  unfold items at hrun
  unfold espHidParseReportMap complete
  rw [parseLoop_eq, hrun]
  cases ok <;> cases (itemsFrom hidRm hidRm.length 0).2 <;> rfl

/-! ## What reaches `handle_report` -/

/-- The item makes `handle_cmd` call `handle_report`: it closes the application collection or
gives it another report id, and the totals amount to full bytes. -/
def callsHandleReport (st : ParserStatics) (cmd : HidReportCmd) : Bool :=
  st.parseStep == .waitEndCollection && st.reportParams.aligned &&
    (cmd.cmd == HidRm.reportId && st.reportParams.reportId != 0 &&
        st.reportParams.reportId.toUInt32 != cmd.value ||
      cmd.cmd == HidRm.endCollection && st.collectionDepth == 1)

/-- The parameter blocks handed to `handle_report` while the item machine runs over the items. -/
def reported (st : ParserStatics) : List HidReportCmd → List HidReportParams
  | [] => []
  | cmd :: cmds =>
    (if callsHandleReport st cmd then [st.reportParams] else []) ++
      (if (handleCmd st cmd).2 then reported (handleCmd st cmd).1 cmds else [])

theorem addReports_ok {map map' : TempHidReportMap} : ∀ {its : List EspHidReportItem},
    addReports map its = (map', true) →
      map'.reports = map.reports ++ its ∧ map'.usageMask = map.usageMask := by
  intro its
  induction its generalizing map with
  | nil =>
    intro h
    cases h
    exact ⟨(List.append_nil _).symm, rfl⟩
  | cons item its ih =>
    intro h
    simp only [addReports] at h
    cases hadd : addReport map item with
    | none => simp [hadd] at h
    | some map₁ =>
      simp only [hadd] at h
      obtain ⟨hreports, hmask⟩ := ih h
      unfold addReport at hadd
      split at hadd
      · cases hadd
        exact ⟨by rw [hreports]; simp, hmask⟩
      · cases hadd

/-- A successful `handle_report` appends the report's entries to the accumulator, which it clears
first when it is the first report of the call. -/
theorem handleReport_ok {temp : Option TempHidReportMap} {report : HidReportParams} {first : Bool}
    {map : TempHidReportMap} (h : handleReport temp report first = (map, true)) :
    map.reports = (if first then [] else (temp.getD .empty).reports) ++ reportItems report ∧
      map.usageMask = (if first then 0 else (temp.getD .empty).usageMask) |||
        (reportUsage report).value := by
  unfold handleReport at h
  obtain ⟨hreports, hmask⟩ := addReports_ok h
  rw [hreports, hmask]
  cases first <;> exact ⟨rfl, rfl⟩

/-- Where `handle_cmd` does not call `handle_report`, it leaves the accumulator and the new-map
flag alone. -/
theorem handleCmd_of_not_calls {st : ParserStatics} {cmd : HidReportCmd}
    (h : callsHandleReport st cmd = false) :
    (handleCmd st cmd).1.tempHidReportMap = st.tempHidReportMap ∧
      (handleCmd st cmd).1.newMap = st.newMap := by
  unfold handleCmd
  split
  · split <;> exact ⟨rfl, rfl⟩
  · split <;> exact ⟨rfl, rfl⟩
  · split <;> exact ⟨rfl, rfl⟩
  · rename_i hstep
    simp only [callsHandleReport, hstep, beq_self_eq_true, Bool.true_and] at h
    split
    · rename_i hid
      rw [handleReportId, if_neg]
      · exact ⟨rfl, rfl⟩
      · rintro ⟨hne, hchange, haligned⟩
        simp [haligned, hid, hne, hchange] at h
    · repeat' split
      all_goals first
        | exact ⟨rfl, rfl⟩
        | skip
      rename_i hend
      unfold handleEndCollection
      simp only
      split
      · rename_i hdepth
        have hone : st.collectionDepth = 1 := by
          have := congrArg (· + 1) hdepth
          simpa using this
        split
        · rename_i haligned
          simp [haligned, hend, hone] at h
        · exact ⟨rfl, rfl⟩
      · exact ⟨rfl, rfl⟩

/-- Where `handle_cmd` calls `handle_report`, it passes its outcome on; after a success the next
report is no longer the first one. -/
theorem handleCmd_of_calls {st : ParserStatics} {cmd : HidReportCmd}
    (h : callsHandleReport st cmd = true) :
    (handleCmd st cmd).2 = (handleReport st.tempHidReportMap st.reportParams st.newMap).2 ∧
      (handleCmd st cmd).1.tempHidReportMap =
        some (handleReport st.tempHidReportMap st.reportParams st.newMap).1 ∧
      ((handleCmd st cmd).2 = true → (handleCmd st cmd).1.newMap = false) := by
  simp only [callsHandleReport, Bool.and_eq_true, Bool.or_eq_true, beq_iff_eq, bne_iff_ne] at h
  obtain ⟨⟨hstep, haligned⟩, ⟨⟨hid, hne⟩, hchange⟩ | ⟨hend, hdepth⟩⟩ := h
  · simp only [handleCmd, hstep, hid, ↓reduceIte, handleReportId]
    rw [if_pos ⟨hne, hchange, haligned⟩]
    rcases hrep : handleReport st.tempHidReportMap st.reportParams st.newMap with ⟨map, ok⟩
    cases ok <;> simp
  · have htag : cmd.cmd = 0xc0 := hend
    simp only [handleCmd, hstep, htag, HidRm.reportId, HidRm.usagePage, HidRm.usage,
      HidRm.reportSize, HidRm.reportCount, HidRm.input, HidRm.output, HidRm.feature,
      HidRm.collection, HidRm.endCollection, handleEndCollection, hdepth, haligned]
    rcases hrep : handleReport st.tempHidReportMap st.reportParams st.newMap with ⟨map, ok⟩
    cases ok <;> simp

/-! ## What the accumulator holds -/

/-- The accumulator after the reports `ps` of this call, when the call began with `temp`. -/
structure Recorded (temp : Option TempHidReportMap) (ps : List HidReportParams)
    (st : ParserStatics) : Prop where
  untouched : ps = [] → st.newMap = true ∧ st.tempHidReportMap = temp
  written : ps ≠ [] → st.newMap = false ∧ ∃ map, st.tempHidReportMap = some map ∧
    map.reports = ps.flatMap reportItems ∧
    map.usageMask = ps.foldl (fun mask p => mask ||| (reportUsage p).value) 0

theorem Recorded.start (st : ParserStatics) :
    Recorded st.tempHidReportMap [] { st with newMap := true } :=
  ⟨fun _ => ⟨rfl, rfl⟩, fun h => absurd rfl h⟩

/-- One accepted item. -/
theorem Recorded.handleCmd {temp : Option TempHidReportMap} {ps : List HidReportParams}
    {st : ParserStatics} (h : Recorded temp ps st) {cmd : HidReportCmd}
    (hok : (handleCmd st cmd).2 = true) :
    Recorded temp (ps ++ if callsHandleReport st cmd then [st.reportParams] else [])
      (Hid.handleCmd st cmd).1 := by
  cases hcalls : callsHandleReport st cmd with
  | false =>
    obtain ⟨htemp, hnew⟩ := handleCmd_of_not_calls hcalls
    simp only [Bool.false_eq_true, ↓reduceIte, List.append_nil]
    exact ⟨fun hps => by rw [hnew, htemp]; exact h.untouched hps,
      fun hps => by rw [hnew, htemp]; exact h.written hps⟩
  | true =>
    obtain ⟨hret, htemp, hnew⟩ := handleCmd_of_calls hcalls
    rw [hok] at hret
    have hrep : handleReport st.tempHidReportMap st.reportParams st.newMap =
        ((handleReport st.tempHidReportMap st.reportParams st.newMap).1, true) :=
      Prod.ext rfl hret.symm
    obtain ⟨hreports, hmask⟩ := handleReport_ok hrep
    refine ⟨fun hps => absurd hps (by simp), fun _ => ⟨hnew hok, _, htemp, ?_⟩⟩
    simp only [↓reduceIte, List.flatMap_append, List.flatMap_singleton, List.foldl_append,
      List.foldl_cons, List.foldl_nil]
    rw [hreports, hmask]
    by_cases hps : ps = []
    · simp [(h.untouched hps).1, hps]
    · obtain ⟨hfirst, map, hmap, hrs, hms⟩ := h.written hps
      simp [hfirst, hmap, hrs, hms]

/-- A whole accepted run over a list of items. -/
theorem Recorded.handleCmds {temp : Option TempHidReportMap} :
    ∀ {cmds : List HidReportCmd} {ps : List HidReportParams} {st : ParserStatics},
      Recorded temp ps st → (handleCmds st cmds).2 = true →
        Recorded temp (ps ++ reported st cmds) (Hid.handleCmds st cmds).1 := by
  intro cmds
  induction cmds with
  | nil => intro ps st h _; simpa [reported] using h
  | cons cmd cmds ih =>
    intro ps st h hok
    rw [handleCmds_cons] at hok ⊢
    by_cases hcmd : (Hid.handleCmd st cmd).2 = true
    · simp only [hcmd, ↓reduceIte] at hok ⊢
      simpa [reported, hcmd, List.append_assoc] using ih (h.handleCmd hcmd) hok
    · rw [if_neg hcmd] at hok
      exact absurd hok hcmd

end BleKbdHost.Hid
