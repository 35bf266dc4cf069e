import BleKbdHost.Hid.ParserSafety

/-!
# What one parse leaves for the next

The parser statics survive a call. Whether a later call notices the earlier ones depends on two of
them only: the step must be back at `PARSE_WAIT_USAGE_PAGE` and the accumulator must be gone. The
remaining statics are dead there: they are written again before they are read (`Agree`).
-/

namespace BleKbdHost.Hid

/-- What a caller sees of one call: a fault, `NULL`, or the map. -/
def outcome (st : ParserStatics) (hidRm : List UInt8) : Except Fault (Option EspHidReportMap) :=
  (espHidParseReportMap st hidRm).map Prod.fst

/-- The statics after calls on the given descriptors, one after the other; `none` once a call
faults. -/
def parseAll (st : ParserStatics) : List (List UInt8) → Option ParserStatics
  | [] => some st
  | hidRm :: rest =>
    match espHidParseReportMap st hidRm with
    | .ok (_, st) => parseAll st rest
    | .error _ => none

/-! ## Statics that later items cannot tell apart -/

/-- Two statics between which the item machine sees no difference: they agree on what is read at
their step before it is written. -/
structure Agree (a b : ParserStatics) : Prop where
  parseStep : a.parseStep = b.parseStep
  newMap : a.newMap = b.newMap
  tempHidReportMap : a.tempHidReportMap = b.tempHidReportMap
  header : a.parseStep ≠ .waitUsagePage →
    a.reportParams = b.reportParams ∧ a.reportSize = b.reportSize ∧ a.reportCount = b.reportCount
  depth : a.parseStep = .waitEndCollection → a.collectionDepth = b.collectionDepth

theorem Agree.refl (a : ParserStatics) : Agree a a :=
  ⟨rfl, rfl, rfl, fun _ => ⟨rfl, rfl, rfl⟩, fun _ => rfl⟩

/-- Inside a collection every static is live. -/
theorem Agree.eq {a b : ParserStatics} (h : Agree a b) (hstep : a.parseStep = .waitEndCollection) :
    a = b := by
  obtain ⟨hparams, hsize, hcount⟩ := h.header (by rw [hstep]; decide)
  rcases a with ⟨⟩
  rcases b with ⟨⟩
  simp only [ParserStatics.mk.injEq]
  exact ⟨h.parseStep, h.depth hstep, hparams, hsize, hcount, h.newMap, h.tempHidReportMap⟩

/-- One item keeps agreeing statics in agreement and gets the same answer. -/
theorem Agree.handleCmd {a b : ParserStatics} (h : Agree a b) (cmd : HidReportCmd) :
    (handleCmd a cmd).2 = (handleCmd b cmd).2 ∧
      Agree (Hid.handleCmd a cmd).1 (Hid.handleCmd b cmd).1 := by
  cases hstep : a.parseStep with
  | waitUsagePage =>
    have hstep' : b.parseStep = .waitUsagePage := h.parseStep.symm.trans hstep
    simp only [Hid.handleCmd, hstep, hstep']
    split
    · exact ⟨rfl, h⟩
    · exact ⟨rfl, rfl, h.newMap, h.tempHidReportMap, fun _ => ⟨rfl, rfl, rfl⟩, (by simp)⟩
  | waitUsage =>
    have hstep' : b.parseStep = .waitUsage := h.parseStep.symm.trans hstep
    obtain ⟨hparams, hsize, hcount⟩ := h.header (by rw [hstep]; decide)
    simp only [Hid.handleCmd, hstep, hstep', hparams]
    split
    · exact ⟨rfl, rfl, h.newMap, h.tempHidReportMap, fun hne => absurd rfl hne, (by simp)⟩
    · exact ⟨rfl, rfl, h.newMap, h.tempHidReportMap, fun _ => ⟨rfl, hsize, hcount⟩, (by simp)⟩
  | waitCollectionApplication =>
    have hstep' : b.parseStep = .waitCollectionApplication := h.parseStep.symm.trans hstep
    obtain ⟨hparams, hsize, hcount⟩ := h.header (by rw [hstep]; decide)
    simp only [Hid.handleCmd, hstep, hstep', hparams]
    split
    · exact ⟨rfl, rfl, h.newMap, h.tempHidReportMap, fun hne => absurd rfl hne, (by simp)⟩
    · exact ⟨rfl, rfl, h.newMap, h.tempHidReportMap, fun _ => ⟨rfl, hsize, hcount⟩, fun _ => rfl⟩
  | waitEndCollection =>
    rw [h.eq hstep]
    exact ⟨rfl, Agree.refl _⟩

/-- A whole run keeps agreeing statics in agreement and gets the same answer. -/
theorem Agree.handleCmds : ∀ (cmds : List HidReportCmd) {a b : ParserStatics}, Agree a b →
    (handleCmds a cmds).2 = (handleCmds b cmds).2 ∧
      Agree (Hid.handleCmds a cmds).1 (Hid.handleCmds b cmds).1 := by
  intro cmds
  induction cmds with
  | nil => exact fun h => ⟨rfl, h⟩
  | cons cmd cmds ih =>
    intro a b h
    obtain ⟨hret, hagree⟩ := h.handleCmd cmd
    rw [handleCmds_cons, handleCmds_cons, hret]
    split
    · exact ih hagree
    · exact ⟨hret, hagree⟩

theorem Agree.finishMap {a b : ParserStatics} (h : Agree a b) :
    (finishMap a).map Prod.fst = (finishMap b).map Prod.fst := by
  unfold Hid.finishMap
  rw [h.tempHidReportMap]
  cases b.tempHidReportMap <;> rfl

/-- Agreeing statics give every descriptor the same outcome. -/
theorem Agree.outcome {a b : ParserStatics} (h : Agree a b) (hidRm : List UInt8) :
    outcome a hidRm = outcome b hidRm := by
  have hstart : Agree { a with newMap := true } { b with newMap := true } :=
    ⟨h.parseStep, rfl, h.tempHidReportMap, h.header, h.depth⟩
  obtain ⟨hret, hagree⟩ := Agree.handleCmds (items hidRm) hstart
  rcases ha : Hid.handleCmds { a with newMap := true } (items hidRm) with ⟨a', oka⟩
  rcases hb : Hid.handleCmds { b with newMap := true } (items hidRm) with ⟨b', okb⟩
  rw [ha, hb] at hret hagree
  obtain rfl : oka = okb := hret
  unfold Hid.outcome
  rw [espHidParseReportMap_eq ha, espHidParseReportMap_eq hb]
  split
  · exact hagree.finishMap
  · rfl

/-! ## Telling statics apart -/

/-- The final block never returns `NULL`. -/
theorem finishMap_ne_null (st : ParserStatics) : (finishMap st).map Prod.fst ≠ .ok none := by
  unfold finishMap
  cases st.tempHidReportMap <;> exact nofun

/-- A descriptor whose items are all accepted does not come back as `NULL`. -/
theorem outcome_ne_null {st : ParserStatics} {hidRm : List UInt8} (hcomplete : complete hidRm = true)
    (hok : (handleCmds { st with newMap := true } (items hidRm)).2 = true) :
    outcome st hidRm ≠ .ok none := by
  have hrun : handleCmds { st with newMap := true } (items hidRm) =
    ((handleCmds { st with newMap := true } (items hidRm)).1, true) := Prod.ext rfl hok
  unfold outcome
  rw [espHidParseReportMap_eq hrun, hcomplete]
  exact finishMap_ne_null _

/-- A lone usage item, and a lone collection item: the parser refuses both from its initial statics
but not in the middle of a collection header or of a collection. -/
theorem parseStep_of_outcome_eq {st : ParserStatics}
    (husage : outcome st [0x08] = outcome .init [0x08])
    (hcollection : outcome st [0xA1, 0x01] = outcome .init [0xA1, 0x01]) :
    st.parseStep = .waitUsagePage := by
  have hnull : outcome .init [0x08] = .ok none := rfl
  have hnull' : outcome .init [0xA1, 0x01] = .ok none := rfl
  rw [hnull] at husage
  rw [hnull'] at hcollection
  have hitems : items [0x08] = [⟨0x08, 0, 0⟩] := rfl
  have hitems' : items [0xA1, 0x01] = [⟨0xA0, 1, 1⟩] := rfl
  cases hstep : st.parseStep with
  | waitUsagePage => rfl
  | waitUsage =>
    refine absurd husage (outcome_ne_null rfl ?_)
    rw [hitems, handleCmds_cons]
    simp [handleCmd, hstep, HidRm.usage]
  | waitCollectionApplication =>
    refine absurd hcollection (outcome_ne_null rfl ?_)
    rw [hitems', handleCmds_cons]
    simp [handleCmd, hstep, HidRm.collection]
  | waitEndCollection =>
    refine absurd husage (outcome_ne_null rfl ?_)
    rw [hitems, handleCmds_cons]
    simp [handleCmd, hstep, HidRm.usage, HidRm.reportId, HidRm.usagePage]

/-- The empty descriptor shows an accumulator that is still there. -/
theorem tempHidReportMap_of_outcome_eq {st : ParserStatics}
    (h : outcome st [] = outcome .init []) : st.tempHidReportMap = none := by
  have hfault : outcome .init [] = .error .nullDeref := rfl
  have hfinish : outcome st [] = (finishMap { st with newMap := true }).map Prod.fst := rfl
  rw [hfault, hfinish] at h
  cases htemp : st.tempHidReportMap with
  | none => rfl
  | some map =>
    simp only [finishMap, htemp, Except.map] at h
    cases h

/-- Nothing of an earlier call is left that a later one reads. -/
structure ParserStatics.Clean (st : ParserStatics) : Prop where
  parseStep : st.parseStep = .waitUsagePage
  tempHidReportMap : st.tempHidReportMap = none

/-- Clean statics are those that no descriptor tells from the statics as the program starts. -/
theorem outcome_eq_init_iff (st : ParserStatics) :
    (∀ hidRm, outcome st hidRm = outcome .init hidRm) ↔ st.Clean := by
  constructor
  · intro h
    exact ⟨parseStep_of_outcome_eq (h _) (h _), tempHidReportMap_of_outcome_eq (h _)⟩
  · rintro ⟨hstep, htemp⟩ hidRm
    have hagree : Agree { st with newMap := false } .init :=
      ⟨hstep, rfl, htemp, fun hne => absurd hstep hne, fun hend => by rw [hstep] at hend; cases hend⟩
    have hnew : outcome st hidRm = outcome { st with newMap := false } hidRm := rfl
    rw [hnew]
    exact hagree.outcome hidRm

/-- **Earlier calls are invisible exactly** when they leave the step at `PARSE_WAIT_USAGE_PAGE` and
no accumulator behind. -/
theorem outcome_history_iff (history : List (List UInt8)) {st : ParserStatics}
    (_ : parseAll .init history = some st) :
    (∀ hidRm, outcome st hidRm = outcome .init hidRm) ↔
      st.parseStep = .waitUsagePage ∧ st.tempHidReportMap = none :=
  (outcome_eq_init_iff st).trans ⟨fun h => ⟨h.parseStep, h.tempHidReportMap⟩, fun h => ⟨h.1, h.2⟩⟩

/-- A keyboard collection with one 8 byte input report. -/
def keyboardRm : List UInt8 :=
  [0x05, 0x01, 0x09, 0x06, 0xA1, 0x01, 0x75, 0x08, 0x95, 0x08, 0x81, 0x02, 0xC0]

/-- After a whole keyboard map every descriptor fares as it would first. -/
theorem outcome_history_keyboardRm :
    ∃ st, parseAll .init [keyboardRm] = some st ∧
      ∀ hidRm, outcome st hidRm = outcome .init hidRm :=
  ⟨_, rfl, (outcome_history_iff [keyboardRm] rfl).mpr ⟨rfl, rfl⟩⟩

/-- After a descriptor that is cut off inside its usage item, the keyboard map is turned down. -/
theorem outcome_depends_on_history :
    ¬∀ history st, parseAll .init history = some st →
      ∀ hidRm, outcome st hidRm = outcome .init hidRm := by
  intro h
  have hsame := h [[0x05, 0x01, 0x09]] _ rfl keyboardRm
  have hnull : outcome { ParserStatics.init with
      parseStep := .waitUsage, reportParams := { usagePage := 1 }, newMap := true } keyboardRm =
    .ok none := rfl
  have hmap : ∃ map, outcome .init keyboardRm = .ok (some map) := ⟨_, rfl⟩
  obtain ⟨map, hmap⟩ := hmap
  rw [hmap] at hsame
  exact absurd (hnull.symm.trans hsame) (by simp)

end BleKbdHost.Hid
