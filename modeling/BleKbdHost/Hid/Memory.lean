import BleKbdHost.Hid.ParserHistory
import BleKbdHost.Mem.Ledger

/-!
# The memory of the report map parser

`esp_hid_parse_report_map` with its allocations: the item that `parse_cmd` allocates, the accumulator
and the map it returns. Any of them may fail. `HeapStatics` has beside the statics the block that
`s_temp_hid_report_map` points to.
-/

namespace BleKbdHost.Hid

open Mem

/-- The blocks of the parser's heap. -/
inductive Block where
  /-- `hid_report_cmd_t`. -/
  | cmd
  /-- `temp_hid_report_map_t`. -/
  | temp
  /-- `esp_hid_report_map_t`. -/
  | map
  /-- Its array of `esp_hid_report_item_t`. -/
  | reports
  deriving DecidableEq, Repr

abbrev Ptr := Handle Block

abbrev HeapM (α : Type) := Script Block Fault α

/-- The statics; `temp` is the pointer `s_temp_hid_report_map`, and `tempHidReportMap` what it points
to. -/
structure HeapStatics extends ParserStatics where
  temp : Option Ptr := none

/-- What `esp_hid_parse_report_map` returns. -/
structure MapPtr where
  map : EspHidReportMap
  out : Ptr
  reports : Ptr

namespace Heap

/-- The result of a function that may fault. -/
def lift {α : Type} : Except Fault α → HeapM α
  | .ok a => pure a
  | .error e => Script.fault e

/-- `parse_cmd`: its result with the block that the item is in. -/
def parseCmd (data : List UInt8) (index : Nat) : HeapM (CmdResult × Option Ptr) :=
  if index = data.length then pure (.atEnd, none)
  else do
    match ← Script.take .cmd with
    | none => pure (.failed, none)
    | some p =>
      match ← lift (Hid.parseCmd data index) with
      | .failed =>
        Script.drop (some p)
        pure (.failed, none)
      | r => pure (r, some p)

/-- `handle_report`, on the accumulator of the statics. -/
def handleReport (st : HeapStatics) : HeapM (HeapStatics × Bool) := do
  match st.temp with
  | some p =>
    Script.use p
    let (map, ok) := Hid.handleReport st.tempHidReportMap st.reportParams st.newMap
    pure ({ st with tempHidReportMap := some map }, ok)
  | none =>
    match ← Script.take .temp with
    | none => pure (st, false)
    | some p =>
      let (map, ok) := Hid.handleReport none st.reportParams st.newMap
      pure ({ st with temp := some p, tempHidReportMap := some map }, ok)

/-- The `PARSE_WAIT_END_COLLECTION` case on a report id item. -/
def handleReportId (st : HeapStatics) (value : UInt32) : HeapM (HeapStatics × Bool) := do
  let p := st.reportParams
  if p.reportId ≠ 0 ∧ p.reportId.toUInt32 ≠ value ∧ p.aligned then
    let (st, ok) ← handleReport st
    pure (if ok then
      ({ st with
        newMap := false
        reportParams := { p with
          inputLen := 0
          outputLen := 0
          featureLen := 0
          usage := p.innerUsage
          usagePage := p.innerUsagePage
          reportId := value.toUInt8 } }, true)
    else ({ st with parseStep := .waitUsagePage }, false))
  else pure ({ st with reportParams := { p with reportId := value.toUInt8 } }, true)

/-- The `PARSE_WAIT_END_COLLECTION` case on an end collection item. -/
def handleEndCollection (st : HeapStatics) : HeapM (HeapStatics × Bool) := do
  let st := { st with collectionDepth := st.collectionDepth - 1 }
  if st.collectionDepth = 0 then
    if st.reportParams.aligned then
      let (st, ok) ← handleReport st
      pure (if ok then ({ st with newMap := false, parseStep := .waitUsagePage }, true)
      else ({ st with parseStep := .waitUsagePage }, false))
    else pure ({ st with parseStep := .waitUsagePage }, true)
  else pure (st, true)

/-- `handle_cmd`. The other cases neither allocate nor look at the accumulator. -/
def handleCmd (st : HeapStatics) (cmd : HidReportCmd) : HeapM (HeapStatics × Bool) :=
  if st.parseStep = .waitEndCollection ∧ cmd.cmd = HidRm.reportId then handleReportId st cmd.value
  else if st.parseStep = .waitEndCollection ∧ cmd.cmd = HidRm.endCollection then
    handleEndCollection st
  else
    pure ({ st with toParserStatics := (Hid.handleCmd st.toParserStatics cmd).1 },
      (Hid.handleCmd st.toParserStatics cmd).2)

/-- The item loop of `esp_hid_parse_report_map`. -/
def parseLoop (hidRm : List UInt8) : Nat → Nat → HeapStatics → HeapM (Bool × HeapStatics)
  | 0, _, st => pure (true, st)
  | fuel + 1, index, st =>
    if index < hidRm.length then do
      match ← parseCmd hidRm index with
      | (.atEnd, _) => Script.fault .uninitialised
      | (.failed, _) => pure (false, st)
      | (.item cmd size, p) =>
        let (st, ok) ← handleCmd st cmd
        Script.drop p
        if ok then parseLoop hidRm fuel (index + size) st else pure (false, st)
    else pure (true, st)

/-- Frees the accumulator. -/
def freeTemp (st : HeapStatics) : HeapM HeapStatics := do
  Script.drop st.temp
  pure { st with temp := none, tempHidReportMap := none }

/-- The final block of `esp_hid_parse_report_map`. -/
def finishMap (st : HeapStatics) : HeapM (Option MapPtr × HeapStatics) := do
  match ← Script.take .map with
  | none =>
    let st ← freeTemp st
    pure (none, st)
  | some out =>
    match st.temp, st.tempHidReportMap with
    | some p, some map =>
      Script.use p
      match ← Script.take .reports with
      | none =>
        Script.drop (some out)
        let st ← freeTemp st
        pure (none, st)
      | some reports =>
        Script.use p
        let st ← freeTemp st
        pure (some ⟨outMap map, out, reports⟩, st)
    | _, _ => Script.fault .nullDeref

/-- `esp_hid_parse_report_map`. -/
def espHidParseReportMap (st : HeapStatics) (hidRm : List UInt8) :
    HeapM (Option MapPtr × HeapStatics) := do
  match ← parseLoop hidRm hidRm.length 0 { st with newMap := true } with
  | (false, st) => pure (none, st)
  | (true, st) => finishMap st

/-- `esp_hid_free_report_map`. -/
def espHidFreeReportMap : Option MapPtr → HeapM Unit
  | none => pure ()
  | some map => do
    Script.drop (some map.reports)
    Script.drop (some map.out)

/-! ## What is owned -/

/-- The pointer is `NULL` exactly where there is no accumulator. -/
def Coherent (st : HeapStatics) : Prop := st.temp.isSome = st.tempHidReportMap.isSome

theorem Coherent.eq_none {st : HeapStatics} (h : Coherent st) (htemp : st.temp = none) :
    st.tempHidReportMap = none := by
  have hnone : st.tempHidReportMap.isSome = false := h.symm.trans (congrArg Option.isSome htemp)
  cases hmap : st.tempHidReportMap with
  | none => rfl
  | some map => simp [hmap] at hnone

/-- The blocks of a map. -/
def blocks : Option MapPtr → Multiset Ptr
  | none => 0
  | some map => {map.reports, map.out}

variable {G : (ℕ → Bool) → Prop} {st : HeapStatics}

/-- A step of the parser, from the statics `st` and with other blocks around: it does what `pure` says,
or a request was refused and it returns `-1`. -/
def Steps (G : (ℕ → Bool) → Prop) (st : HeapStatics) (t : HeapM (HeapStatics × Bool))
    (pure : ParserStatics × Bool) : Prop :=
  ∀ rest : Multiset Ptr, Spec G (held st.temp + rest) t
    (fun r own => own = held r.1.temp + rest ∧ Coherent r.1 ∧
      ((r.1.toParserStatics, r.2) = pure ∨ MayRefuse G ∧ r.2 = false)) fun _ => False

theorem Steps.pure {st' : HeapStatics} {ok : Bool} (htemp : st'.temp = st.temp) (h : Coherent st') :
    Steps G st (Pure.pure (st', ok)) (st'.toParserStatics, ok) :=
  fun rest => Spec.pure ⟨by rw [htemp], h, .inl rfl⟩

/-- `handle_report` on the statics, where its allocation succeeds. -/
def reportedIn (st : ParserStatics) : ParserStatics × Bool :=
  let (map, ok) := Hid.handleReport st.tempHidReportMap st.reportParams st.newMap
  ({ st with tempHidReportMap := some map }, ok)

theorem steps_handleReport (h : Coherent st) :
    Steps G st (handleReport st) (reportedIn st.toParserStatics) := by
  intro rest
  unfold handleReport
  cases htemp : st.temp with
  | some p =>
    refine Spec.bind (Spec.use (Q := fun _ own => own = held (some p) + rest)
      (Multiset.mem_add.mpr (.inl (Multiset.mem_singleton_self p))) rfl) fun _ own hown => ?_
    subst hown
    exact Spec.pure ⟨by rw [← htemp], by simp [Coherent], .inl rfl⟩
  | none =>
    have hnone := h.eq_none htemp
    refine Spec.bind (Spec.take (Q := fun p own => own = held p + rest ∧ (p = none → MayRefuse G))
      (fun p _ => ⟨?_, fun hp => by cases hp⟩) fun hrefuse => ⟨rfl, fun _ => hrefuse⟩) fun p own hown => ?_
    · rw [held, held, Multiset.zero_add, Multiset.singleton_add]
    obtain ⟨rfl, hrefuse⟩ := hown
    cases p with
    | none => exact Spec.pure ⟨by rw [htemp], h, .inr ⟨hrefuse rfl, rfl⟩⟩
    | some p =>
      refine Spec.pure ⟨rfl, rfl, .inl ?_⟩
      unfold reportedIn
      rw [hnone]
      rfl

/-- What follows `handle_report` in `handle_cmd`: it changes other statics, and passes a failure on. -/
theorem Steps.bind {t : HeapM (HeapStatics × Bool)} {r r' : ParserStatics × Bool}
    {f : HeapStatics × Bool → HeapStatics × Bool} (ht : Steps G st t r)
    (htemp : ∀ x, (f x).1.temp = x.1.temp)
    (hmap : ∀ x, (f x).1.tempHidReportMap = x.1.tempHidReportMap)
    (hfail : ∀ x, x.2 = false → (f x).2 = false)
    (hf : ∀ x, (x.1.toParserStatics, x.2) = r → ((f x).1.toParserStatics, (f x).2) = r') :
    Steps G st (t >>= fun x => Pure.pure (f x)) r' := by
  intro rest
  refine Spec.bind (ht rest) fun x own hown => ?_
  obtain ⟨rfl, hcoherent, hret⟩ := hown
  refine Spec.pure ⟨by rw [htemp], ?_, ?_⟩
  · rw [Coherent, htemp, hmap]
    exact hcoherent
  · rcases hret with hret | ⟨hrefuse, hret⟩
    · exact .inl (hf x hret)
    · exact .inr ⟨hrefuse, hfail x hret⟩

theorem steps_handleReportId (h : Coherent st) (value : UInt32) :
    Steps G st (handleReportId st value) (Hid.handleReportId st.toParserStatics value) := by
  unfold handleReportId Hid.handleReportId
  simp only
  by_cases hcall : st.reportParams.reportId ≠ 0 ∧ st.reportParams.reportId.toUInt32 ≠ value ∧
      st.reportParams.aligned
  · rw [if_pos hcall, if_pos hcall]
    refine (steps_handleReport h).bind ?_ ?_ ?_ ?_
    · rintro ⟨x, ok⟩
      cases ok <;> rfl
    · rintro ⟨x, ok⟩
      cases ok <;> rfl
    · rintro ⟨x, ok⟩ rfl
      rfl
    · rintro ⟨⟨x, temp⟩, ok⟩ hx
      unfold reportedIn at hx
      rcases hrep : Hid.handleReport st.tempHidReportMap st.reportParams st.newMap with ⟨map, ok'⟩
      rw [hrep] at hx
      cases hx
      cases ok <;> rfl
  · rw [if_neg hcall, if_neg hcall]
    exact Steps.pure rfl h

theorem steps_handleEndCollection (h : Coherent st) :
    Steps G st (handleEndCollection st) (Hid.handleEndCollection st.toParserStatics) := by
  unfold handleEndCollection Hid.handleEndCollection
  simp only
  by_cases hdepth : st.collectionDepth - 1 = 0
  · rw [if_pos hdepth, if_pos hdepth]
    by_cases haligned : st.reportParams.aligned = true
    · rw [if_pos haligned, if_pos haligned]
      have hst : Coherent { st with collectionDepth := st.collectionDepth - 1 } := h
      refine (steps_handleReport hst).bind ?_ ?_ ?_ ?_
      · rintro ⟨x, ok⟩
        cases ok <;> rfl
      · rintro ⟨x, ok⟩
        cases ok <;> rfl
      · rintro ⟨x, ok⟩ rfl
        rfl
      · rintro ⟨⟨x, temp⟩, ok⟩ hx
        unfold reportedIn at hx
        simp only at hx ⊢
        rcases hrep : Hid.handleReport st.tempHidReportMap st.reportParams st.newMap with ⟨map, ok'⟩
        rw [hrep] at hx
        cases hx
        cases ok' <;> rfl
    · rw [if_neg haligned, if_neg haligned]
      exact Steps.pure rfl h
  · rw [if_neg hdepth, if_neg hdepth]
    exact Steps.pure rfl h

/-- **An item**, whatever is refused. -/
theorem steps_handleCmd (h : Coherent st) (cmd : HidReportCmd) :
    Steps G st (handleCmd st cmd) (Hid.handleCmd st.toParserStatics cmd) := by
  unfold handleCmd
  by_cases hid : st.parseStep = .waitEndCollection ∧ cmd.cmd = HidRm.reportId
  · have hpure : Hid.handleCmd st.toParserStatics cmd =
        Hid.handleReportId st.toParserStatics cmd.value := by
      simp only [Hid.handleCmd, hid.1, hid.2, if_true]
    rw [if_pos hid, hpure]
    exact steps_handleReportId h cmd.value
  · rw [if_neg hid]
    by_cases hend : st.parseStep = .waitEndCollection ∧ cmd.cmd = HidRm.endCollection
    · have hpure : Hid.handleCmd st.toParserStatics cmd =
          Hid.handleEndCollection st.toParserStatics := by
        simp [Hid.handleCmd, hend.1, hend.2, HidRm.reportId, HidRm.usagePage, HidRm.usage,
          HidRm.reportSize, HidRm.reportCount, HidRm.input, HidRm.output, HidRm.feature,
          HidRm.collection, HidRm.endCollection]
      rw [if_pos hend, hpure]
      exact steps_handleEndCollection h
    · rw [if_neg hend]
      have hcalls : callsHandleReport st.toParserStatics cmd = false := by
        refine Bool.eq_false_iff.mpr fun hcalls => ?_
        simp only [callsHandleReport, Bool.and_eq_true, Bool.or_eq_true, beq_iff_eq, bne_iff_ne]
          at hcalls
        obtain ⟨⟨hstep, -⟩, ⟨⟨htag, -⟩, -⟩ | ⟨htag, -⟩⟩ := hcalls
        · exact hid ⟨hstep, htag⟩
        · exact hend ⟨hstep, htag⟩
      refine Steps.pure rfl ?_
      exact h.trans (congrArg Option.isSome (handleCmd_of_not_calls hcalls).1.symm)

/-! ## A call -/

/-- An item comes in a block of its own; without one, nothing is allocated. -/
theorem spec_parseCmd {data : List UInt8} {index : Nat} {own : Multiset Ptr}
    (hin : index < data.length) : Spec G own (parseCmd data index)
      (fun r own' => own' = held r.2 + own ∧
        (r = (.failed, none) ∧ (Hid.parseCmd data index = .ok .failed ∨ MayRefuse G) ∨
          ∃ cmd size p, r = (.item cmd size, some p) ∧
            Hid.parseCmd data index = .ok (.item cmd size))) fun _ => False := by
  unfold parseCmd
  rw [if_neg (Nat.ne_of_lt hin)]
  refine Spec.bind (Spec.take (Q := fun p own' => own' = held p + own ∧ (p = none → MayRefuse G))
    (fun p _ => ⟨?_, fun hp => by cases hp⟩) fun hrefuse => ⟨?_, fun _ => hrefuse⟩)
    fun p own' hown => ?_
  · rw [held, Multiset.singleton_add]
  · rw [held, Multiset.zero_add]
  obtain ⟨rfl, hrefuse⟩ := hown
  cases p with
  | none => exact Spec.pure ⟨rfl, .inl ⟨rfl, .inr (hrefuse rfl)⟩⟩
  | some p =>
    rcases parseCmd_spec hin with ⟨hfailed, -⟩ | ⟨cmd, size, hitem, -, -⟩
    · rw [hfailed]
      change Spec G _ (Script.drop (some p) >>= fun _ => pure (CmdResult.failed, none)) _ _
      refine Spec.bind (Spec.drop rfl (Q := fun _ own' => own' = own) rfl) fun _ own' hown => ?_
      subst hown
      exact Spec.pure ⟨(Multiset.zero_add _).symm, .inl ⟨rfl, .inl rfl⟩⟩
    · rw [hitem]
      exact Spec.pure ⟨rfl, .inr ⟨cmd, size, p, rfl, rfl⟩⟩

/-- **The item loop**: each item is freed, and the loop does what it does with memory, or gives up. -/
theorem spec_parseLoop (hidRm : List UInt8) : ∀ (fuel index : Nat) {st : HeapStatics}, Coherent st →
    Spec G (held st.temp) (parseLoop hidRm fuel index st)
      (fun r own => own = held r.2.temp ∧ Coherent r.2 ∧
        (Hid.parseLoop hidRm fuel index st.toParserStatics = .ok (r.1, r.2.toParserStatics) ∨
          MayRefuse G ∧ r.1 = false)) fun _ => False := by
  intro fuel
  induction fuel with
  | zero => exact fun index st h => Spec.pure ⟨rfl, h, .inl rfl⟩
  | succ fuel ih =>
    intro index st h
    unfold parseLoop
    refine Spec.ite (fun hin => ?_) fun hout => Spec.pure ⟨rfl, h, .inl ?_⟩
    · refine Spec.bind (spec_parseCmd hin) fun r own hown => ?_
      obtain ⟨rfl, ⟨rfl, hfailed⟩ | ⟨cmd, size, p, rfl, hitem⟩⟩ := hown
      · refine Spec.pure ⟨Multiset.zero_add _, h, ?_⟩
        rcases hfailed with hfailed | hrefuse
        · refine .inl ?_
          simp only [Hid.parseLoop, hin, if_true, hfailed, bind, Except.bind]
        · exact .inr ⟨hrefuse, rfl⟩
      · have hcmd := steps_handleCmd (G := G) h cmd (held (some p))
        rw [Multiset.add_comm] at hcmd
        refine Spec.bind hcmd fun r own hown => ?_
        obtain ⟨st', ok⟩ := r
        obtain ⟨rfl, hcoherent, hret⟩ := hown
        refine Spec.bind (Spec.drop (Multiset.add_comm _ _) (Q := fun _ own => own = held st'.temp) rfl)
          fun _ own hown => ?_
        subst hown
        cases ok with
        | false =>
          refine Spec.pure ⟨rfl, hcoherent, ?_⟩
          rcases hret with hret | ⟨hrefuse, -⟩
          · refine .inl ?_
            simp only [Hid.parseLoop, hin, if_true, hitem, bind, Except.bind, ← hret]
          · exact .inr ⟨hrefuse, rfl⟩
        | true =>
          rcases hret with hret | ⟨-, hret⟩
          · refine (ih (index + size) hcoherent).mono (fun r own hown => ?_) fun _ => id
            refine ⟨hown.1, hown.2.1, hown.2.2.imp_left fun hloop => ?_⟩
            simp only [Hid.parseLoop, hin, if_true, hitem, bind, Except.bind, ← hret]
            exact hloop
          · cases hret
    · simp only [Hid.parseLoop, hout, if_false]

/-- The accumulator is given back. -/
theorem spec_freeTemp {rest : Multiset Ptr} :
    Spec G (held st.temp + rest) (freeTemp st)
      (fun st' own => own = rest ∧ st' = { st with temp := none, tempHidReportMap := none })
      fun _ => False := by
  refine Spec.bind (Spec.drop rfl (Q := fun _ own => own = rest) rfl) fun _ own hown => ?_
  exact Spec.pure ⟨hown, rfl⟩

/-- The result of a call, beside one without refusals: `NULL` where a request was refused. -/
def Returns (G : (ℕ → Bool) → Prop) (r : Option MapPtr × HeapStatics)
    (pure : Except Fault (Option EspHidReportMap × ParserStatics)) : Prop :=
  pure = .ok (r.1.map (·.map), r.2.toParserStatics) ∨ MayRefuse G ∧ r.1 = none

/-- **The final block**: the accumulator is freed, and the map that is returned has its two blocks. -/
theorem spec_finishMap (h : Coherent st) : Spec G (held st.temp) (finishMap st)
    (fun r own => own = held r.2.temp + blocks r.1 ∧ Coherent r.2 ∧
      Returns G r (Hid.finishMap st.toParserStatics))
    fun e => Hid.finishMap st.toParserStatics = .error e := by
  refine Spec.bind (Spec.take
    (Q := fun p own => own = held st.temp + held p ∧ (p = none → MayRefuse G))
    (fun p _ => ⟨?_, fun hp => (by cases hp)⟩)
    fun hrefuse => ⟨?_, fun _ => hrefuse⟩) fun out own hown => ?_
  · rw [held, Multiset.add_comm, Multiset.singleton_add]
  · rw [held, Multiset.add_zero]
  obtain ⟨rfl, hrefuse⟩ := hown
  have hgone : Coherent { st with temp := none, tempHidReportMap := none } := rfl
  cases out with
  | none =>
    refine Spec.bind (spec_freeTemp.mono (fun _ _ => id) fun _ => False.elim) fun st' own hst' => ?_
    obtain ⟨rfl, rfl⟩ := hst'
    exact Spec.pure ⟨rfl, hgone, .inr ⟨hrefuse rfl, rfl⟩⟩
  | some out =>
    cases htemp : st.temp with
    | none =>
      refine Spec.fault ?_
      simp only [Hid.finishMap, h.eq_none htemp]
    | some p =>
      obtain ⟨map, hmap⟩ : ∃ map, st.tempHidReportMap = some map :=
        Option.isSome_iff_exists.mp (h.symm.trans (congrArg Option.isSome htemp))
      have hfinish : Hid.finishMap st.toParserStatics =
          .ok (some (outMap map), { st.toParserStatics with tempHidReportMap := none }) := by
        simp only [Hid.finishMap, hmap]
      rw [hmap, hfinish]
      refine Spec.bind (Spec.use (Q := fun _ own => own = held (some p) + held (some out))
        (Multiset.mem_add.mpr (.inl (Multiset.mem_singleton_self p))) rfl) fun _ own hown => ?_
      subst hown
      refine Spec.bind (Spec.take
        (Q := fun q own => own = held (some p) + (held q + held (some out)) ∧ (q = none → MayRefuse G))
        (fun q _ => ⟨?_, fun hq => (by cases hq)⟩) fun hrefuse => ⟨?_, fun _ => hrefuse⟩)
        fun reports own hown => ?_
      · rw [← Multiset.add_cons]
        rfl
      · rw [held, Multiset.zero_add]
      obtain ⟨rfl, hrefuse⟩ := hown
      cases reports with
      | none =>
        have hown : held (some p) + (held none + held (some out)) =
            held (some out) + (held st.temp + 0) := by
          rw [htemp, Multiset.add_zero, Multiset.add_comm (held (some out)), held, Multiset.zero_add]
        refine Spec.bind (Spec.drop hown (Q := fun _ own => own = held st.temp + 0) rfl)
          fun _ own hown => ?_
        subst hown
        refine Spec.bind (spec_freeTemp.mono (fun _ _ => id) fun _ => False.elim)
          fun st' own hst' => ?_
        obtain ⟨rfl, rfl⟩ := hst'
        exact Spec.pure ⟨rfl, hgone, .inr ⟨hrefuse rfl, rfl⟩⟩
      | some reports =>
        refine Spec.bind (Spec.use
          (Q := fun _ own => own = held st.temp + ({reports, out} : Multiset Ptr))
          (Multiset.mem_add.mpr (.inl (Multiset.mem_singleton_self p))) ?_) fun _ own hown => ?_
        · rw [htemp]
          rfl
        subst hown
        refine Spec.bind (spec_freeTemp.mono (fun _ _ => id) fun _ => False.elim)
          fun st' own hst' => ?_
        obtain ⟨rfl, rfl⟩ := hst'
        exact Spec.pure ⟨(Multiset.zero_add _).symm, hgone, .inl rfl⟩

/-- **One call**, whatever is refused. -/
theorem spec_espHidParseReportMap (h : Coherent st) (hidRm : List UInt8) :
    Spec G (held st.temp) (espHidParseReportMap st hidRm)
      (fun r own => own = held r.2.temp + blocks r.1 ∧ Coherent r.2 ∧
        Returns G r (Hid.espHidParseReportMap st.toParserStatics hidRm))
      fun e => Hid.espHidParseReportMap st.toParserStatics hidRm = .error e := by
  have hst : Coherent { st with newMap := true } := h
  have hloop := spec_parseLoop (G := G) hidRm hidRm.length 0 hst
  refine Spec.bind (hloop.mono (fun _ _ => id) fun _ => False.elim) fun r own hown => ?_
  obtain ⟨ok, st'⟩ := r
  obtain ⟨rfl, hcoherent, hret⟩ := hown
  cases ok with
  | false =>
    refine Spec.pure ⟨(Multiset.add_zero _).symm, hcoherent, ?_⟩
    refine hret.imp (fun hret => ?_) fun hret => ⟨hret.1, rfl⟩
    simp only [Hid.espHidParseReportMap, hret]
    rfl
  | true =>
    have hret' := hret.resolve_right fun hret => by cases hret.2
    have hpure : Hid.espHidParseReportMap st.toParserStatics hidRm = Hid.finishMap st'.toParserStatics := by
      simp only [Hid.espHidParseReportMap, hret']
    rw [hpure]
    exact spec_finishMap hcoherent

/-- `esp_hid_free_report_map`. -/
theorem spec_espHidFreeReportMap {map? : Option MapPtr} {rest : Multiset Ptr} :
    Spec G (rest + blocks map?) (espHidFreeReportMap map?) (fun _ own => own = rest) fun _ => False := by
  cases map? with
  | none => exact Spec.pure (Multiset.add_zero rest)
  | some map =>
    have hown : rest + blocks (some map) =
        held (some map.reports) + (held (some map.out) + rest) := by
      rw [Multiset.add_comm, ← Multiset.add_assoc]
      rfl
    refine Spec.bind (Spec.drop hown (Q := fun _ own => own = held (some map.out) + rest) rfl)
      fun _ own hown => ?_
    subst hown
    exact Spec.drop rfl rfl

/-! ## Calls one after the other -/

/-- Parses descriptors one after the other, each map freed before the next call, as in
`read_device_services`. -/
def parseEach (st : HeapStatics) : List (List UInt8) → HeapM HeapStatics
  | [] => pure st
  | hidRm :: rest => do
    let (map, st) ← espHidParseReportMap st hidRm
    espHidFreeReportMap map
    parseEach st rest

/-- The only fault of a call. -/
theorem fault_eq_nullDeref {st : ParserStatics} {hidRm : List UInt8} {e : Fault}
    (h : Hid.espHidParseReportMap st hidRm = .error e) : e = .nullDeref := by
  unfold Hid.espHidParseReportMap at h
  rw [parseLoop_eq] at h
  split at h
  · rename_i heq
    cases heq
  · cases h
  · unfold Hid.finishMap at h
    split at h
    · cases h
      rfl
    · cases h

/-- **A run of calls** keeps no block but the accumulator. -/
theorem spec_parseEach : ∀ (hidRms : List (List UInt8)) {st : HeapStatics}, Coherent st →
    Spec G (held st.temp) (parseEach st hidRms) (fun st' own => own = held st'.temp ∧ Coherent st')
      (· = .nullDeref) := by
  intro hidRms
  induction hidRms with
  | nil => exact fun h => Spec.pure ⟨rfl, h⟩
  | cons hidRm hidRms ih =>
    intro st h
    have hcall : Spec G (held st.temp) (espHidParseReportMap st hidRm) _ (· = .nullDeref) :=
      (spec_espHidParseReportMap h hidRm).mono (fun _ _ => id) fun e he => fault_eq_nullDeref he
    refine Spec.bind hcall fun r own hown => ?_
    obtain ⟨map?, st'⟩ := r
    obtain ⟨rfl, hcoherent, -⟩ := hown
    refine Spec.bind (spec_espHidFreeReportMap.mono (fun _ _ => id) fun _ => False.elim)
      fun _ own hown => ?_
    subst hown
    exact ih hcoherent

end Heap

open Heap

/-- What a call of the parser may do, whatever is refused: it misuses no block, keeps those of its
accumulator and of the map it returns and no others, and returns what it returns with memory enough,
unless it returns `NULL` because something was refused. -/
def ParsesInMemory (grants : ℕ → Bool) (l : Ledger Block) (frame : Multiset Ptr) (st : HeapStatics)
    (hidRm : List UInt8) : Prop :=
  match Heap.espHidParseReportMap st hidRm grants l with
  | .ok ((map?, st'), l') => l'.out = held st'.temp + blocks map? + frame ∧
      (espHidParseReportMap st.toParserStatics hidRm = .ok (map?.map (·.map), st'.toParserStatics) ∨
        map? = none ∧ ∃ n, grants n = false)
  | .error .misuse => False
  | .error (.fault e) => espHidParseReportMap st.toParserStatics hidRm = .error e

/-- **The parser's memory.** -/
theorem parsesInMemory (grants : ℕ → Bool) {l : Ledger Block} {frame : Multiset Ptr}
    {st : HeapStatics} (hst : Coherent st) (hl : l.out = held st.temp + frame) (hidRm : List UInt8) :
    ParsesInMemory grants l frame st hidRm := by
  have hspec := spec_espHidParseReportMap (G := (· = grants)) hst hidRm grants rfl l frame hl
  unfold ParsesInMemory
  split at hspec
  · rename_i r l' heq
    obtain ⟨map?, st'⟩ := r
    obtain ⟨own, hl', rfl, -, hret⟩ := hspec
    simp only [heq]
    refine ⟨hl', hret.imp_right ?_⟩
    rintro ⟨⟨_, n, rfl, hn⟩, hnone⟩
    exact ⟨hnone, n, hn⟩
  · exact hspec.elim
  · rename_i e heq
    simp only [heq]
    exact hspec

/-- The last request of a call is refused. -/
theorem parsesInMemory_keyboardRm : ParsesInMemory (fun n => n != 9) .empty 0 {} keyboardRm :=
  parsesInMemory _ (by rfl) (by rfl) _

/-- **The parser does not leak.** However many descriptors are parsed, each map freed before the next,
and whatever is refused, nothing is misused and at most one block, the accumulator, is still out. -/
theorem parseEach_out (grants : ℕ → Bool) (hidRms : List (List UInt8)) :
    match parseEach {} hidRms grants .empty with
    | .ok (st, l) => l.out = held st.temp ∧ l.out.card ≤ 1
    | .error .misuse => False
    | .error (.fault e) => e = .nullDeref := by
  have hst : Coherent {} := rfl
  have hspec := spec_parseEach (G := (· = grants)) hidRms hst grants rfl .empty 0 rfl
  split at hspec
  · rename_i st l heq
    obtain ⟨own, hl, rfl, -⟩ := hspec
    rw [Multiset.add_zero] at hl
    simp only [heq]
    refine ⟨hl, ?_⟩
    rw [hl]
    cases st.temp with
    | none => exact Nat.zero_le _
    | some p => exact Nat.le_of_eq (Multiset.card_singleton p)
  · exact hspec.elim
  · rename_i e heq
    simp only [heq]
    exact hspec

end BleKbdHost.Hid
