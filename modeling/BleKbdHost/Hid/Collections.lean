import BleKbdHost.Hid.Regular

/-!
# The application collections of a descriptor

The items of a descriptor, cut into the application collections that the parser finds in them, and
the main items of each into stretches: what is declared between two places where the parser may
record a report. None of this runs the item machine; `reportItems_reported` says that the machine
records the entries of the stretches marked as recorded.
-/

namespace BleKbdHost.Hid

/-! ## Stretches -/

/-- What a main item declares: bits of a type, under the report id in force. -/
structure Field where
  id : UInt32
  type : MainType
  bits : Nat
  deriving DecidableEq, Repr

/-- The type of a main item. -/
def mainType? (tag : UInt8) : Option MainType :=
  if tag = HidRm.input then some .input
  else if tag = HidRm.output then some .output
  else if tag = HidRm.feature then some .feature
  else none

/-- Main items that the parser may record together. -/
structure Stretch where
  page : UInt32
  usage : UInt32
  /-- The report id in force at its end. -/
  id : UInt32 := 0
  fields : List Field := []
  deriving DecidableEq, Repr

namespace Stretch

/-- The bits that its main items of a type declare. -/
def bits (s : Stretch) (type : MainType) : Nat :=
  ((s.fields.filter (·.type = type)).map (·.bits)).sum

theorem bits_add (s : Stretch) (field : Field) (type : MainType) :
    bits { s with fields := s.fields ++ [field] } type =
      s.bits type + if field.type = type then field.bits else 0 := by
  unfold bits
  simp only [List.filter_append, List.map_append, List.sum_append]
  split
  · rename_i htype
    simp [htype]
  · rename_i htype
    simp [htype]

/-- The declared bits of each type amount to whole bytes. -/
def aligned (s : Stretch) : Bool :=
  decide (8 ∣ s.bits .input) && decide (8 ∣ s.bits .output) && decide (8 ∣ s.bits .feature)

/-- The report id that it is recorded with. -/
def reportId (s : Stretch) : UInt8 := s.id.toUInt8

/-- The parameter block of the stretch, as far as entries depend on it. -/
def params (s : Stretch) : HidReportParams where
  usagePage := s.page.toUInt16
  usage := s.usage.toUInt16
  reportId := s.reportId
  inputLen := UInt16.ofNat (s.bits .input)
  outputLen := UInt16.ofNat (s.bits .output)
  featureLen := UInt16.ofNat (s.bits .feature)

end Stretch

/-- A place in the body of a collection: the report size and count in force, the usage page and usage
seen last, and the stretch that goes on there. -/
structure Cursor where
  size : UInt32 := 0
  count : UInt32 := 0
  innerPage : UInt32 := 0
  innerUsage : UInt32 := 0
  stretch : Stretch
  deriving DecidableEq, Repr

namespace Cursor

/-- A report id item with this value ends the stretch: another id, not 0, was in force, and there are
whole bytes. -/
def ends (c : Cursor) (value : UInt32) : Bool :=
  decide (c.stretch.reportId ≠ 0) && decide (c.stretch.reportId.toUInt32 ≠ value) && c.stretch.aligned

/-- The place behind an item. -/
def next (c : Cursor) (cmd : HidReportCmd) : Cursor :=
  if cmd.cmd = HidRm.reportId then
    if c.ends cmd.value then
      { c with stretch := { page := c.innerPage, usage := c.innerUsage, id := cmd.value } }
    else { c with stretch := { c.stretch with id := cmd.value } }
  else if cmd.cmd = HidRm.usagePage then { c with innerPage := cmd.value }
  else if cmd.cmd = HidRm.usage then { c with innerUsage := cmd.value }
  else if cmd.cmd = HidRm.reportSize then { c with size := cmd.value }
  else if cmd.cmd = HidRm.reportCount then { c with count := cmd.value }
  else
    match mainType? cmd.cmd with
    | some type =>
      { c with stretch := { c.stretch with
          fields := c.stretch.fields ++ [⟨c.stretch.id, type, c.size.toNat * c.count.toNat⟩] } }
    | none => c

/-- The stretch that an item ends. -/
def ended (c : Cursor) (cmd : HidReportCmd) : List Stretch :=
  if cmd.cmd = HidRm.reportId ∧ c.ends cmd.value then [c.stretch] else []

/-- The place behind a body. -/
def after (c : Cursor) (body : List HidReportCmd) : Cursor := body.foldl next c

/-- The stretches that end in a body. -/
def endedIn (c : Cursor) : List HidReportCmd → List Stretch
  | [] => []
  | cmd :: cmds => c.ended cmd ++ (c.next cmd).endedIn cmds

theorem after_append (c : Cursor) (body : List HidReportCmd) (cmd : HidReportCmd) :
    c.after (body ++ [cmd]) = (c.after body).next cmd := List.foldl_append

theorem endedIn_append (c : Cursor) (body : List HidReportCmd) (cmd : HidReportCmd) :
    c.endedIn (body ++ [cmd]) = c.endedIn body ++ (c.after body).ended cmd := by
  induction body generalizing c with
  | nil => exact (List.append_nil _).trans (List.nil_append _).symm
  | cons first rest ih =>
    rw [List.cons_append, endedIn, ih, endedIn, List.append_assoc]
    rfl

end Cursor

/-! ## Collections -/

/-- An application collection: its header, the items of its body, and whether the descriptor goes on
to its end. -/
structure AppCollection where
  page : UInt32
  usage : UInt32
  body : List HidReportCmd
  closed : Bool
  deriving DecidableEq, Repr

namespace AppCollection

variable (coll : AppCollection)

/-- The beginning of the body. -/
def start : Cursor := { stretch := { page := coll.page, usage := coll.usage } }

/-- The stretch at the end of the body. -/
def last : Stretch := (coll.start.after coll.body).stretch

/-- The stretches, each with whether the parser records it. -/
def stretches : List (Stretch × Bool) :=
  (coll.start.endedIn coll.body).map (·, true) ++ [(coll.last, coll.closed && coll.last.aligned)]

/-- The stretches that the parser records. -/
def recorded : List Stretch :=
  coll.start.endedIn coll.body ++ if coll.closed && coll.last.aligned then [coll.last] else []

end AppCollection

/-- Where an item stands: before the usage page, the usage or the collection item of a header, or in a
body, behind the items `body` of it. The parser counts the depth of a body in a byte. -/
inductive Place
  | beforePage
  | beforeUsage (page : UInt32)
  | beforeCollection (page usage : UInt32)
  | inside (page usage : UInt32) (depth : UInt8) (body : List HidReportCmd)
  deriving DecidableEq, Repr

/-- The place behind an item. -/
def Place.next : Place → HidReportCmd → Place
  | .beforePage, cmd => .beforeUsage cmd.value
  | .beforeUsage page, cmd => .beforeCollection page cmd.value
  | .beforeCollection page usage, _ => .inside page usage 1 []
  | .inside page usage depth body, cmd =>
    if cmd.cmd = HidRm.collection then .inside page usage (depth + 1) (body ++ [cmd])
    else if cmd.cmd = HidRm.endCollection then
      if depth = 1 then .beforePage else .inside page usage (depth - 1) (body ++ [cmd])
    else .inside page usage depth (body ++ [cmd])

/-- The application collection that an item ends. -/
def Place.closed : Place → HidReportCmd → List AppCollection
  | .inside page usage depth body, cmd =>
    if cmd.cmd = HidRm.endCollection ∧ depth = 1 then [⟨page, usage, body, true⟩] else []
  | _, _ => []

section

variable {page usage : UInt32} {depth : UInt8} {body : List HidReportCmd} {cmd : HidReportCmd}

theorem Place.inside_opening (hopening : cmd.cmd = HidRm.collection) :
    (inside page usage depth body).next cmd = inside page usage (depth + 1) (body ++ [cmd]) ∧
      (inside page usage depth body).closed cmd = [] := by
  have hne : cmd.cmd ≠ HidRm.endCollection := by rw [hopening]; decide
  exact ⟨if_pos hopening, if_neg fun hall => hne hall.1⟩

theorem Place.inside_last (hclosing : cmd.cmd = HidRm.endCollection) :
    (inside page usage 1 body).next cmd = beforePage ∧
      (inside page usage 1 body).closed cmd = [⟨page, usage, body, true⟩] := by
  have hne : cmd.cmd ≠ HidRm.collection := by rw [hclosing]; decide
  exact ⟨(if_neg hne).trans (if_pos hclosing), if_pos ⟨hclosing, rfl⟩⟩

theorem Place.inside_closing (hclosing : cmd.cmd = HidRm.endCollection) (hdepth : depth ≠ 1) :
    (inside page usage depth body).next cmd = inside page usage (depth - 1) (body ++ [cmd]) ∧
      (inside page usage depth body).closed cmd = [] := by
  have hne : cmd.cmd ≠ HidRm.collection := by rw [hclosing]; decide
  exact ⟨(if_neg hne).trans ((if_pos hclosing).trans (if_neg hdepth)),
    if_neg fun hall => hdepth hall.2⟩

theorem Place.inside_item (hopening : cmd.cmd ≠ HidRm.collection)
    (hclosing : cmd.cmd ≠ HidRm.endCollection) :
    (inside page usage depth body).next cmd = inside page usage depth (body ++ [cmd]) ∧
      (inside page usage depth body).closed cmd = [] :=
  ⟨(if_neg hopening).trans (if_neg hclosing), if_neg fun hall => hclosing hall.1⟩

/-- The body goes on behind an item that is not its end. -/
theorem Place.inside_goesOn (hgoes : ¬(cmd.cmd = HidRm.endCollection ∧ depth = 1)) :
    ∃ depth', (inside page usage depth body).next cmd = inside page usage depth' (body ++ [cmd]) ∧
      (inside page usage depth body).closed cmd = [] := by
  by_cases hopening : cmd.cmd = HidRm.collection
  · exact ⟨_, inside_opening hopening⟩
  by_cases hclosing : cmd.cmd = HidRm.endCollection
  · exact ⟨_, inside_closing hclosing fun hone => hgoes ⟨hclosing, hone⟩⟩
  · exact ⟨_, inside_item hopening hclosing⟩

end

/-- The application collection that is not ended. -/
def Place.unclosed : Place → List AppCollection
  | .inside page usage _ body => [⟨page, usage, body, false⟩]
  | _ => []

/-- The application collections of the items from a place on. -/
def collections (place : Place) : List HidReportCmd → List AppCollection
  | [] => place.unclosed
  | cmd :: cmds => place.closed cmd ++ collections (place.next cmd) cmds

/-- The place in a body, and the stretches that ended before it. -/
def Place.cursor (page usage : UInt32) (body : List HidReportCmd) : Cursor :=
  (AppCollection.start ⟨page, usage, body, false⟩).after body

/-- The stretches of the collection around a place that ended before it. -/
def Place.ended : Place → List Stretch
  | .inside page usage _ body => (AppCollection.start ⟨page, usage, body, false⟩).endedIn body
  | _ => []

/-- The stretches recorded of a collection that is not ended are those that ended in it. -/
theorem Place.flatMap_unclosed {α : Type} (f : Stretch → α) (place : Place) :
    place.unclosed.flatMap (·.recorded.map f) = place.ended.map f := by
  cases place with
  | inside page usage depth body =>
    simp only [unclosed, AppCollection.recorded, Bool.false_and, Bool.false_eq_true, ↓reduceIte,
      List.append_nil, List.flatMap_singleton]
    rfl
  | _ => rfl

/-! ## The item machine -/

theorem ofNat_and_seven (n : Nat) : (UInt16.ofNat n &&& 0x7 == 0) = decide (8 ∣ n) := by
  have hand : (UInt16.ofNat n &&& 0x7).toNat = n % 8 := by
    have hmod : (7 : Nat) = 2 ^ 3 - 1 := rfl
    rw [UInt16.toNat_and, UInt16.toNat_ofNat']
    change n % 2 ^ 16 &&& 7 = n % 8
    rw [hmod, Nat.and_two_pow_sub_one_eq_mod]
    omega
  rw [Bool.eq_iff_iff, beq_iff_eq, decide_eq_true_iff, ← UInt16.toNat_inj, hand]
  exact Nat.dvd_iff_mod_eq_zero.symm

theorem Stretch.aligned_params (s : Stretch) : s.params.aligned = s.aligned := by
  unfold HidReportParams.aligned aligned params
  rw [ofNat_and_seven, ofNat_and_seven, ofNat_and_seven]

/-- The entries of the stretch. -/
def Stretch.items (s : Stretch) : List EspHidReportItem := reportItems s.params

/-- The types whose reports are recorded for a usage class: no output of a mouse, and no feature of a
mouse or a keyboard. -/
def EspHidUsage.recordedTypes : EspHidUsage → List MainType
  | .keyboard => [.input, .output]
  | .mouse => [.input]
  | _ => [.input, .output, .feature]

/-- The usage class of a stretch. -/
def Stretch.usageClass (s : Stretch) : EspHidUsage := reportUsage s.params

/-- The total of a type, as the parser keeps it. -/
def Stretch.len (s : Stretch) (type : MainType) : Nat := s.bits type % 65536

theorem pos_ofNat_iff (n : Nat) : 0 < UInt16.ofNat n ↔ n % 65536 ≠ 0 := by
  rw [UInt16.lt_iff_toNat_lt, UInt16.toNat_ofNat']
  exact Nat.pos_iff_ne_zero

/-- A parameter block without what is kept for the next report. -/
def HidReportParams.outer (p : HidReportParams) : HidReportParams :=
  { p with innerUsagePage := 0, innerUsage := 0 }

theorem flatMap_items (stretches : List Stretch) :
    stretches.flatMap Stretch.items = (stretches.map Stretch.params).flatMap reportItems := by
  rw [List.flatMap_map]
  rfl

/-- An item of a body leaves the depth alone, unless it opens or closes a collection. -/
theorem handleCmd_item {st : ParserStatics} {cmd : HidReportCmd}
    (hstep : st.parseStep = .waitEndCollection) (hopening : cmd.cmd ≠ HidRm.collection)
    (hclosing : cmd.cmd ≠ HidRm.endCollection) (hok : (handleCmd st cmd).2 = true) :
    (handleCmd st cmd).1.parseStep = .waitEndCollection ∧
      (handleCmd st cmd).1.collectionDepth = st.collectionDepth := by
  unfold handleCmd at hok ⊢
  simp only [hstep, hopening, hclosing, ↓reduceIte] at hok ⊢
  by_cases hid : cmd.cmd = HidRm.reportId
  · rw [if_pos hid] at hok ⊢
    unfold handleReportId at hok ⊢
    by_cases hflush : st.reportParams.reportId ≠ 0 ∧ st.reportParams.reportId.toUInt32 ≠ cmd.value ∧
        st.reportParams.aligned = true
    · rw [if_pos hflush] at hok ⊢
      rcases hrep : handleReport st.tempHidReportMap st.reportParams st.newMap with ⟨map, ok⟩
      rw [hrep] at hok
      cases ok with
      | false => cases hok
      | true => exact ⟨hstep, rfl⟩
    · rw [if_neg hflush]
      exact ⟨hstep, rfl⟩
  · rw [if_neg hid]
    repeat' split
    all_goals first
      | exact ⟨rfl, rfl⟩
      | exact ⟨hstep, rfl⟩

/-- The items that are accepted in a header. -/
theorem handleCmd_header {st : ParserStatics} {cmd : HidReportCmd} (hok : (handleCmd st cmd).2 = true) :
    (st.parseStep = .waitUsagePage → cmd.cmd = HidRm.usagePage ∧
      (handleCmd st cmd).1.parseStep = .waitUsage) ∧
    (st.parseStep = .waitUsage → cmd.cmd = HidRm.usage ∧
      (handleCmd st cmd).1.parseStep = .waitCollectionApplication) ∧
    (st.parseStep = .waitCollectionApplication → (cmd.cmd = HidRm.collection ∧ cmd.value = 1) ∧
      (handleCmd st cmd).1.parseStep = .waitEndCollection ∧
        (handleCmd st cmd).1.collectionDepth = 1) := by
  refine ⟨fun hstep => ?_, fun hstep => ?_, fun hstep => ?_⟩
  · simp only [handleCmd, hstep] at hok ⊢
    by_cases hne : cmd.cmd ≠ HidRm.usagePage
    · rw [if_pos hne] at hok
      cases hok
    · rw [if_neg hne]
      exact ⟨Decidable.not_not.mp hne, rfl⟩
  · simp only [handleCmd, hstep] at hok ⊢
    by_cases hne : cmd.cmd ≠ HidRm.usage
    · rw [if_pos hne] at hok
      cases hok
    · rw [if_neg hne]
      exact ⟨Decidable.not_not.mp hne, rfl⟩
  · simp only [handleCmd, hstep] at hok ⊢
    by_cases hne : cmd.cmd ≠ HidRm.collection ∨ cmd.value ≠ 1
    · rw [if_pos hne] at hok
      cases hok
    · rw [if_neg hne]
      obtain ⟨htag, hvalue⟩ := not_or.mp hne
      exact ⟨⟨Decidable.not_not.mp htag, Decidable.not_not.mp hvalue⟩, rfl, rfl⟩

/-- The opening item of a nested collection. -/
theorem handleCmd_opening {st : ParserStatics} {cmd : HidReportCmd}
    (hstep : st.parseStep = .waitEndCollection) (hopening : cmd.cmd = HidRm.collection) :
    (handleCmd st cmd).1.parseStep = .waitEndCollection ∧
      (handleCmd st cmd).1.collectionDepth = st.collectionDepth + 1 := by
  have hcmd : handleCmd st cmd = ({ st with collectionDepth := st.collectionDepth + 1 }, true) := by
    simp only [handleCmd, hstep, hopening]
    rfl
  rw [hcmd]
  exact ⟨hstep, rfl⟩

/-- The end of a collection: of the application collection, where the depth comes to 0. -/
theorem handleCmd_closing {st : ParserStatics} {cmd : HidReportCmd}
    (hstep : st.parseStep = .waitEndCollection) (hclosing : cmd.cmd = HidRm.endCollection) :
    (st.collectionDepth = 1 → (handleCmd st cmd).1.parseStep = .waitUsagePage) ∧
      (st.collectionDepth ≠ 1 → (handleCmd st cmd).1.parseStep = .waitEndCollection ∧
        (handleCmd st cmd).1.collectionDepth = st.collectionDepth - 1) := by
  have hcmd : handleCmd st cmd = handleEndCollection st := by
    simp only [handleCmd, hstep, hclosing]
    rfl
  rw [hcmd]
  unfold handleEndCollection
  constructor
  · intro hone
    have hzero : st.collectionDepth - 1 = 0 := by rw [hone]; rfl
    simp only [hzero, ↓reduceIte]
    split
    · rcases handleReport st.tempHidReportMap st.reportParams st.newMap with ⟨map, ok⟩
      cases ok <;> rfl
    · rfl
  · intro hone
    have hzero : st.collectionDepth - 1 ≠ 0 := fun hzero => hone (by
      have := congrArg (· + 1) hzero
      simpa using this)
    simp only [hzero, ↓reduceIte]
    exact ⟨hstep, trivial⟩

/-- The statics of the item machine are those of a place in a body. -/
structure AtCursor (c : Cursor) (st : ParserStatics) : Prop where
  size : st.reportSize = c.size.toUInt16
  count : st.reportCount = c.count.toUInt16
  params : st.reportParams = { c.stretch.params with
    innerUsagePage := c.innerPage.toUInt16
    innerUsage := c.innerUsage.toUInt16 }

namespace AtCursor

variable {c : Cursor} {st : ParserStatics} {cmd : HidReportCmd}

theorem aligned (h : AtCursor c st) : st.reportParams.aligned = c.stretch.aligned := by
  rw [h.params]
  exact c.stretch.aligned_params

theorem reportId (h : AtCursor c st) : st.reportParams.reportId = c.stretch.reportId := by
  rw [h.params]
  rfl

theorem outer (h : AtCursor c st) : st.reportParams.outer = c.stretch.params := by
  rw [h.params]
  rfl

/-- A report id item. -/
theorem onReportId (h : AtCursor c st) (value : UInt32) (hok : (handleReportId st value).2 = true) :
    AtCursor (if c.ends value then
        { c with stretch := { page := c.innerPage, usage := c.innerUsage, id := value } }
      else { c with stretch := { c.stretch with id := value } }) (handleReportId st value).1 := by
  have hends : (st.reportParams.reportId ≠ 0 ∧ st.reportParams.reportId.toUInt32 ≠ value ∧
      st.reportParams.aligned = true) ↔ c.ends value = true := by
    rw [h.aligned, h.reportId, Cursor.ends, Bool.and_eq_true, Bool.and_eq_true, decide_eq_true_iff,
      decide_eq_true_iff, and_assoc]
  unfold handleReportId at hok ⊢
  by_cases hflush : c.ends value = true
  · rw [if_pos (hends.mpr hflush)] at hok ⊢
    rw [if_pos hflush]
    rcases hrep : handleReport st.tempHidReportMap st.reportParams st.newMap with ⟨map, ok⟩
    rw [hrep] at hok
    cases ok with
    | false => cases hok
    | true =>
      refine ⟨h.size, h.count, ?_⟩
      simp only [↓reduceIte, h.params]
      rfl
  · rw [if_neg fun hall => hflush (hends.mp hall)]
    rw [if_neg hflush]
    refine ⟨h.size, h.count, ?_⟩
    simp only [h.params]
    rfl

/-- An item of a body, unless it opens or closes a collection. -/
theorem item (h : AtCursor c st) (hstep : st.parseStep = .waitEndCollection)
    (hopening : cmd.cmd ≠ HidRm.collection) (hclosing : cmd.cmd ≠ HidRm.endCollection)
    (hok : (handleCmd st cmd).2 = true) :
    AtCursor (c.next cmd) (handleCmd st cmd).1 := by
  unfold handleCmd at hok ⊢
  simp only [hstep, hopening, hclosing, ↓reduceIte] at hok ⊢
  unfold Cursor.next
  by_cases hid : cmd.cmd = HidRm.reportId
  · rw [if_pos hid] at hok ⊢
    rw [if_pos hid]
    exact h.onReportId cmd.value hok
  rw [if_neg hid, if_neg hid]
  by_cases hpage : cmd.cmd = HidRm.usagePage
  · rw [if_pos hpage, if_pos hpage]
    exact ⟨h.size, h.count, by simp only [h.params]⟩
  rw [if_neg hpage, if_neg hpage]
  by_cases husage : cmd.cmd = HidRm.usage
  · rw [if_pos husage, if_pos husage]
    exact ⟨h.size, h.count, by simp only [h.params]⟩
  rw [if_neg husage, if_neg husage]
  by_cases hsize : cmd.cmd = HidRm.reportSize
  · rw [if_pos hsize, if_pos hsize]
    exact ⟨rfl, h.count, h.params⟩
  rw [if_neg hsize, if_neg hsize]
  by_cases hcount : cmd.cmd = HidRm.reportCount
  · rw [if_pos hcount, if_pos hcount]
    exact ⟨h.size, rfl, h.params⟩
  rw [if_neg hcount, if_neg hcount]
  unfold mainType?
  by_cases hinput : cmd.cmd = HidRm.input
  · rw [if_pos hinput, if_pos hinput]
    refine ⟨h.size, h.count, ?_⟩
    simp [h.params, Stretch.params, Stretch.bits_add, h.size, h.count,
      UInt16.ofNat_add, Stretch.reportId]
  rw [if_neg hinput, if_neg hinput]
  by_cases houtput : cmd.cmd = HidRm.output
  · rw [if_pos houtput, if_pos houtput]
    refine ⟨h.size, h.count, ?_⟩
    simp [h.params, Stretch.params, Stretch.bits_add, h.size, h.count,
      UInt16.ofNat_add, Stretch.reportId]
  rw [if_neg houtput, if_neg houtput]
  by_cases hfeature : cmd.cmd = HidRm.feature
  · rw [if_pos hfeature, if_pos hfeature]
    refine ⟨h.size, h.count, ?_⟩
    simp [h.params, Stretch.params, Stretch.bits_add, h.size, h.count,
      UInt16.ofNat_add, Stretch.reportId]
  rw [if_neg hfeature, if_neg hfeature]
  exact h

/-- What the item makes the parser record. -/
theorem calls (h : AtCursor c st) (hstep : st.parseStep = .waitEndCollection)
    (hclosing : cmd.cmd ≠ HidRm.endCollection) :
    (if callsHandleReport st cmd then [st.reportParams] else []).map HidReportParams.outer =
      (c.ended cmd).map Stretch.params := by
  have hcalls : callsHandleReport st cmd = true ↔ cmd.cmd = HidRm.reportId ∧ c.ends cmd.value = true := by
    simp only [callsHandleReport, hstep, h.aligned, h.reportId, Cursor.ends, beq_self_eq_true,
      Bool.true_and, Bool.and_eq_true, Bool.or_eq_true, beq_iff_eq, bne_iff_ne, hclosing,
      false_and, or_false, decide_eq_true_eq]
    constructor
    · rintro ⟨halign, ⟨hid, hne⟩, hvalue⟩
      exact ⟨hid, ⟨hne, hvalue⟩, halign⟩
    · rintro ⟨hid, ⟨hne, hvalue⟩, halign⟩
      exact ⟨halign, ⟨hid, hne⟩, hvalue⟩
  unfold Cursor.ended
  by_cases hends : cmd.cmd = HidRm.reportId ∧ c.ends cmd.value = true
  · rw [if_pos (hcalls.mpr hends), if_pos hends, List.map_singleton, List.map_singleton, h.outer]
  · rw [if_neg fun htrue => hends (hcalls.mp htrue), if_neg hends, List.map_nil, List.map_nil]

end AtCursor

/-- The entries that the parser records of a collection. -/
def AppCollection.items (coll : AppCollection) : List EspHidReportItem :=
  coll.recorded.flatMap Stretch.items

/-- The item machine is at a place of the descriptor. -/
def Follows (st : ParserStatics) : Place → Prop
  | .beforePage => st.parseStep = .waitUsagePage
  | .beforeUsage page =>
    st.parseStep = .waitUsage ∧ st.reportParams = { usagePage := page.toUInt16 } ∧
      st.reportSize = 0 ∧ st.reportCount = 0
  | .beforeCollection page usage =>
    st.parseStep = .waitCollectionApplication ∧
      st.reportParams = { usagePage := page.toUInt16, usage := usage.toUInt16 } ∧
      st.reportSize = 0 ∧ st.reportCount = 0
  | .inside page usage depth body =>
    st.parseStep = .waitEndCollection ∧ st.collectionDepth = depth ∧
      AtCursor (Place.cursor page usage body) st

namespace Follows

variable {st : ParserStatics} {cmd : HidReportCmd}

theorem not_calls (h : st.parseStep ≠ .waitEndCollection) : callsHandleReport st cmd = false := by
  simp [callsHandleReport, h]

/-- The end of an application collection. -/
theorem close {page usage : UInt32} {body : List HidReportCmd}
    (h : Follows st (.inside page usage 1 body)) (hclosing : cmd.cmd = HidRm.endCollection) :
    (if callsHandleReport st cmd then [st.reportParams] else []).map HidReportParams.outer =
      (if (Place.cursor page usage body).stretch.aligned then
        [(Place.cursor page usage body).stretch] else []).map Stretch.params := by
  obtain ⟨hstep, hone, hcursor⟩ := h
  have hcalls : callsHandleReport st cmd = (Place.cursor page usage body).stretch.aligned := by
    rw [callsHandleReport, hstep, hcursor.aligned, hclosing, hone]
    simp [HidRm.endCollection, HidRm.reportId]
  rw [hcalls]
  split
  · rw [List.map_singleton, List.map_singleton, hcursor.outer]
  · rfl

/-- The opening or the end of a nested collection. -/
theorem nest {page usage : UInt32} {depth depth' : UInt8} {body : List HidReportCmd}
    (h : Follows st (.inside page usage depth body))
    (hcmd : handleCmd st cmd = ({ st with collectionDepth := depth' }, true))
    (htag : cmd.cmd = HidRm.collection ∨ cmd.cmd = HidRm.endCollection)
    (hcalls : callsHandleReport st cmd = false) :
    Follows (handleCmd st cmd).1 (.inside page usage depth' (body ++ [cmd])) ∧
      (Place.inside page usage depth body).ended.map Stretch.params ++
          (if callsHandleReport st cmd then [st.reportParams] else []).map HidReportParams.outer =
        (Place.inside page usage depth' (body ++ [cmd])).ended.map Stretch.params := by
  obtain ⟨hstep, -, hcursor⟩ := h
  have hne : cmd.cmd ≠ HidRm.reportId := by
    rcases htag with htag | htag <;> rw [htag] <;> decide
  have hnext : (Place.cursor page usage body).next cmd = Place.cursor page usage body := by
    rcases htag with htag | htag <;>
      simp [Cursor.next, mainType?, htag, HidRm.collection, HidRm.endCollection, HidRm.reportId,
        HidRm.usagePage, HidRm.usage, HidRm.reportSize, HidRm.reportCount, HidRm.input,
        HidRm.output, HidRm.feature]
  have hafter : Place.cursor page usage (body ++ [cmd]) = Place.cursor page usage body :=
    (Cursor.after_append _ body cmd).trans hnext
  have hended : (Place.inside page usage depth' (body ++ [cmd])).ended =
      (Place.inside page usage depth body).ended := by
    refine (Cursor.endedIn_append _ body cmd).trans ?_
    rw [Cursor.ended, if_neg fun hall => hne hall.1]
    exact List.append_nil _
  rw [hcmd, hcalls, hended]
  refine ⟨⟨hstep, rfl, ?_⟩, List.append_nil _⟩
  rw [hafter]
  exact ⟨hcursor.size, hcursor.count, hcursor.params⟩

/-- The opening or the end of a nested collection. -/
theorem nesting {page usage : UInt32} {depth : UInt8} {body : List HidReportCmd}
    (h : Follows st (.inside page usage depth body))
    (htag : cmd.cmd = HidRm.collection ∨ cmd.cmd = HidRm.endCollection ∧ depth ≠ 1) :
    Follows (handleCmd st cmd).1 ((Place.inside page usage depth body).next cmd) ∧
      (Place.inside page usage depth body).ended.map Stretch.params ++
          (if callsHandleReport st cmd then [st.reportParams] else []).map HidReportParams.outer =
        ((Place.inside page usage depth body).closed cmd).flatMap (·.recorded.map Stretch.params) ++
          ((Place.inside page usage depth body).next cmd).ended.map Stretch.params := by
  have hstep : st.parseStep = .waitEndCollection := h.1
  have hdepth : st.collectionDepth = depth := h.2.1
  rcases htag with hopening | ⟨hclosing, hone⟩
  · have hcmd : handleCmd st cmd = ({ st with collectionDepth := depth + 1 }, true) := by
      simp only [handleCmd, hstep, hopening, hdepth]
      rfl
    have hcalls : callsHandleReport st cmd = false := by
      simp [callsHandleReport, hopening, HidRm.collection, HidRm.reportId, HidRm.endCollection]
    obtain ⟨hnext, hclosed⟩ := Place.inside_opening hopening
    rw [hnext, hclosed]
    exact h.nest hcmd (.inl hopening) hcalls
  · have hzero : depth - 1 ≠ 0 := fun hzero => hone (by
      have := congrArg (· + 1) hzero
      simpa using this)
    have hcmd : handleCmd st cmd = ({ st with collectionDepth := depth - 1 }, true) := by
      have hend : handleCmd st cmd = handleEndCollection st := by
        simp only [handleCmd, hstep, hclosing]
        rfl
      rw [hend, handleEndCollection, hdepth]
      exact if_neg hzero
    have hcalls : callsHandleReport st cmd = false := by
      simp [callsHandleReport, hclosing, hdepth, hone, HidRm.reportId, HidRm.endCollection]
    obtain ⟨hnext, hclosed⟩ := Place.inside_closing hclosing hone
    rw [hnext, hclosed]
    exact h.nest hcmd (.inr hclosing) hcalls

/-- **One accepted item.** -/
theorem step {place : Place} (h : Follows st place) (hok : (handleCmd st cmd).2 = true) :
    Follows (handleCmd st cmd).1 (place.next cmd) := by
  obtain ⟨hpage, husage, hcollection⟩ := handleCmd_header hok
  cases place with
  | beforePage =>
    have hstep : st.parseStep = .waitUsagePage := h
    obtain ⟨htag, -⟩ := hpage hstep
    simp only [handleCmd, hstep, htag]
    exact ⟨rfl, rfl, rfl, rfl⟩
  | beforeUsage page =>
    obtain ⟨hstep, hparams, hsize, hcount⟩ := h
    obtain ⟨htag, -⟩ := husage hstep
    simp only [handleCmd, hstep, hparams, htag]
    exact ⟨rfl, rfl, hsize, hcount⟩
  | beforeCollection page usage =>
    obtain ⟨hstep, hparams, hsize, hcount⟩ := h
    obtain ⟨⟨htag, hvalue⟩, -⟩ := hcollection hstep
    simp only [handleCmd, hstep, hparams, htag, hvalue]
    exact ⟨rfl, rfl, hsize, hcount, rfl⟩
  | inside page usage depth body =>
    have hstep : st.parseStep = .waitEndCollection := h.1
    have hdepth : st.collectionDepth = depth := h.2.1
    by_cases hopening : cmd.cmd = HidRm.collection
    · exact (h.nesting (.inl hopening)).1
    by_cases hclosing : cmd.cmd = HidRm.endCollection
    · by_cases hone : depth = 1
      · subst hone
        rw [(Place.inside_last hclosing).1]
        exact (handleCmd_closing hstep hclosing).1 hdepth
      · exact (h.nesting (.inr ⟨hclosing, hone⟩)).1
    · obtain ⟨hparse, hdepth'⟩ := handleCmd_item hstep hopening hclosing hok
      rw [(Place.inside_item hopening hclosing).1]
      refine ⟨hparse, hdepth'.trans hdepth, ?_⟩
      rw [Place.cursor, Cursor.after_append]
      exact h.2.2.item hstep hopening hclosing hok

/-- **What one item hands to `handle_report`** is a stretch that ends there. -/
theorem records {place : Place} (h : Follows st place) (cmd : HidReportCmd) :
    place.ended.map Stretch.params ++
        (if callsHandleReport st cmd then [st.reportParams] else []).map HidReportParams.outer =
      (place.closed cmd).flatMap (·.recorded.map Stretch.params) ++
        (place.next cmd).ended.map Stretch.params := by
  cases place with
  | beforePage =>
    have hstep : st.parseStep = .waitUsagePage := h
    rw [not_calls (by rw [hstep]; decide)]
    rfl
  | beforeUsage page =>
    rw [not_calls (by rw [h.1]; decide)]
    rfl
  | beforeCollection page usage =>
    rw [not_calls (by rw [h.1]; decide)]
    rfl
  | inside page usage depth body =>
    by_cases hopening : cmd.cmd = HidRm.collection
    · exact (h.nesting (.inl hopening)).2
    by_cases hclosing : cmd.cmd = HidRm.endCollection
    · by_cases hone : depth = 1
      · subst hone
        obtain ⟨hnext, hclosed⟩ := Place.inside_last hclosing
        rw [hnext, hclosed, h.close hclosing, ← List.map_append, List.flatMap_singleton]
        exact (List.append_nil _).symm
      · exact (h.nesting (.inr ⟨hclosing, hone⟩)).2
    · obtain ⟨hnext, hclosed⟩ := Place.inside_item hopening hclosing
      rw [hnext, hclosed, h.2.2.calls h.1 hclosing, ← List.map_append]
      exact congrArg _ (Cursor.endedIn_append _ body cmd).symm

end Follows

/-- **The item machine records the stretches of the collections**, by induction over the items. -/
theorem params_reported (cmds : List HidReportCmd) : ∀ {st : ParserStatics} {place : Place},
    Follows st place → (handleCmds st cmds).2 = true →
      place.ended.map Stretch.params ++ (reported st cmds).map HidReportParams.outer =
        (collections place cmds).flatMap (·.recorded.map Stretch.params) := by
  induction cmds with
  | nil =>
    intro st place _ _
    exact (List.append_nil _).trans (place.flatMap_unclosed Stretch.params).symm
  | cons cmd cmds ih =>
    intro st place h hok
    rw [handleCmds_cons] at hok
    by_cases hcmd : (handleCmd st cmd).2 = true
    · rw [if_pos hcmd] at hok
      rw [collections, List.flatMap_append, ← ih (h.step hcmd) hok, reported, if_pos hcmd,
        List.map_append, ← List.append_assoc, h.records, List.append_assoc]
    · rw [if_neg hcmd] at hok
      exact absurd hok hcmd

/-- The entries that it records are those of the collections. -/
theorem reportItems_reported (cmds : List HidReportCmd) {st : ParserStatics} {place : Place}
    (h : Follows st place) (hok : (handleCmds st cmds).2 = true) :
    place.ended.flatMap Stretch.items ++ (reported st cmds).flatMap reportItems =
      (collections place cmds).flatMap AppCollection.items := by
  have houter : (reported st cmds).flatMap reportItems =
      ((reported st cmds).map HidReportParams.outer).flatMap reportItems := by
    rw [List.flatMap_map]
    rfl
  have hitems : AppCollection.items = fun coll => (coll.recorded.map Stretch.params).flatMap
      reportItems := funext fun coll => flatMap_items coll.recorded
  rw [flatMap_items, houter, ← List.flatMap_append, params_reported cmds h hok, List.flatMap_assoc,
    hitems]

/-- The application collections of a descriptor. -/
def collectionsOf (hidRm : List UInt8) : List AppCollection := collections .beforePage (items hidRm)

end BleKbdHost.Hid
