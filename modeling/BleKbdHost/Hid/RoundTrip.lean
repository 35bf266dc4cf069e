import BleKbdHost.Hid.ParserHistory
import BleKbdHost.Hid.Regular

/-!
# Parsing regular descriptors

Whether the parser gives back the report map that a regular descriptor describes. The bytes split
into the items they were made of (`items_encode`); the item machine keeps the totals of a body as it
goes through it (`Inside.body`), and hands one parameter block for each collection to
`handle_report` (`Between.collection`). That records every report of a collection, unless it is a
feature report of a keyboard or an output or feature report of a mouse.
-/

namespace BleKbdHost.Hid

/-! ## Bytes -/

/-- The item as `parse_cmd` yields it. -/
def ShortItem.cmd (item : ShortItem) : HidReportCmd :=
  ⟨item.tag, item.data.size.bytes, UInt32.ofNat item.data.value⟩

theorem leBytes_length (n value : Nat) : (leBytes n value).length = n := by
  induction n generalizing value with
  | zero => rfl
  | succ n ih => rw [leBytes, List.length_cons, ih]

theorem leValue_leBytes {n value : Nat} (h : value < 256 ^ n) :
    leValue (leBytes n value) = UInt32.ofNat value := by
  induction n generalizing value with
  | zero =>
    obtain rfl : value = 0 := by simpa using h
    rfl
  | succ n ih =>
    have hrest : value / 256 < 256 ^ n := by
      rw [Nat.div_lt_iff_lt_mul (by decide), ← Nat.pow_succ]
      exact h
    have hbyte : (UInt8.ofNat value).toUInt32 = UInt32.ofNat (value % 256) := by
      apply UInt32.toNat.inj
      simp only [UInt8.toNat_toUInt32, UInt8.toNat_ofNat', UInt32.toNat_ofNat']
      omega
    calc leValue (leBytes (n + 1) value)
        = UInt32.ofNat (value % 256) + 256 * UInt32.ofNat (value / 256) := by
          rw [leBytes, leValue, hbyte, ih hrest]
      _ = UInt32.ofNat (value % 256 + 256 * (value / 256)) := by
          rw [UInt32.ofNat_add, UInt32.ofNat_mul]
          rfl
      _ = UInt32.ofNat value := by rw [Nat.mod_add_div]

theorem tag_bits (tag : UInt8) (size : ItemSize) (h : tag &&& 0x03 = 0) :
    (tag ||| size.bits) &&& 0xFC = tag ∧ (tag ||| size.bits) &&& 0x03 = size.bits := by
  have hall : ∀ n : Fin 256, UInt8.ofNat n.val &&& 0x03 = 0 →
      (UInt8.ofNat n.val ||| size.bits) &&& 0xFC = UInt8.ofNat n.val ∧
        (UInt8.ofNat n.val ||| size.bits) &&& 0x03 = size.bits := by
    cases size <;> decide +kernel
  have htag : UInt8.ofNat tag.toNat = tag := UInt8.ofNat_toNat
  have hthis := hall ⟨tag.toNat, tag.toNat_lt⟩
  rw [htag] at hthis
  exact hthis h

theorem itemDataLen_of_bits {b : UInt8} {size : ItemSize} (h : b &&& 0x03 = size.bits) :
    itemDataLen b = size.bytes := by
  unfold itemDataLen
  rw [h]
  cases size <;> rfl

namespace ShortItem

variable (item : ShortItem)

theorem encode_length : item.encode.length = item.data.size.bytes + 1 := by
  rw [encode, List.length_cons, leBytes_length]

/-- `parse_cmd` cuts an encoded item off. -/
theorem parseCmd_encode (before after : List UInt8) :
    parseCmd (before ++ (item.encode ++ after)) before.length =
      .ok (.item item.cmd item.encode.length) := by
  obtain ⟨htag, hbits⟩ := tag_bits item.tag item.data.size item.free
  have hlen : (before ++ (item.encode ++ after)).length =
      before.length + (item.data.size.bytes + 1 + after.length) := by
    rw [List.length_append, List.length_append, encode_length]
  have hread : readAt (before ++ (item.encode ++ after)) before.length =
      .ok (item.tag ||| item.data.size.bits) := by
    simp [readAt, encode]
  have hbytes : readBytes (before ++ (item.encode ++ after)) (before.length + 1)
      item.data.size.bytes = .ok (leBytes item.data.size.bytes item.data.value) := by
    rw [readBytes_of_le (by rw [hlen]; omega), ← List.drop_drop, List.drop_left, encode,
      List.cons_append, List.drop_succ_cons, List.drop_zero,
      List.take_left' (leBytes_length _ _)]
  unfold parseCmd
  rw [if_neg (by rw [hlen]; omega), hread]
  simp only [bind, Except.bind, pure, Except.pure]
  rw [itemDataLen_of_bits hbits, if_neg (by rw [hlen]; omega), hbytes]
  simp only
  rw [htag, leValue_leBytes item.data.fits, encode_length]
  rfl

end ShortItem

/-- The bytes behind `before` split into the items they encode. -/
theorem itemsFrom_encode (short : List ShortItem) : ∀ (before : List UInt8) (fuel : Nat),
    (short.flatMap (·.encode)).length ≤ fuel →
      itemsFrom (before ++ short.flatMap (·.encode)) fuel before.length =
        (short.map (·.cmd), true) := by
  induction short with
  | nil =>
    intro before fuel _
    cases fuel with
    | zero => rfl
    | succ fuel => simp [itemsFrom]
  | cons item rest ih =>
    intro before fuel hfuel
    rw [List.flatMap_cons, List.length_append, item.encode_length] at hfuel
    obtain ⟨fuel, rfl⟩ : ∃ n, fuel = n + 1 := ⟨fuel - 1, by omega⟩
    have hin : before.length < (before ++ (item :: rest).flatMap (·.encode)).length := by
      rw [List.length_append, List.flatMap_cons, List.length_append, item.encode_length]
      omega
    have hrest := ih (before ++ item.encode) fuel (by omega)
    rw [List.append_assoc, List.length_append] at hrest
    rw [itemsFrom, if_pos hin, List.flatMap_cons, item.parseCmd_encode]
    simp only [hrest, List.map_cons]

theorem items_encode (short : List ShortItem) :
    items (short.flatMap (·.encode)) = short.map (·.cmd) ∧
      complete (short.flatMap (·.encode)) = true := by
  have h := itemsFrom_encode short [] _ (Nat.le_refl _)
  rw [List.nil_append, List.length_nil] at h
  exact ⟨congrArg Prod.fst h, congrArg Prod.snd h⟩

/-! ## Inside a collection -/

/-- The item machine inside `coll`, at a nesting depth, after the totals `t` and the report ids
`ids`; the accumulator is as the collection before left it. -/
structure Inside (coll : Collection) (st₀ : ParserStatics) (depth : Nat) (t : Totals)
    (ids : List Nat) (st : ParserStatics) : Prop where
  parseStep : st.parseStep = .waitEndCollection
  newMap : st.newMap = st₀.newMap
  temp : st.tempHidReportMap = st₀.tempHidReportMap
  depth : st.collectionDepth = UInt8.ofNat depth
  page : st.reportParams.usagePage = UInt16.ofNat coll.page.value
  usage : st.reportParams.usage = UInt16.ofNat coll.usage.value
  size : st.reportSize = UInt16.ofNat t.size
  count : st.reportCount = UInt16.ofNat t.count
  input : st.reportParams.inputLen = UInt16.ofNat (t.bits .input)
  output : st.reportParams.outputLen = UInt16.ofNat (t.bits .output)
  feature : st.reportParams.featureLen = UInt16.ofNat (t.bits .feature)
  reportId : st.reportParams.reportId = if ids = [] then 0 else coll.reportId

namespace Inside

variable {coll : Collection} {st₀ st : ParserStatics} {depth : Nat} {t : Totals} {ids : List Nat}

/-- A report id item, which repeats the report id if there was one before. -/
theorem onReportId (h : Inside coll st₀ depth t ids st) {data : ItemData}
    (hid : data.value = coll.reportId.toNat) :
    ∃ st', handleCmd st (BodyItem.reportId data).short.cmd = (st', true) ∧
      Inside coll st₀ depth t (ids ++ [data.value]) st' := by
  have hvalue : UInt32.ofNat data.value = coll.reportId.toUInt32 := by
    rw [hid]
    exact UInt32.toNat.inj (by simp)
  have hsame : ¬(st.reportParams.reportId ≠ 0 ∧
      st.reportParams.reportId.toUInt32 ≠ UInt32.ofNat data.value ∧
        st.reportParams.aligned = true) := by
    rintro ⟨hne, hchange, -⟩
    rw [h.reportId] at hne hchange
    split at hchange
    · rename_i hnil
      rw [if_pos hnil] at hne
      exact hne rfl
    · exact hchange hvalue.symm
  refine ⟨{ st with reportParams :=
    { st.reportParams with reportId := (UInt32.ofNat data.value).toUInt8 } }, ?_, ?_⟩
  · have htag : handleCmd st (BodyItem.reportId data).short.cmd =
        handleReportId st (UInt32.ofNat data.value) := by
      simp only [handleCmd, h.parseStep]
      rfl
    rw [htag, handleReportId]
    exact if_neg hsame
  · refine { h with reportId := ?_ }
    rw [if_neg (List.append_ne_nil_of_right_ne_nil _ (List.cons_ne_nil _ _)), hvalue]
    simp

/-- An item of a body. -/
theorem item (h : Inside coll st₀ depth t ids st) (i : BodyItem)
    (hids : ∀ id ∈ i.reportIds, id = coll.reportId.toNat) :
    ∃ st', handleCmd st i.short.cmd = (st', true) ∧
      Inside coll st₀ depth (i.total t) (ids ++ i.reportIds) st' := by
  cases i with
  | reportId data => exact h.onReportId (hids _ List.mem_cons_self)
  | usagePage data =>
    refine ⟨_, by simp only [handleCmd, h.parseStep]; rfl, ?_⟩
    simp only [BodyItem.reportIds, List.append_nil]
    exact { h with parseStep := rfl }
  | usage data =>
    refine ⟨_, by simp only [handleCmd, h.parseStep]; rfl, ?_⟩
    simp only [BodyItem.reportIds, List.append_nil]
    exact { h with parseStep := rfl }
  | reportSize data =>
    refine ⟨_, by simp only [handleCmd, h.parseStep]; rfl, ?_⟩
    simp only [BodyItem.reportIds, List.append_nil]
    exact { h with parseStep := rfl, size := by simp [BodyItem.total, BodyItem.short, ShortItem.cmd] }
  | reportCount data =>
    refine ⟨_, by simp only [handleCmd, h.parseStep]; rfl, ?_⟩
    simp only [BodyItem.reportIds, List.append_nil]
    exact { h with parseStep := rfl, count := by simp [BodyItem.total, BodyItem.short, ShortItem.cmd] }
  | main type data =>
    have hproduct : st.reportSize * st.reportCount = UInt16.ofNat (t.size * t.count) := by
      rw [h.size, h.count, UInt16.ofNat_mul]
    cases type with
    | input =>
      refine ⟨_, by simp only [handleCmd, h.parseStep]; rfl, ?_⟩
      simp only [BodyItem.reportIds, List.append_nil]
      exact { h with
        parseStep := rfl
        input := by simp [BodyItem.total, hproduct, h.input]
        output := by simp [BodyItem.total, h.output]
        feature := by simp [BodyItem.total, h.feature] }
    | output =>
      refine ⟨_, by simp only [handleCmd, h.parseStep]; rfl, ?_⟩
      simp only [BodyItem.reportIds, List.append_nil]
      exact { h with
        parseStep := rfl
        input := by simp [BodyItem.total, h.input]
        output := by simp [BodyItem.total, hproduct, h.output]
        feature := by simp [BodyItem.total, h.feature] }
    | feature =>
      refine ⟨_, by simp only [handleCmd, h.parseStep]; rfl, ?_⟩
      simp only [BodyItem.reportIds, List.append_nil]
      exact { h with
        parseStep := rfl
        input := by simp [BodyItem.total, h.input]
        output := by simp [BodyItem.total, h.output]
        feature := by simp [BodyItem.total, hproduct, h.feature] }
  | ignored short hignored =>
    simp only [BodyItem.reportIds, List.append_nil]
    refine ⟨st, ?_, h⟩
    simp only [handledTags, List.mem_cons, not_or, List.not_mem_nil] at hignored
    have htag : (BodyItem.ignored short (by simpa [handledTags] using hignored)).short.cmd.cmd =
      short.tag := rfl
    simp only [handleCmd, h.parseStep, htag, hignored, ↓reduceIte]

/-- The opening item of a nested collection. -/
theorem opening (h : Inside coll st₀ depth t ids st) (data : ItemData) :
    ∃ st', handleCmd st (ShortItem.cmd ⟨HidRm.collection, data, rfl⟩) = (st', true) ∧
      Inside coll st₀ (depth + 1) t ids st' := by
  refine ⟨_, by simp only [handleCmd, h.parseStep]; rfl, ?_⟩
  exact { h with
    parseStep := rfl
    depth := by
      simp only [h.depth, UInt8.ofNat_add]
      rfl }

/-- The closing item of a nested collection. -/
theorem closing (h : Inside coll st₀ (depth + 1) t ids st) (data : ItemData) (hpos : 1 ≤ depth)
    (hdepth : depth < 256) :
    ∃ st', handleCmd st (ShortItem.cmd ⟨HidRm.endCollection, data, rfl⟩) = (st', true) ∧
      Inside coll st₀ depth t ids st' := by
  have hsub : st.collectionDepth - 1 = UInt8.ofNat depth := by
    rw [h.depth, UInt8.ofNat_add]
    exact UInt8.add_sub_cancel _ _
  have hne : st.collectionDepth - 1 ≠ 0 := by
    rw [hsub]
    intro hzero
    have := congrArg UInt8.toNat hzero
    rw [UInt8.toNat_ofNat', Nat.mod_eq_of_lt hdepth] at this
    exact Nat.ne_of_gt hpos this
  refine ⟨{ st with collectionDepth := st.collectionDepth - 1 }, ?_, { h with depth := hsub }⟩
  have htag : handleCmd st (ShortItem.cmd ⟨HidRm.endCollection, data, rfl⟩) =
      handleEndCollection st := by
    simp only [handleCmd, h.parseStep]
    rfl
  rw [htag]
  exact if_neg hne

/-- **A body**, by induction over its items and nested collections. -/
theorem body (b : Body) : ∀ {st : ParserStatics} {depth : Nat} {t : Totals} {ids : List Nat},
    Inside coll st₀ depth t ids st → 1 ≤ depth → depth + b.depth < 256 →
      (∀ id ∈ b.reportIds, id = coll.reportId.toNat) →
        ∃ st', (∀ cmds, handleCmds st (b.items.map (·.cmd) ++ cmds) = handleCmds st' cmds) ∧
          Inside coll st₀ depth (b.total t) (ids ++ b.reportIds) st' := by
  induction b with
  | nil =>
    intro st depth t ids h _ _ _
    exact ⟨st, fun _ => rfl, by rwa [Body.reportIds, List.append_nil]⟩
  | item i rest ih =>
    intro st depth t ids h hpos hdepth hids
    obtain ⟨st₁, hcmd, h₁⟩ := h.item i fun id hid => hids id (List.mem_append_left _ hid)
    obtain ⟨st₂, hrest, h₂⟩ := ih h₁ hpos hdepth fun id hid => hids id (List.mem_append_right _ hid)
    refine ⟨st₂, fun cmds => ?_, by rwa [Body.reportIds, ← List.append_assoc]⟩
    rw [Body.items, List.map_cons, List.cons_append, handleCmds_cons, hcmd]
    exact hrest cmds
  | nested opening inner closing rest ihInner ihRest =>
    intro st depth t ids h hpos hdepth hids
    rw [Body.depth] at hdepth
    obtain ⟨st₁, hopen, h₁⟩ := h.opening opening
    obtain ⟨st₂, hinner, h₂⟩ := ihInner h₁ (by omega) (by omega)
      fun id hid => hids id (List.mem_append_left _ hid)
    obtain ⟨st₃, hclose, h₃⟩ := h₂.closing closing hpos (by omega)
    obtain ⟨st₄, hrest, h₄⟩ := ihRest h₃ hpos (by omega)
      fun id hid => hids id (List.mem_append_right _ hid)
    refine ⟨st₄, fun cmds => ?_, by rwa [Body.reportIds, ← List.append_assoc]⟩
    rw [Body.items, List.map_cons, List.cons_append, handleCmds_cons, hopen]
    simp only [↓reduceIte, List.map_append, List.map_cons, List.append_assoc, List.cons_append]
    rw [hinner, handleCmds_cons, hclose]
    exact hrest cmds

end Inside

/-! ## One collection -/

namespace Collection

variable (coll : Collection)

/-- What `handle_report` records of a collection: no output of a mouse, and no feature of a mouse
or a keyboard. -/
def recorded : List EspHidReportItem :=
  coll.reportsOf .input ++ (if coll.usageClass = .mouse then [] else coll.reportsOf .output) ++
    if coll.usageClass = .keyboard ∨ coll.usageClass = .mouse then []
    else coll.reportsOf .feature

theorem reportUsage_eq {p : HidReportParams} (hpage : p.usagePage = UInt16.ofNat coll.page.value)
    (husage : p.usage = UInt16.ofNat coll.usage.value) : reportUsage p = coll.usageClass := by
  have hpage' : p.usagePage.toNat = coll.page.value := by
    rw [hpage, UInt16.toNat_ofNat', Nat.mod_eq_of_lt coll.page_lt]
  have husage' : p.usage.toNat = coll.usage.value := by
    rw [husage, UInt16.toNat_ofNat', Nat.mod_eq_of_lt coll.usage_lt]
  unfold reportUsage usageClass
  rw [← hpage', ← husage']
  simp only [← UInt16.toNat_inj, UInt16.le_iff_toNat_le, HidUsagePage.genericDesktop,
    HidUsagePage.consumerDevice, HidUsage.keyboard, HidUsage.mouse, HidUsage.joystick,
    HidUsage.gamepad, HidUsage.consumerControl, UInt16.reduceToNat]
  split <;> grind

/-- The parameter block that describes the collection. -/
structure Block (p : HidReportParams) : Prop where
  page : p.usagePage = UInt16.ofNat coll.page.value
  usage : p.usage = UInt16.ofNat coll.usage.value
  reportId : p.reportId = coll.reportId
  input : p.inputLen = UInt16.ofNat (coll.bits .input)
  output : p.outputLen = UInt16.ofNat (coll.bits .output)
  feature : p.featureLen = UInt16.ofNat (coll.bits .feature)

theorem bits_pos_iff (type : MainType) :
    0 < UInt16.ofNat (coll.bits type) ↔ coll.bits type ≠ 0 := by
  have hlt : coll.bits type < 65536 := coll.bits_lt type
  rw [UInt16.lt_iff_toNat_lt, UInt16.toNat_ofNat', Nat.mod_eq_of_lt hlt]
  exact Nat.pos_iff_ne_zero

theorem bits_div (type : MainType) :
    UInt16.ofNat (coll.bits type) / 8 = (coll.bits type / 8).toUInt16 := by
  have hlt : coll.bits type < 65536 := coll.bits_lt type
  apply UInt16.toNat.inj
  simp only [UInt16.toNat_div, UInt16.toNat_ofNat', UInt16.reduceToNat, Nat.toUInt16_eq]
  omega

theorem bits_aligned (type : MainType) : UInt16.ofNat (coll.bits type) &&& 0x7 = 0 := by
  obtain ⟨n, hn⟩ : 8 ∣ coll.bits type := coll.bytes type
  have hlt : coll.bits type < 65536 := coll.bits_lt type
  apply UInt16.toNat.inj
  rw [UInt16.toNat_and, UInt16.toNat_ofNat', Nat.mod_eq_of_lt hlt, hn]
  exact (Nat.and_two_pow_sub_one_eq_mod (8 * n) 3).trans (Nat.mul_mod_right 8 n)

variable {coll}

theorem Block.aligned {p : HidReportParams} (h : coll.Block p) : p.aligned = true := by
  unfold HidReportParams.aligned
  simp only [h.input, h.output, h.feature, coll.bits_aligned, beq_self_eq_true, Bool.and_self]

/-- **What is recorded of a collection.** -/
theorem Block.reportItems_eq {p : HidReportParams} (h : coll.Block p) :
    reportItems p = coll.recorded := by
  have hclass := coll.reportUsage_eq h.page h.usage
  have hitem : ∀ (type : MainType) mode len,
      reportItem p type.reportType mode len = coll.entry type mode len := by
    intro type mode len
    simp only [reportItem, entry, h.reportId, hclass]
  have hlen : ∀ (type : MainType) (boot : List EspHidReportItem),
      (if 0 < UInt16.ofNat (coll.bits type) then
        reportItem p type.reportType ProtocolMode.report (UInt16.ofNat (coll.bits type) / 8) :: boot
      else []) =
        if coll.bits type = 0 then []
        else coll.entry type ProtocolMode.report (coll.bits type / 8).toUInt16 :: boot := by
    intro type boot
    by_cases hzero : coll.bits type = 0
    · rw [if_pos hzero, if_neg fun hpos => (coll.bits_pos_iff type).mp hpos hzero]
    · rw [if_neg hzero, if_pos ((coll.bits_pos_iff type).mpr hzero), hitem, coll.bits_div]
  have hin := hlen .input
  have hout := hlen .output
  have hfeat := hlen .feature
  simp only [MainType.reportType] at hin hout hfeat hitem
  unfold reportItems recorded reportsOf
  rw [hclass, h.input, h.output, h.feature]
  cases coll.usageClass with
  | keyboard => simp [hin, hout, bootLen, ← hitem]
  | mouse => simp [hin, bootLen, ← hitem]
  | _ => simp [hin, hout, hfeat, bootLen]

end Collection

/-! ## Between collections -/

/-- What fits is added. -/
theorem addReports_fits {map : TempHidReportMap} {its : List EspHidReportItem}
    (h : map.reports.length + its.length ≤ 64) : (addReports map its).2 = true := by
  induction its generalizing map with
  | nil => rfl
  | cons item its ih =>
    rw [List.length_cons] at h
    have hroom : map.reports.length < 64 := by omega
    simp only [addReports, addReport, hroom, ↓reduceDIte]
    apply ih
    rw [List.length_append, List.length_singleton]
    omega

/-- A report whose entries fit is recorded. -/
theorem handleReport_fits {temp : Option TempHidReportMap} {p : HidReportParams} {first : Bool}
    (h : (if first then [] else (temp.getD .empty).reports).length + (reportItems p).length ≤ 64) :
    (handleReport temp p first).2 = true := by
  unfold handleReport
  apply addReports_fits
  cases first <;> exact h

/-- The item machine after the collections `done`. -/
structure Between (done : List Collection) (st : ParserStatics) : Prop where
  parseStep : st.parseStep = .waitUsagePage
  newMap : st.newMap = done.isEmpty
  temp : done ≠ [] → ∃ map, st.tempHidReportMap = some map ∧
    map.reports = done.flatMap (·.recorded) ∧
      map.usageMask = done.foldl (fun mask coll => mask ||| coll.usageClass.value) 0

namespace Between

variable {done : List Collection} {coll : Collection} {st₀ st : ParserStatics}

/-- The accumulator that `handle_report` goes on from. -/
theorem base (h : Between done st) :
    (if st.newMap then [] else (st.tempHidReportMap.getD .empty).reports) =
        done.flatMap (·.recorded) ∧
      (if st.newMap then 0 else (st.tempHidReportMap.getD .empty).usageMask) =
        done.foldl (fun mask coll => mask ||| coll.usageClass.value) 0 := by
  rw [h.newMap]
  cases done with
  | nil => exact ⟨rfl, rfl⟩
  | cons first rest =>
    obtain ⟨map, hmap, hreports, hmask⟩ := h.temp (List.cons_ne_nil _ _)
    rw [hmap]
    exact ⟨hreports, hmask⟩

/-- The first three items of a collection. -/
theorem header (h : Between done st) (coll : Collection) :
    ∃ st', (∀ cmds, handleCmds st
        (ShortItem.cmd ⟨HidRm.usagePage, coll.page, rfl⟩ ::
          ShortItem.cmd ⟨HidRm.usage, coll.usage, rfl⟩ ::
            ShortItem.cmd ⟨HidRm.collection, coll.opening, rfl⟩ :: cmds) = handleCmds st' cmds) ∧
      Inside coll st 1 {} [] st' := by
  have hone : UInt32.ofNat coll.opening.value = 1 := by
    rw [coll.application]
    rfl
  refine ⟨{ st with
    parseStep := .waitEndCollection
    collectionDepth := 1
    reportParams :=
      { usagePage := UInt16.ofNat coll.page.value, usage := UInt16.ofNat coll.usage.value }
    reportSize := 0
    reportCount := 0 }, fun cmds => ?_, ?_⟩
  · simp [handleCmds, handleCmd, h.parseStep, ShortItem.cmd, hone]
  · constructor <;> rfl

/-- **One collection**: its parameter block is handed to `handle_report`. -/
theorem collection (h : Between done st) (coll : Collection)
    (hfit : ((done ++ [coll]).flatMap (·.recorded)).length ≤ 64) :
    ∃ st', (∀ cmds, handleCmds st (coll.items.map (·.cmd) ++ cmds) = handleCmds st' cmds) ∧
      Between (done ++ [coll]) st' := by
  obtain ⟨st₁, hheader, h₁⟩ := h.header coll
  have hdepth : 1 + coll.body.depth < 256 := by
    have := coll.depth_lt
    omega
  obtain ⟨st₂, hbody, h₂⟩ := h₁.body coll.body (Nat.le_refl 1) hdepth coll.reportId_eq
  have hblock : coll.Block st₂.reportParams := by
    refine ⟨h₂.page, h₂.usage, ?_, h₂.input, h₂.output, h₂.feature⟩
    rw [h₂.reportId, List.nil_append]
    split
    · rename_i hnil
      exact (coll.reportId_none.mpr hnil).symm
    · rfl
  obtain ⟨hreports, hmask⟩ := h.base
  have hok : (handleReport st₂.tempHidReportMap st₂.reportParams st₂.newMap).2 = true := by
    apply handleReport_fits
    rw [h₂.newMap, h₂.temp, hreports, hblock.reportItems_eq]
    rwa [List.flatMap_append, List.length_append, List.flatMap_singleton] at hfit
  obtain ⟨map, hmap⟩ : ∃ map, handleReport st₂.tempHidReportMap st₂.reportParams st₂.newMap =
      (map, true) := ⟨_, Prod.ext rfl hok⟩
  have hclose : handleCmd st₂ (ShortItem.cmd ⟨HidRm.endCollection, coll.closing, rfl⟩) =
      handleEndCollection st₂ := by
    simp only [handleCmd, h₂.parseStep]
    rfl
  have hzero : st₂.collectionDepth - 1 = 0 := by
    rw [h₂.depth]
    rfl
  have hend : handleEndCollection st₂ = ({ st₂ with
      collectionDepth := st₂.collectionDepth - 1
      tempHidReportMap := some map
      newMap := false
      parseStep := .waitUsagePage }, true) := by
    simp only [handleEndCollection, hzero, hblock.aligned, hmap, ↓reduceIte]
  refine ⟨{ st₂ with
    collectionDepth := st₂.collectionDepth - 1
    tempHidReportMap := some map
    newMap := false
    parseStep := .waitUsagePage }, fun cmds => ?_, rfl, ?_, fun _ => ⟨map, rfl, ?_⟩⟩
  · rw [Collection.items, List.map_cons, List.map_cons, List.map_cons, List.map_append,
      List.cons_append, List.cons_append, List.cons_append, List.append_assoc, hheader, hbody,
      List.map_singleton, List.singleton_append, handleCmds_cons, hclose, hend]
    rfl
  · simp
  · obtain ⟨hmapReports, hmapMask⟩ := handleReport_ok hmap
    rw [h₂.newMap, h₂.temp] at hmapReports hmapMask
    rw [hmapReports, hmapMask, hreports, hmask, hblock.reportItems_eq,
      coll.reportUsage_eq hblock.page hblock.usage]
    simp

/-- **All collections**, by induction. -/
theorem collections (rest : List Collection) : ∀ {done : List Collection} {st : ParserStatics},
    Between done st → ((done ++ rest).flatMap (·.recorded)).length ≤ 64 →
      ∃ st', handleCmds st ((rest.flatMap (·.items)).map (·.cmd)) = (st', true) ∧
        Between (done ++ rest) st' := by
  induction rest with
  | nil =>
    intro done st h _
    exact ⟨st, rfl, by rwa [List.append_nil]⟩
  | cons coll rest ih =>
    intro done st h hfit
    rw [List.append_cons] at hfit
    have hfirst : ((done ++ [coll]).flatMap (·.recorded)).length ≤ 64 := by
      rw [List.flatMap_append, List.length_append] at hfit
      omega
    obtain ⟨st₁, hcoll, h₁⟩ := h.collection coll hfirst
    obtain ⟨st₂, hrest, h₂⟩ := ih h₁ hfit
    refine ⟨st₂, ?_, by rwa [List.append_cons]⟩
    rw [List.flatMap_cons, List.map_append, hcoll]
    exact hrest

end Between

/-! ## The dominant usage -/

theorem or_value_and (mask : UInt8) (u v : EspHidUsage) (hv : v.value ≠ 0) :
    (mask ||| u.value) &&& v.value ≠ 0 ↔ mask &&& v.value ≠ 0 ∨ u = v := by
  have hdistrib : (mask ||| u.value) &&& v.value = (mask &&& v.value) ||| (u.value &&& v.value) := by
    apply UInt8.toBitVec_inj.mp
    exact BitVec.and_or_distrib_right
  have hbits : u.value &&& v.value ≠ 0 ↔ u = v := by
    revert hv
    cases u <;> cases v <;> decide
  rw [hdistrib, Ne, UInt8.or_eq_zero_iff, Decidable.not_and_iff_or_not]
  exact or_congr_right hbits

/-- The bits of a usage mask are the usage classes that were recorded. -/
theorem mask_and (colls : List Collection) (v : EspHidUsage) (hv : v.value ≠ 0) (mask : UInt8) :
    colls.foldl (fun mask coll => mask ||| coll.usageClass.value) mask &&& v.value ≠ 0 ↔
      mask &&& v.value ≠ 0 ∨ colls.any (·.usageClass == v) = true := by
  induction colls generalizing mask with
  | nil => simp
  | cons coll rest ih =>
    rw [List.foldl_cons, ih, or_value_and mask _ v hv, List.any_cons, Bool.or_eq_true, beq_iff_eq,
      or_assoc]

namespace RegularDescriptor

variable (desc : RegularDescriptor)

theorem dominantUsage_eq :
    dominantUsage (desc.colls.foldl (fun mask coll => mask ||| coll.usageClass.value) 0) =
      (desc.dominant, desc.dominant.appearance) := by
  have hbit : ∀ v : EspHidUsage, v.value ≠ 0 →
      ((desc.colls.foldl (fun mask coll => mask ||| coll.usageClass.value) 0) &&& v.value ≠ 0 ↔
        desc.colls.any (·.usageClass == v) = true) := by
    intro v hv
    rw [mask_and desc.colls v hv 0, UInt8.zero_and]
    exact or_iff_right fun h => h rfl
  unfold dominantUsage dominant
  simp only [hbit .keyboard (by decide), hbit .mouse (by decide), hbit .joystick (by decide),
    hbit .gamepad (by decide), hbit .ccontrol (by decide), List.find?]
  cases desc.colls.any (·.usageClass == .keyboard) with
  | true => rfl
  | false =>
    cases desc.colls.any (·.usageClass == .mouse) with
    | true => rfl
    | false =>
      cases desc.colls.any (·.usageClass == .joystick) with
      | true => rfl
      | false =>
        cases desc.colls.any (·.usageClass == .gamepad) with
        | true => rfl
        | false => cases desc.colls.any (·.usageClass == .ccontrol) <;> rfl

end RegularDescriptor

/-! ## The parsed map -/

namespace Collection

/-- All reports of the collection are of types that are recorded for its usage class. -/
def AllRecorded (coll : Collection) : Prop :=
  (coll.usageClass = .keyboard → coll.bits .feature = 0) ∧
    (coll.usageClass = .mouse → coll.bits .output = 0 ∧ coll.bits .feature = 0)

variable (coll : Collection)

theorem reportsOf_eq_nil_iff (type : MainType) : coll.reportsOf type = [] ↔ coll.bits type = 0 := by
  unfold reportsOf
  split <;> simp_all

theorem recorded_length_le : coll.recorded.length ≤ coll.reports.length := by
  have hle : ∀ (p : Prop) [Decidable p] (type : MainType),
      (if p then [] else coll.reportsOf type).length ≤ (coll.reportsOf type).length := by
    intro p _ type
    split
    · exact Nat.zero_le _
    · exact Nat.le_refl _
  unfold recorded reports
  rw [List.length_append, List.length_append, List.length_append, List.length_append]
  exact Nat.add_le_add (Nat.add_le_add_left (hle _ _) _) (hle _ _)

theorem recorded_eq_iff : coll.recorded = coll.reports ↔ coll.AllRecorded := by
  unfold recorded reports AllRecorded
  rw [← coll.reportsOf_eq_nil_iff .feature, ← coll.reportsOf_eq_nil_iff .output]
  cases coll.usageClass with
  | keyboard => simp
  | mouse => simp
  | _ => simp

end Collection

theorem flatMap_recorded_length_le (colls : List Collection) :
    (colls.flatMap (·.recorded)).length ≤ (colls.flatMap (·.reports)).length :=
  (flatMap_eq_flatMap_iff fun coll _ => coll.recorded_length_le).1

/-- Every report of a list of collections is recorded if every collection is. -/
theorem flatMap_recorded_eq_iff (colls : List Collection) :
    colls.flatMap (·.recorded) = colls.flatMap (·.reports) ↔ ∀ coll ∈ colls, coll.AllRecorded := by
  rw [(flatMap_eq_flatMap_iff fun coll _ => coll.recorded_length_le).2]
  exact forall₂_congr fun coll _ => coll.recorded_eq_iff

namespace RegularDescriptor

variable (desc : RegularDescriptor)

/-- The map has what is recorded of each collection. -/
theorem outcome_encode : outcome .init desc.encode = .ok (some { desc.reportMap with
    reportsLen := (desc.colls.flatMap (·.recorded)).length.toUInt8
    reports := desc.colls.flatMap (·.recorded) }) := by
  have hfit : (desc.colls.flatMap (·.recorded)).length ≤ 64 :=
    Nat.le_trans (flatMap_recorded_length_le desc.colls) desc.fit
  have hstart : Between [] { ParserStatics.init with newMap := true } :=
    ⟨rfl, rfl, fun h => absurd rfl h⟩
  obtain ⟨st, hrun, hend⟩ := hstart.collections desc.colls hfit
  have hne : desc.colls ≠ [] := by
    intro hnil
    have hpos := desc.nonempty
    rw [hnil] at hpos
    exact absurd hpos (by decide)
  obtain ⟨map, htemp, hreports, hmask⟩ := hend.temp hne
  obtain ⟨hitems, hcomplete⟩ := items_encode desc.items
  have hcmds : handleCmds { ParserStatics.init with newMap := true } (Hid.items desc.encode) =
      (st, true) := by
    rw [encode, hitems]
    exact hrun
  unfold outcome
  rw [espHidParseReportMap_eq hcmds, encode, hcomplete]
  simp only [Bool.and_self, ↓reduceIte, finishMap, htemp]
  rw [List.nil_append] at hreports hmask
  simp only [Except.map, outMap, TempHidReportMap.reportsLen, hreports, hmask, dominantUsage_eq,
    reportMap]

/-- The parser returns the report map that the descriptor describes. -/
def Recovered : Prop := outcome .init desc.encode = .ok (some desc.reportMap)

/-- **A regular descriptor is recovered exactly** when no keyboard collection has feature reports
and no mouse collection has output or feature reports. -/
theorem recovered_iff (desc : RegularDescriptor) :
    desc.Recovered ↔ ∀ coll ∈ desc.colls, coll.AllRecorded := by
  rw [← flatMap_recorded_eq_iff, Recovered, desc.outcome_encode]
  constructor
  · intro h
    exact congrArg EspHidReportMap.reports (Option.some.inj (Except.ok.inj h))
  · intro h
    rw [h]
    rfl

end RegularDescriptor

/-- A keyboard collection with an input and a feature report of a byte each. -/
def keyboardFeature : RegularDescriptor where
  colls :=
    [{ page := ⟨.one, 1, by decide⟩
       usage := ⟨.one, 6, by decide⟩
       opening := ⟨.one, 1, by decide⟩
       body := .item (.reportSize ⟨.one, 8, by decide⟩) <| .item (.reportCount ⟨.one, 1, by decide⟩) <|
         .item (.main .input ⟨.one, 2, by decide⟩) <| .item (.main .feature ⟨.one, 2, by decide⟩) .nil
       closing := ⟨.zero, 0, by decide⟩
       reportId := 0
       page_lt := by decide
       usage_lt := by decide
       application := rfl
       depth_lt := by decide
       reportId_eq := nofun
       reportId_none := ⟨fun _ => rfl, fun _ => rfl⟩
       bytes := by intro type; cases type <;> decide
       bits_lt := by intro type; cases type <;> decide }]
  nonempty := by decide
  fit := by decide

/-- Its feature report is missing from the parsed map. -/
theorem not_recovered_keyboardFeature : ¬keyboardFeature.Recovered := by
  intro h
  have hparsed : (outcome .init keyboardFeature.encode).toOption.join.map (·.reports.length) = some 2 :=
    by decide +kernel
  have hdescribed : keyboardFeature.reportMap.reports.length = 3 := by decide +kernel
  rw [h] at hparsed
  simp [Except.toOption, hdescribed] at hparsed

end BleKbdHost.Hid
