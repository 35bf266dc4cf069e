import BleKbdHost.Hid.Lengths

/-!
# Report ids in a parsed map

The parser records what it has summed up at the end of a collection, and where a report id item
changes the id, provided that there are whole bytes; otherwise the sums go on under the new id.
`idsExact_iff` says for which descriptors the map has the bits of each report id under that id.
-/

namespace BleKbdHost.Hid

/-! ## Sums -/

/-- The bits of the main items that are selected. -/
def bitsOf (sel : Field → Bool) (fields : List Field) : Nat := ((fields.filter sel).map (·.bits)).sum

section Sums

variable {sel sel' : Field → Bool} {fields fields' : List Field}

theorem bitsOf_append :
    bitsOf sel (fields ++ fields') = bitsOf sel fields + bitsOf sel fields' := by
  unfold bitsOf
  rw [List.filter_append, List.map_append, List.sum_append]

theorem bitsOf_congr (h : ∀ field ∈ fields, field.bits ≠ 0 → sel field = sel' field) :
    bitsOf sel fields = bitsOf sel' fields := by
  induction fields with
  | nil => rfl
  | cons field fields ih =>
    have hrest := ih fun f hf => h f (List.mem_cons_of_mem field hf)
    unfold bitsOf at hrest ⊢
    rw [List.filter_cons, List.filter_cons]
    by_cases hzero : field.bits = 0
    · cases sel field <;> cases sel' field <;> simp [hzero, hrest]
    · rw [h field List.mem_cons_self hzero]
      cases sel' field <;> simp [hrest]

theorem bitsOf_eq_zero_iff :
    bitsOf sel fields = 0 ↔ ∀ field ∈ fields, sel field = true → field.bits = 0 := by
  induction fields with
  | nil => exact iff_of_true rfl nofun
  | cons field fields ih =>
    rw [List.forall_mem_cons, ← ih]
    unfold bitsOf
    rw [List.filter_cons]
    cases sel field with
    | true => simp
    | false => simp

end Sums

section Lists

variable {α β : Type} {g : α → List β}

/-- At most one part has an element, and that is its only one. -/
theorem length_flatMap_le_one {l : List α} (hone : ∀ a ∈ l, (g a).length ≤ 1)
    (hother : ∀ before a after, l = before ++ a :: after → g a ≠ [] →
      ∀ b ∈ before ++ after, g b = []) : (l.flatMap g).length ≤ 1 := by
  induction l with
  | nil => exact Nat.zero_le 1
  | cons a l ih =>
    rw [List.flatMap_cons, List.length_append]
    by_cases hnil : g a = []
    · rw [hnil, List.length_nil, Nat.zero_add]
      apply ih fun b hb => hone b (List.mem_cons_of_mem a hb)
      intro before b after hl hne c hc
      exact hother (a :: before) b after (by rw [hl]; rfl) hne c (List.mem_cons_of_mem a hc)
    · have hrest : l.flatMap g = [] :=
        List.flatMap_eq_nil_iff.mpr fun b hb => hother [] a l rfl hnil b hb
      rw [hrest]
      exact hone a List.mem_cons_self

end Lists

/-! ## The property -/

/-- The main items of a type under a report id. -/
def Field.under (id : UInt8) (type : MainType) (field : Field) : Bool :=
  decide (field.id = id.toUInt32) && decide (field.type = type)

/-- The stretches of a descriptor, each with whether it is recorded. -/
def stretchesOf (colls : List AppCollection) : List (Stretch × Bool) := colls.flatMap (·.stretches)

/-- The bits that are declared for a type while a report id is in force. -/
def declared (colls : List AppCollection) (id : UInt8) (type : MainType) : Nat :=
  bitsOf (Field.under id type) ((stretchesOf colls).flatMap (·.1.fields))

/-- The stretch has an entry of the type if it is recorded. -/
def Stretch.HasEntry (s : Stretch) (type : MainType) : Prop :=
  type ∈ s.usageClass.recordedTypes ∧ s.len type ≠ 0

/-- An entry of report mode, of a report id and type. -/
def EspHidReportItem.isOf (id : UInt8) (type : MainType) (item : EspHidReportItem) : Bool :=
  item.isReport && (item.reportId == id && item.reportType == type.reportType)

/-- Bits are counted for the report id they are declared under. -/
structure IdsExact (map : EspHidReportMap) (colls : List AppCollection) : Prop where
  single : ∀ id type, (map.reports.filter (EspHidReportItem.isOf id type)).length ≤ 1
  total : ∀ item ∈ map.reports, ∀ type, item.isOf item.reportId type = true →
    item.valueLen.toNat * 8 = declared colls item.reportId type
  apart : ∀ s, (s, true) ∈ stretchesOf colls → ∀ type, s.HasEntry type →
    ∀ field ∈ s.fields, field.type = type → field.bits ≠ 0 → field.id = s.reportId.toUInt32

/-! ## The condition -/

/-- The bits of a type in a stretch are those of its report id, and all of them; they fit into
16 bits. -/
structure Stretch.Separate (s : Stretch) (type : MainType) (others : List (Stretch × Bool)) : Prop where
  own : ∀ field ∈ s.fields, field.type = type → field.bits ≠ 0 → field.id = s.reportId.toUInt32
  all : ∀ part ∈ others, ∀ field ∈ part.1.fields, field.under s.reportId type = true →
    field.bits = 0
  fits : s.bits type < 65536

/-- Every entry that is recorded has the bits of its report id. -/
def Separated (colls : List AppCollection) : Prop :=
  ∀ before s after, stretchesOf colls = before ++ (s, true) :: after →
    ∀ type, s.HasEntry type → s.Separate type (before ++ after)

/-! ## Entries -/

theorem Stretch.bits_eq (s : Stretch) (type : MainType) :
    s.bits type = bitsOf (fun field => decide (field.type = type)) s.fields := rfl

/-- Where all bits of the type are those of the report id. -/
theorem Stretch.bits_of_own {s : Stretch} {type : MainType}
    (h : ∀ field ∈ s.fields, field.type = type → field.bits ≠ 0 →
      field.id = s.reportId.toUInt32) :
    s.bits type = bitsOf (Field.under s.reportId type) s.fields := by
  rw [s.bits_eq]
  apply bitsOf_congr
  intro field hfield hbits
  unfold Field.under
  by_cases htype : field.type = type
  · simp [htype, h field hfield htype hbits]
  · simp [htype]

theorem AppCollection.aligned_of_recorded {coll : AppCollection} {s : Stretch}
    (h : (s, true) ∈ coll.stretches) : s.aligned = true := by
  have hended : ∀ (body : List HidReportCmd) (c : Cursor), ∀ s ∈ c.endedIn body, s.aligned = true := by
    intro body
    induction body with
    | nil => exact fun _ _ => nofun
    | cons cmd cmds ih =>
      intro c s hs
      rw [Cursor.endedIn] at hs
      rcases List.mem_append.mp hs with hs | hs
      · unfold Cursor.ended at hs
        split at hs
        · rename_i hends
          rw [List.mem_singleton.mp hs]
          exact (Bool.and_eq_true_iff.mp hends.2).2
        · cases hs
      · exact ih _ s hs
  rcases List.mem_append.mp h with h | h
  · obtain ⟨s', hs', heq⟩ := List.mem_map.mp h
    cases heq
    exact hended _ _ s hs'
  · have heq := List.mem_singleton.mp h
    have hlast : s = coll.last := congrArg Prod.fst heq
    have hkept : true = (coll.closed && coll.last.aligned) := congrArg Prod.snd heq
    rw [hlast]
    exact (Bool.and_eq_true_iff.mp hkept.symm).2

/-- The entries of the collections are those of the stretches that are recorded. -/
theorem items_eq (colls : List AppCollection) :
    colls.flatMap AppCollection.items =
      (stretchesOf colls).flatMap fun part => if part.2 then part.1.items else [] := by
  unfold stretchesOf
  rw [List.flatMap_assoc]
  refine congrArg List.flatten (List.map_congr_left fun coll _ => ?_)
  rw [AppCollection.items, coll.recorded_eq]
  induction coll.stretches with
  | nil => rfl
  | cons part parts ih =>
    rw [List.filter_cons, List.flatMap_cons, ← ih]
    cases part.2 <;> simp

theorem MainType.reportType_inj {type type' : MainType} (h : type.reportType = type'.reportType) :
    type = type' := by
  revert h
  cases type <;> cases type' <;> decide

/-- The entries of report mode of a stretch. -/
theorem Stretch.mem_items {s : Stretch} {item : EspHidReportItem} :
    item ∈ s.items ∧ item.isReport = true ↔ ∃ type, s.HasEntry type ∧ item = s.entry type := by
  rw [← List.mem_filter, s.filter_items, List.mem_flatMap]
  constructor
  · rintro ⟨type, htype, hitem⟩
    split at hitem
    · rename_i hne
      exact ⟨type, ⟨htype, hne⟩, List.mem_singleton.mp hitem⟩
    · cases hitem
  · rintro ⟨type, ⟨htype, hne⟩, rfl⟩
    exact ⟨type, htype, by rw [if_pos hne]; exact List.mem_singleton_self _⟩

theorem Stretch.isOf_entry {s : Stretch} {id : UInt8} {type type' : MainType} :
    (s.entry type').isOf id type = true ↔ s.reportId = id ∧ type' = type := by
  unfold EspHidReportItem.isOf
  rw [Bool.and_eq_true, Bool.and_eq_true, beq_iff_eq, beq_iff_eq]
  constructor
  · rintro ⟨-, hid, htype⟩
    exact ⟨hid, MainType.reportType_inj htype⟩
  · rintro ⟨rfl, rfl⟩
    exact ⟨rfl, rfl, rfl⟩

/-- A stretch has at most one entry of a report id and type. -/
theorem Stretch.length_filter_items_le (s : Stretch) (id : UInt8) (type : MainType) :
    (s.items.filter (EspHidReportItem.isOf id type)).length ≤ 1 := by
  have hfilter : s.items.filter (EspHidReportItem.isOf id type) =
      (s.items.filter (·.isReport)).filter (EspHidReportItem.isOf id type) := by
    rw [List.filter_filter]
    apply List.filter_congr
    intro item _
    unfold EspHidReportItem.isOf
    cases item.isReport <;> simp
  have hle : ∀ types : List MainType,
      ((types.flatMap fun type' => if s.len type' ≠ 0 then [s.entry type'] else []).filter
        (EspHidReportItem.isOf id type)).length ≤ types.count type := by
    intro types
    induction types with
    | nil => exact Nat.le_refl 0
    | cons type' types ih =>
      rw [List.flatMap_cons, List.filter_append, List.length_append, List.count_cons]
      have hfirst : ((if s.len type' ≠ 0 then [s.entry type'] else []).filter
          (EspHidReportItem.isOf id type)).length ≤ if type' == type then 1 else 0 := by
        by_cases htype : type' = type
        · rw [if_pos (beq_iff_eq.mpr htype)]
          refine Nat.le_trans (List.length_filter_le _ _) ?_
          split <;> simp
        · have hother : (s.entry type').isOf id type = false :=
            Bool.eq_false_iff.mpr fun hof => htype (isOf_entry.mp hof).2
          split <;> simp [hother]
      omega
  rw [hfilter, s.filter_items]
  refine Nat.le_trans (hle _) ?_
  cases s.usageClass <;> cases type <;> decide

/-! ## The result -/

section

variable {hidRm : List UInt8} {map : EspHidReportMap}

/-- The entries of report mode are those of the stretches that are recorded. -/
theorem mem_reports_iff (h : outcome .init hidRm = .ok (some map)) {item : EspHidReportItem} :
    item ∈ map.reports ∧ item.isReport = true ↔
      ∃ s type, (s, true) ∈ stretchesOf (collectionsOf hidRm) ∧ s.HasEntry type ∧
        item = s.entry type := by
  rw [reports_of_outcome h, items_eq, List.mem_flatMap]
  constructor
  · rintro ⟨⟨⟨s, kept⟩, hs, hitem⟩, hreport⟩
    cases kept with
    | false => cases hitem
    | true =>
      obtain ⟨type, hentry, heq⟩ := Stretch.mem_items.mp ⟨hitem, hreport⟩
      exact ⟨s, type, hs, hentry, heq⟩
  · rintro ⟨s, type, hs, hentry, rfl⟩
    obtain ⟨hitem, hreport⟩ := Stretch.mem_items.mpr ⟨type, hentry, rfl⟩
    exact ⟨⟨(s, true), hs, hitem⟩, hreport⟩

theorem entry_bits_of_recorded {s : Stretch} (hs : (s, true) ∈ stretchesOf (collectionsOf hidRm))
    (type : MainType) : (s.entry type).valueLen.toNat * 8 = s.len type := by
  obtain ⟨coll, -, hmem⟩ := List.mem_flatMap.mp hs
  exact Stretch.entry_bits
    (Stretch.dvd_of_aligned (AppCollection.aligned_of_recorded hmem) type)

/-- The bits of a report id in a stretch and in the others. -/
theorem declared_eq {colls : List AppCollection} {before after : List (Stretch × Bool)} {s : Stretch}
    {kept : Bool} (h : stretchesOf colls = before ++ (s, kept) :: after) (id : UInt8)
    (type : MainType) :
    declared colls id type = bitsOf (Field.under id type) s.fields +
      bitsOf (Field.under id type) ((before ++ after).flatMap (·.1.fields)) := by
  unfold declared
  rw [h]
  simp only [List.flatMap_append, List.flatMap_cons, bitsOf_append]
  omega

/-- Entries that have the bits of their report ids stand apart. -/
theorem separated_of_idsExact (h : outcome .init hidRm = .ok (some map))
    (hexact : IdsExact map (collectionsOf hidRm)) : Separated (collectionsOf hidRm) := by
  intro before s after hsplit type hentry
  have hs : (s, true) ∈ stretchesOf (collectionsOf hidRm) := by
    rw [hsplit]
    exact List.mem_append_right _ List.mem_cons_self
  obtain ⟨hitem, -⟩ := (mem_reports_iff h).mpr ⟨s, type, hs, hentry, rfl⟩
  have htotal : (s.entry type).valueLen.toNat * 8 =
      declared (collectionsOf hidRm) s.reportId type :=
    hexact.total _ hitem type (Stretch.isOf_entry.mpr ⟨rfl, rfl⟩)
  have hown := hexact.apart s hs type hentry
  rw [entry_bits_of_recorded hs, declared_eq hsplit, ← Stretch.bits_of_own hown, Stretch.len] at htotal
  have hzero : bitsOf (Field.under s.reportId type)
      ((before ++ after).flatMap (·.1.fields)) = 0 := by omega
  refine ⟨hown, fun part hpart field hfield hunder => ?_, by omega⟩
  exact bitsOf_eq_zero_iff.mp hzero field (List.mem_flatMap.mpr ⟨part, hpart, hfield⟩) hunder

/-- Entries that stand apart have the bits of their report ids. -/
theorem idsExact_of_separated (h : outcome .init hidRm = .ok (some map))
    (hsep : Separated (collectionsOf hidRm)) : IdsExact map (collectionsOf hidRm) := by
  have hown : ∀ s, (s, true) ∈ stretchesOf (collectionsOf hidRm) → ∀ type, s.HasEntry type →
      ∃ before after, stretchesOf (collectionsOf hidRm) = before ++ (s, true) :: after ∧
        s.Separate type (before ++ after) := by
    intro s hs type hentry
    obtain ⟨before, after, hsplit⟩ := List.append_of_mem hs
    exact ⟨before, after, hsplit, hsep before s after hsplit type hentry⟩
  refine ⟨fun id type => ?_, fun item hitem type hof => ?_, fun s hs type hentry => ?_⟩
  · rw [reports_of_outcome h, items_eq, List.filter_flatMap]
    apply length_flatMap_le_one
    · rintro ⟨s, kept⟩ _
      cases kept with
      | false => exact Nat.zero_le 1
      | true => exact s.length_filter_items_le id type
    · -- an entry of another stretch would have bits of the same report id
      have hhas : ∀ part : Stretch × Bool,
          (if part.2 then part.1.items else []).filter (EspHidReportItem.isOf id type) ≠ [] →
            part.2 = true ∧ part.1.HasEntry type ∧ part.1.reportId = id := by
        rintro ⟨s, kept⟩ hne
        cases kept with
        | false => exact absurd rfl hne
        | true =>
          obtain ⟨item, hmem⟩ := List.exists_mem_of_ne_nil _ hne
          obtain ⟨hitem, hof⟩ := List.mem_filter.mp hmem
          obtain ⟨type', hentry, rfl⟩ :=
            Stretch.mem_items.mp ⟨hitem, (Bool.and_eq_true_iff.mp hof).1⟩
          obtain ⟨hid, rfl⟩ := Stretch.isOf_entry.mp hof
          exact ⟨rfl, hentry, hid⟩
      rintro before ⟨s, kept⟩ after hsplit hne part hpart
      obtain ⟨rfl, hentry, rfl⟩ := hhas (s, kept) hne
      refine Classical.byContradiction fun hne' => ?_
      obtain ⟨hkept, hentry', hid⟩ := hhas part hne'
      have hpart' : (part.1, true) ∈ stretchesOf (collectionsOf hidRm) := by
        rw [hsplit, ← hkept]
        rcases List.mem_append.mp hpart with hpart | hpart
        · exact List.mem_append_left _ hpart
        · exact List.mem_append_right _ (List.mem_cons_of_mem _ hpart)
      obtain ⟨_, _, -, hsep'⟩ := hown part.1 hpart' type hentry'
      have hzero : part.1.bits type = 0 := by
        rw [Stretch.bits_of_own hsep'.own, hid]
        exact bitsOf_eq_zero_iff.mpr ((hsep before s after hsplit type hentry).all part hpart)
      exact hentry'.2 (by rw [Stretch.len, hzero])
  · obtain ⟨s, type', hs, hentry, rfl⟩ :=
      (mem_reports_iff h).mp ⟨hitem, (Bool.and_eq_true_iff.mp hof).1⟩
    obtain ⟨-, rfl⟩ := Stretch.isOf_entry.mp hof
    obtain ⟨before, after, hsplit, hsep'⟩ := hown s hs type' hentry
    have hzero : bitsOf (Field.under s.reportId type')
        ((before ++ after).flatMap (·.1.fields)) = 0 := by
      rw [bitsOf_eq_zero_iff]
      intro field hfield hunder
      obtain ⟨part, hpart, hfield⟩ := List.mem_flatMap.mp hfield
      exact hsep'.all part hpart field hfield hunder
    have hbits : s.len type' = bitsOf (Field.under s.reportId type') s.fields := by
      rw [← Stretch.bits_of_own hsep'.own]
      exact Nat.mod_eq_of_lt hsep'.fits
    have hid : (s.entry type').reportId = s.reportId := rfl
    rw [entry_bits_of_recorded hs, hid, declared_eq hsplit, hzero, hbits, Nat.add_zero]
  · obtain ⟨_, _, -, hsep'⟩ := hown s hs type hentry
    exact hsep'.own

/-- **Bits are counted for the report ids they are declared under exactly** if in each stretch that is
recorded the bits of a type that is recorded are all declared under the id that it is recorded with,
no other bits of the descriptor are, and they fit into 16 bits. -/
theorem idsExact_iff (h : outcome .init hidRm = .ok (some map)) :
    IdsExact map (collectionsOf hidRm) ↔ Separated (collectionsOf hidRm) :=
  ⟨separated_of_idsExact h, idsExact_of_separated h⟩

end

/-! ## Descriptors -/

/-- A keyboard collection with an input report of 64 bits and one of 16 bits. -/
def twoIdsRm : List UInt8 :=
  [0x05, 0x01, 0x09, 0x06, 0xA1, 0x01, 0x85, 0x01, 0x75, 0x08, 0x95, 0x08, 0x81, 0x02,
    0x85, 0x02, 0x75, 0x10, 0x95, 0x01, 0x81, 0x02, 0xC0]

/-- Each is recorded under its own id. -/
theorem idsExact_twoIdsRm : ∃ map, outcome .init twoIdsRm = .ok (some map) ∧
    IdsExact map (collectionsOf twoIdsRm) := by
  refine ⟨_, rfl, (idsExact_iff rfl).mpr ?_⟩
  intro before s after hsplit type _
  have hparts : ∃ s₁ s₂, stretchesOf (collectionsOf twoIdsRm) = [(s₁, true), (s₂, true)] ∧
      (∀ field ∈ s₁.fields, field.id = s₁.reportId.toUInt32 ∧ field.id ≠ s₂.reportId.toUInt32) ∧
      (∀ field ∈ s₂.fields, field.id = s₂.reportId.toUInt32 ∧ field.id ≠ s₁.reportId.toUInt32) ∧
      (s₁.bits .input < 65536 ∧ s₁.bits .output < 65536 ∧ s₁.bits .feature < 65536) ∧
      s₂.bits .input < 65536 ∧ s₂.bits .output < 65536 ∧ s₂.bits .feature < 65536 :=
    ⟨_, _, rfl, by decide +kernel⟩
  obtain ⟨s₁, s₂, hparts, hfirst, hsecond, ⟨hin, hout, hfeature⟩, hin', hout', hfeature'⟩ := hparts
  have hother : ∀ (id : UInt8) (field : Field), field.id ≠ id.toUInt32 →
      field.under id type = true → field.bits = 0 := by
    intro id field hne hunder
    simp [Field.under, hne] at hunder
  rw [hparts] at hsplit
  match before, hsplit with
  | [], hsplit =>
    cases hsplit
    refine ⟨fun field hfield _ _ => (hfirst field hfield).1, fun part hpart field hfield => ?_, ?_⟩
    · rw [List.mem_singleton.mp hpart] at hfield
      exact hother _ field (hsecond field hfield).2
    · cases type <;> assumption
  | [_], hsplit =>
    cases hsplit
    refine ⟨fun field hfield _ _ => (hsecond field hfield).1, fun part hpart field hfield => ?_, ?_⟩
    · rw [List.mem_singleton.mp hpart] at hfield
      exact hother _ field (hfirst field hfield).2
    · cases type <;> assumption
  | _ :: _ :: before, hsplit => simp at hsplit

/-- A keyboard collection with two input reports of 4 bits each. -/
def nibblesRm : List UInt8 :=
  [0x05, 0x01, 0x09, 0x06, 0xA1, 0x01, 0x85, 0x01, 0x75, 0x04, 0x95, 0x01, 0x81, 0x02,
    0x85, 0x02, 0x81, 0x02, 0xC0]

/-- The bits of the first one are counted for the second one. -/
theorem not_idsExact_nibblesRm : ∃ map, outcome .init nibblesRm = .ok (some map) ∧
    ¬IdsExact map (collectionsOf nibblesRm) := by
  refine ⟨_, rfl, fun hexact => ?_⟩
  have htotal := hexact.total _ List.mem_cons_self .input (by decide +kernel)
  revert htotal
  decide +kernel

end BleKbdHost.Hid
