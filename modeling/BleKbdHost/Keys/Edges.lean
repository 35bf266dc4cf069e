import BleKbdHost.Keys.Decoder

/-!
# Key edges over runs of reports

A run of reports emits, report by report, the outputs of the keys that the last report before did
not have (`emissions_eq_edges`). A report that a keyboard sends while too many keys are down stands in
`s_prev_keys` like any other: the keys that are held through it are new again for the report behind
it (`unaffected_iff`).
-/

namespace BleKbdHost.Keys

/-! ## The keys of a report -/

/-- Bytes 1 to 6 of a report; missing ones are read as 0. -/
def keyBytes (report : List UInt8) : List UInt8 := (List.range 6).map fun i => report.getD (i + 1) 0

def tooShort (report : List UInt8) : Bool := decide (report.length < 3)

/-- The keys of the last report that is not too short; `start` if there is none. -/
def lastKeys (start : List UInt8) : List (List UInt8) → List UInt8
  | [] => start
  | report :: reports => lastKeys (if tooShort report then start else keyBytes report) reports

theorem getD_of_length_le {l : List UInt8} {i : Nat} (h : l.length ≤ i) : l.getD i 0 = 0 := by
  rw [List.getD_eq_getElem?_getD, List.getElem?_eq_none h]
  rfl

theorem curKeys_keys (report : List UInt8) : (curKeys report).keys = keyBytes report := by
  unfold curKeys keyBytes
  apply List.map_congr_left
  intro i _
  by_cases h : i + 1 < report.length
  · rw [if_pos h]
  · rw [if_neg h, getD_of_length_le (Nat.not_lt.mp h)]

/-- The `s_prev_keys` that reports leave are the keys of the last one that is not too short. -/
theorem held_keys (prev : KeySlots) (reports : List (List UInt8)) :
    (held prev reports).keys = lastKeys prev.keys reports := by
  induction reports generalizing prev with
  | nil => rfl
  | cons report reports ih =>
    have hstep : (translateReport prev report).1.keys =
        if tooShort report then prev.keys else keyBytes report := by
      unfold translateReport tooShort
      by_cases h : report.length < 3
      · simp only [h, ↓reduceIte, decide_true]
      · simp only [h, ↓reduceIte, decide_false, Bool.false_eq_true, curKeys_keys]
    rw [lastKeys, ← hstep]
    exact ih _

/-! ## The output of a key -/

/-- The letter that ends the sequence of a cursor key. -/
def cursor? (code : UInt8) : Option UInt8 :=
  if code = 0x4F then some 0x43
  else if code = 0x50 then some 0x44
  else if code = 0x51 then some 0x42
  else if code = 0x52 then some 0x41
  else none

/-- The character of a key in the keymap that the shift modifiers select; 0 if it has none. -/
def keyChar (mod code : UInt8) : UInt8 :=
  (if shifted mod then keymapShift else keymapNormal).getD code.toNat 0

/-- The number of a letter of either case in the alphabet. -/
def letter? (ch : UInt8) : Option UInt8 :=
  if 0x61 ≤ ch ∧ ch ≤ 0x7A then some (ch - 0x60)
  else if 0x41 ≤ ch ∧ ch ≤ 0x5A then some (ch - 0x40)
  else none

/-- What a key may emit. -/
inductive KeyText (mod code : UInt8) : List UInt8 → Prop
  | nothing (hcursor : cursor? code = none) (hchar : keyChar mod code = 0) : KeyText mod code []
  | arrow (final : UInt8) (hcursor : cursor? code = some final) : KeyText mod code [0x1B, 0x5B, final]
  | char (hcursor : cursor? code = none) (hchar : keyChar mod code ≠ 0)
      (hplain : ctrl mod = false ∨ letter? (keyChar mod code) = none) :
      KeyText mod code [keyChar mod code]
  | control (n : UInt8) (hcursor : cursor? code = none) (hctrl : ctrl mod = true)
      (hletter : letter? (keyChar mod code) = some n) (hpos : 1 ≤ n) (hle : n ≤ 26) :
      KeyText mod code [n]

/-- The two control corrections number the letters and leave everything else alone. -/
theorem ctrlChar_eq (ch : UInt8) : ctrlChar ch = (letter? ch).getD ch ∧
    ∀ n, letter? ch = some n → 1 ≤ n ∧ n ≤ 26 := by
  have hall : ∀ n : Fin 256, ctrlChar (UInt8.ofNat n.val) =
      (letter? (UInt8.ofNat n.val)).getD (UInt8.ofNat n.val) ∧
        (letter? (UInt8.ofNat n.val)).all (fun n => decide (1 ≤ n ∧ n ≤ 26)) = true := by
    decide +kernel
  have hch : UInt8.ofNat ch.toNat = ch := UInt8.ofNat_toNat
  have hthis := hall ⟨ch.toNat, ch.toNat_lt⟩
  rw [hch] at hthis
  refine ⟨hthis.1, fun n hn => ?_⟩
  have hrange := hthis.2
  rw [hn] at hrange
  exact of_decide_eq_true hrange

theorem keyChar_of_length_le {mod code : UInt8} (h : ¬code.toNat < keymapNormal.length) :
    keyChar mod code = 0 := by
  have hlen : keymapShift.length = keymapNormal.length := by decide
  have hle := Nat.not_lt.mp h
  unfold keyChar
  apply getD_of_length_le
  cases shifted mod with
  | true => exact hlen ▸ hle
  | false => exact hle

/-- What a key emits that is no cursor key. -/
theorem keyOutput_of_char {mod code : UInt8} (h : cursor? code = none) :
    keyOutput mod code =
      if (if ctrl mod then ctrlChar (keyChar mod code) else keyChar mod code) ≠ 0 then
        [if ctrl mod then ctrlChar (keyChar mod code) else keyChar mod code]
      else [] := by
  have hch : (if code.toNat < keymapNormal.length then
      (if shifted mod then keymapShift else keymapNormal).getD code.toNat 0 else 0) =
        keyChar mod code := by
    by_cases hlt : code.toNat < keymapNormal.length
    · rw [if_pos hlt]
      rfl
    · rw [if_neg hlt, keyChar_of_length_le hlt]
  unfold cursor? at h
  unfold keyOutput
  split at h
  · cases h
  · split at h
    · cases h
    · split at h
      · cases h
      · split at h
        · cases h
        · rename_i h₁ h₂ h₃ h₄
          rw [if_neg h₁, if_neg h₂, if_neg h₃, if_neg h₄, hch]

theorem keyOutput_of_cursor {mod code final : UInt8} (h : cursor? code = some final) :
    keyOutput mod code = [0x1B, 0x5B, final] := by
  unfold cursor? at h
  unfold keyOutput
  split at h
  · cases h
    rw [if_pos ‹_›]
    rfl
  · rw [if_neg ‹_›]
    split at h
    · cases h
      rw [if_pos ‹_›]
      rfl
    · rw [if_neg ‹_›]
      split at h
      · cases h
        rw [if_pos ‹_›]
        rfl
      · rw [if_neg ‹_›]
        split at h
        · cases h
          rw [if_pos ‹_›]
          rfl
        · cases h

/-- **The output of a key.** -/
theorem keyText_keyOutput (mod code : UInt8) : KeyText mod code (keyOutput mod code) := by
  cases hcursor : cursor? code with
  | some final =>
    rw [keyOutput_of_cursor hcursor]
    exact .arrow final hcursor
  | none =>
    obtain ⟨hctrlChar, hrange⟩ := ctrlChar_eq (keyChar mod code)
    rw [keyOutput_of_char hcursor]
    cases hctrl : ctrl mod with
    | false =>
      simp only [Bool.false_eq_true, ↓reduceIte]
      by_cases hchar : keyChar mod code = 0
      · rw [if_neg fun hne => hne hchar]
        exact .nothing hcursor hchar
      · rw [if_pos hchar]
        exact .char hcursor hchar (.inl hctrl)
    | true =>
      simp only [↓reduceIte, hctrlChar]
      cases hletter : letter? (keyChar mod code) with
      | none =>
        simp only [Option.getD_none]
        by_cases hchar : keyChar mod code = 0
        · rw [if_neg fun hne => hne hchar]
          exact .nothing hcursor hchar
        · rw [if_pos hchar]
          exact .char hcursor hchar (.inr hletter)
      | some n =>
        obtain ⟨hpos, hle⟩ := hrange n hletter
        have hne : n ≠ 0 := by
          rintro rfl
          exact absurd hpos (by decide)
        simp only [Option.getD_some, if_pos hne]
        exact .control n hcursor hctrl hletter hpos hle

/-! ## Runs -/

/-- The outputs of the keys that a report has and `last` has not, in slot order. -/
def edges (last report : List UInt8) : List UInt8 :=
  if tooShort report then []
  else (pressed last (keyBytes report)).flatMap (keyOutput (report.getD 0 0))

theorem translateReport_eq_edges (prev : KeySlots) (report : List UInt8) :
    (translateReport prev report).2 = edges prev.keys report := by
  unfold translateReport edges tooShort
  by_cases h : report.length < 3
  · simp only [h, ↓reduceIte, decide_true]
  · simp only [h, ↓reduceIte, decide_false, Bool.false_eq_true, curKeys_keys]

/-- **A run emits, for each report, its edges against the last one before.** -/
theorem emissions_eq_edges (prev : KeySlots) (reports : List (List UInt8)) :
    emissions prev reports =
      reports.mapIdx fun i report => edges (lastKeys prev.keys (reports.take i)) report := by
  induction reports generalizing prev with
  | nil => rfl
  | cons report reports ih =>
    rw [emissions, translateReport_eq_edges, ih, List.mapIdx_cons]
    congr 1
    apply List.mapIdx_eq_mapIdx_iff.mpr
    intro i hi
    have hkeys : (translateReport prev report).1.keys = lastKeys prev.keys [report] :=
      held_keys prev [report]
    rw [hkeys]
    rfl

/-! ## Rollover reports -/

/-- A report of a keyboard that cannot tell which keys are down: its key slots have usage 1, which
prints nothing. -/
structure Rollover where
  bytes : List UInt8
  long : 3 ≤ bytes.length
  reserved : bytes.getD 1 0 = 0 ∨ bytes.getD 1 0 = 1
  slots : ∀ i, 2 ≤ i → i ≤ 6 → i < bytes.length → bytes.getD i 0 = 1

/-- A report of a keyboard, or a rollover report that was inserted. -/
inductive Entry
  | report (bytes : List UInt8)
  | rollover (r : Rollover)

def Entry.bytes : Entry → List UInt8
  | .report bytes => bytes
  | .rollover r => r.bytes

def Entry.report? : Entry → Option (List UInt8)
  | .report bytes => some bytes
  | .rollover _ => none

/-- The characters that a sequence of reports emits. -/
def stream (prev : KeySlots) (reports : List (List UInt8)) : List UInt8 := (emissions prev reports).flatten

/-- The keys of the report that `last` has as well print nothing. -/
def Silent (last report : List UInt8) : Prop :=
  ∀ code ∈ keyBytes report, code ≠ 0 → code ∈ last → keyOutput (report.getD 0 0) code = []

/-- Each report that comes behind rollover reports, short reports aside, holds no key through them
that prints. `last` are the keys of the last report that is not one of them, and `rolled` says
whether there was one of them since. -/
def ResumesSilently (last : List UInt8) (rolled : Bool) : List Entry → Prop
  | [] => True
  | .rollover _ :: entries => ResumesSilently last true entries
  | .report report :: entries =>
    if tooShort report then ResumesSilently last rolled entries
    else (rolled = true → Silent last report) ∧ ResumesSilently (keyBytes report) false entries

/-- The decoder makes the same of the reports with and without the rollover reports. -/
def Unaffected (prev : KeySlots) (entries : List Entry) : Prop :=
  stream prev (entries.map Entry.bytes) = stream prev (entries.filterMap Entry.report?)

theorem keyOutput_one (mod : UInt8) : keyOutput mod 1 = [] := by
  unfold keyOutput
  cases shifted mod <;> cases ctrl mod <;> decide

/-- No key of a rollover report prints. -/
theorem Rollover.keyBytes_le (r : Rollover) {code : UInt8} (h : code ∈ keyBytes r.bytes) :
    code = 0 ∨ code = 1 := by
  obtain ⟨i, hi, rfl⟩ := List.mem_map.mp h
  have hi' := List.mem_range.mp hi
  by_cases hlen : i + 1 < r.bytes.length
  · by_cases hzero : i = 0
    · subst hzero
      exact r.reserved
    · exact .inr (r.slots (i + 1) (by omega) (by omega) hlen)
  · exact .inl (getD_of_length_le (Nat.not_lt.mp hlen))

theorem Rollover.tooShort (r : Rollover) : tooShort r.bytes = false :=
  decide_eq_false (Nat.not_lt.mpr r.long)

/-- Dropping what prints nothing does not change what is printed, and dropping anything else makes
it shorter. -/
theorem flatMap_filter_iff (p : UInt8 → Bool) (f : UInt8 → List UInt8) (codes : List UInt8) :
    ((codes.filter p).flatMap f).length ≤ (codes.flatMap f).length ∧
      (codes.flatMap f = (codes.filter p).flatMap f ↔ ∀ code ∈ codes, p code = false → f code = []) := by
  induction codes with
  | nil => simp
  | cons code codes ih =>
    obtain ⟨hle, hiff⟩ := ih
    rw [List.forall_mem_cons, ← hiff]
    cases hp : p code with
    | true =>
      rw [List.filter_cons_of_pos hp, List.flatMap_cons, List.flatMap_cons, List.length_append,
        List.length_append]
      refine ⟨Nat.add_le_add_left hle _, ?_⟩
      rw [List.append_cancel_left_eq]
      exact ⟨fun h => ⟨nofun, h⟩, And.right⟩
    | false =>
      rw [List.filter_cons_of_neg (by rw [hp]; exact Bool.false_ne_true), List.flatMap_cons,
        List.length_append]
      refine ⟨Nat.le_trans hle (Nat.le_add_left _ _), ?_⟩
      constructor
      · intro h
        have hlen := congrArg List.length h
        rw [List.length_append] at hlen
        have hnil : f code = [] := List.length_eq_zero_iff.mp (by omega)
        rw [hnil] at h
        exact ⟨fun _ => hnil, h⟩
      · rintro ⟨hnil, heq⟩
        rw [hnil rfl, heq, List.nil_append]

/-- After rollover reports every key of a report counts as new. -/
theorem edges_of_rolled {last report : List UInt8} (h : ∀ code ∈ last, code = 0 ∨ code = 1)
    (hlong : tooShort report = false) :
    edges last report = ((keyBytes report).filter (· ≠ 0)).flatMap (keyOutput (report.getD 0 0)) := by
  unfold edges
  rw [if_neg (by rw [hlong]; exact Bool.false_ne_true)]
  unfold pressed
  induction keyBytes report with
  | nil => rfl
  | cons code codes ih =>
    simp only [List.filter_cons]
    by_cases hzero : code = 0
    · simpa [hzero] using ih
    · by_cases hlast : code ∈ last
      · obtain rfl := (h code hlast).resolve_left hzero
        simpa [hlast, keyOutput_one] using ih
      · simpa [hzero, hlast] using ih

/-- What a report emits behind rollover reports is more than without them, unless it resumes no key
that prints. -/
theorem edges_rolled_iff {last rolled report : List UInt8}
    (h : ∀ code ∈ rolled, code = 0 ∨ code = 1) (hlong : tooShort report = false) :
    (edges last report).length ≤ (edges rolled report).length ∧
      (edges rolled report = edges last report ↔ Silent last report) := by
  rw [edges_of_rolled h hlong]
  unfold edges
  rw [if_neg (by rw [hlong]; exact Bool.false_ne_true)]
  have hpressed : pressed last (keyBytes report) =
      ((keyBytes report).filter (· ≠ 0)).filter (fun code => decide (code ∉ last)) := by
    rw [pressed, List.filter_filter]
    apply List.filter_congr
    intro code _
    by_cases hzero : code = 0 <;> simp [hzero]
  obtain ⟨hle, hiff⟩ := flatMap_filter_iff (fun code => decide (code ∉ last))
    (keyOutput (report.getD 0 0)) ((keyBytes report).filter (· ≠ 0))
  rw [hpressed]
  refine ⟨hle, hiff.trans ?_⟩
  unfold Silent
  constructor
  · intro hall code hcode hne hlast
    exact hall code (List.mem_filter.mpr ⟨hcode, by simpa using hne⟩) (by simpa using hlast)
  · intro hall code hcode hlast
    obtain ⟨hmem, hne⟩ := List.mem_filter.mp hcode
    exact hall code hmem (by simpa using hne) (by simpa using hlast)

theorem stream_cons (prev : KeySlots) (report : List UInt8) (reports : List (List UInt8)) :
    stream prev (report :: reports) =
      edges prev.keys report ++ stream (translateReport prev report).1 reports := by
  rw [stream, emissions, List.flatten_cons, translateReport_eq_edges]
  rfl

theorem translateReport_of_long {report : List UInt8} (h : tooShort report = false)
    (prev : KeySlots) : (translateReport prev report).1 = curKeys report := by
  unfold translateReport
  rw [if_neg (of_decide_eq_false h)]

/-- The decoder without the rollover reports has `prev`, with them it has `prev'`. -/
theorem stream_iff (entries : List Entry) : ∀ (prev prev' : KeySlots) (rolled : Bool),
    (rolled = false → prev' = prev) → (rolled = true → ∀ code ∈ prev'.keys, code = 0 ∨ code = 1) →
      (stream prev (entries.filterMap Entry.report?)).length ≤
          (stream prev' (entries.map Entry.bytes)).length ∧
        (stream prev' (entries.map Entry.bytes) = stream prev (entries.filterMap Entry.report?) ↔
          ResumesSilently prev.keys rolled entries) := by
  induction entries with
  | nil =>
    intro prev prev' rolled _ _
    exact ⟨Nat.le_refl _, iff_of_true rfl trivial⟩
  | cons entry entries ih =>
    intro prev prev' rolled hsame hrolled
    cases entry with
    | rollover r =>
      -- it prints nothing itself
      have hnothing : edges prev'.keys r.bytes = [] := by
        unfold edges
        rw [if_neg (by rw [r.tooShort]; exact Bool.false_ne_true)]
        apply List.flatMap_eq_nil_iff.mpr
        intro code hcode
        obtain ⟨hmem, hkept⟩ := List.mem_filter.mp hcode
        have hne : code ≠ 0 := (of_decide_eq_true hkept).1
        rw [(r.keyBytes_le hmem).resolve_left hne, keyOutput_one]
      have hrest := ih prev (curKeys r.bytes) true nofun fun _ code hcode =>
        r.keyBytes_le (curKeys_keys r.bytes ▸ hcode)
      rw [List.map_cons, stream_cons, Entry.bytes, hnothing, translateReport_of_long r.tooShort]
      exact hrest
    | report report =>
      have hkept : (Entry.report report :: entries).filterMap Entry.report? =
        report :: entries.filterMap Entry.report? := rfl
      rw [List.map_cons, Entry.bytes, hkept, stream_cons, stream_cons, ResumesSilently]
      cases hshort : tooShort report with
      | true =>
        have hlt : report.length < 3 := of_decide_eq_true hshort
        have hnil : ∀ keys, edges keys report = [] := fun keys => if_pos hshort
        rw [hnil, hnil, translateReport_of_short hlt, translateReport_of_short hlt]
        exact ih prev prev' rolled hsame hrolled
      | false =>
        rw [translateReport_of_long hshort, translateReport_of_long hshort]
        obtain ⟨hle, hiff⟩ := ih (curKeys report) (curKeys report) false (fun _ => rfl) nofun
        rw [curKeys_keys] at hiff
        simp only [Bool.false_eq_true, ↓reduceIte]
        rw [List.length_append, List.length_append]
        cases rolled with
        | false =>
          rw [hsame rfl]
          refine ⟨Nat.add_le_add_left hle _, ?_⟩
          rw [List.append_cancel_left_eq, hiff]
          exact ⟨fun h => ⟨nofun, h⟩, And.right⟩
        | true =>
          obtain ⟨hedges, hsilent⟩ := @edges_rolled_iff prev.keys _ _ (hrolled rfl) hshort
          refine ⟨Nat.add_le_add hedges hle, ?_⟩
          rw [← hiff, ← hsilent]
          constructor
          · intro heq
            have hlen := congrArg List.length heq
            rw [List.length_append, List.length_append] at hlen
            obtain ⟨hfirst, hrest⟩ := List.append_inj heq (by omega)
            exact ⟨fun _ => hfirst, hrest⟩
          · rintro ⟨hfirst, hrest⟩
            rw [hfirst rfl, hrest]

/-- **Rollover reports make no difference exactly** when no report behind one holds a key that
prints and was held before. -/
theorem unaffected_iff (prev : KeySlots) (entries : List Entry) :
    Unaffected prev entries ↔ ResumesSilently prev.keys false entries :=
  (stream_iff entries prev prev false (fun _ => rfl) nofun).2

/-- The rollover report of 8 bytes. -/
def rolloverReport : Rollover where
  bytes := [0, 0, 1, 1, 1, 1, 1, 1]
  long := by decide
  reserved := .inl rfl
  slots := by
    intro i hlow hhigh _
    obtain rfl | rfl | rfl | rfl | rfl : i = 2 ∨ i = 3 ∨ i = 4 ∨ i = 5 ∨ i = 6 := by omega
    all_goals rfl

/-- A key that is held through a rollover report. -/
def heldThrough : List Entry :=
  [.report [0, 0, 0x04], .rollover rolloverReport, .report [0, 0, 0x04]]

/-- It is emitted twice. -/
theorem not_unaffected_heldThrough : ¬Unaffected .cleared heldThrough := by
  unfold Unaffected
  decide

end BleKbdHost.Keys
