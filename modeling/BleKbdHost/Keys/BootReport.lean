import Mathlib.Tactic.ByContra
import Mathlib.Data.List.Chain
import BleKbdHost.Keys.Decoder

/-!
# Keyboard reports in the boot layout

The layout of the keyboard report maps and of the boot item that `handle_report` records: a
modifier byte, a reserved byte and six key slots. `translate_report` takes bytes 1 to 6 as keys,
that is the reserved byte and the first five slots.
-/

namespace BleKbdHost.Keys

/-- An 8 byte keyboard input report. -/
structure KeyboardReport where
  modifiers : UInt8
  reserved : UInt8
  k1 : UInt8
  k2 : UInt8
  k3 : UInt8
  k4 : UInt8
  k5 : UInt8
  k6 : UInt8
  deriving DecidableEq, Repr

namespace KeyboardReport

def bytes (r : KeyboardReport) : List UInt8 :=
  [r.modifiers, r.reserved, r.k1, r.k2, r.k3, r.k4, r.k5, r.k6]

def firstFive (r : KeyboardReport) : List UInt8 := [r.k1, r.k2, r.k3, r.k4, r.k5]

def slots (r : KeyboardReport) : List UInt8 := r.firstFive ++ [r.k6]

def clearReserved (r : KeyboardReport) : KeyboardReport := { r with reserved := 0 }

/-- All keys up. -/
def released : KeyboardReport := ⟨0, 0, 0, 0, 0, 0, 0, 0⟩

end KeyboardReport

@[simp] theorem curKeys_bytes (r : KeyboardReport) :
    (curKeys r.bytes).keys = r.reserved :: r.firstFive := rfl

@[simp] theorem translateReport_bytes (prev : KeySlots) (r : KeyboardReport) :
    translateReport prev r.bytes =
      (curKeys r.bytes, (pressed prev.keys (r.reserved :: r.firstFive)).flatMap
        (keyOutput r.modifiers)) := rfl

@[simp] theorem pressedCodes_bytes (prev : KeySlots) (r : KeyboardReport)
    (reports : List (List UInt8)) :
    pressedCodes prev (r.bytes :: reports) =
      pressed prev.keys (r.reserved :: r.firstFive) :: pressedCodes (curKeys r.bytes) reports :=
  rfl

/-! ## The intended reading -/

/-- The usages among `slots` that are set and not in `seen`, each once and in slot order. -/
def newUsages (seen : List UInt8) : List UInt8 → List UInt8
  | [] => []
  | u :: us => if u = 0 ∨ u ∈ seen then newUsages seen us else u :: newUsages (u :: seen) us

/-- The new usages of each report against the slots of the one before. -/
def wantedCodes (before : List UInt8) : List KeyboardReport → List (List UInt8)
  | [] => []
  | r :: rs => newUsages before r.slots :: wantedCodes r.slots rs

/-- Their outputs. -/
def wantedOutput (before : List UInt8) : List KeyboardReport → List (List UInt8)
  | [] => []
  | r :: rs => (newUsages before r.slots).flatMap (keyOutput r.modifiers) :: wantedOutput r.slots rs

/-- From the cleared state, the sequence emits exactly the outputs of its new usages, and no choice
of the reserved bytes would make it emit anything else. -/
structure LosesNoKey (rs : List KeyboardReport) : Prop where
  exact : emissions .cleared (rs.map KeyboardReport.bytes) = wantedOutput [] rs
  reserved : ∀ rs' : List KeyboardReport,
    rs'.map KeyboardReport.clearReserved = rs.map KeyboardReport.clearReserved →
      emissions .cleared (rs'.map KeyboardReport.bytes) = emissions .cleared (rs.map KeyboardReport.bytes)

/-- Reading the first five slots only gives the new usages of `now` after `before`: no usage of
the first five was last seen in the sixth slot alone, none of the new ones stands there twice, and
the sixth slot brings nothing of its own. -/
structure FirstFiveSuffice (before now : KeyboardReport) : Prop where
  sixthBefore : ∀ u ∈ now.firstFive, u ≠ 0 → u = before.k6 → u ∈ before.firstFive
  distinct : (pressed before.slots now.firstFive).Nodup
  sixthNow : now.k6 = 0 ∨ now.k6 ∈ before.slots ∨ now.k6 ∈ now.firstFive

/-! ## New usages -/

theorem mem_pressed {u : UInt8} {prev codes : List UInt8} :
    u ∈ pressed prev codes ↔ u ∈ codes ∧ u ≠ 0 ∧ u ∉ prev := by
  simp [pressed]

theorem mem_newUsages {u : UInt8} : ∀ {us seen : List UInt8},
    u ∈ newUsages seen us ↔ u ∈ us ∧ u ≠ 0 ∧ u ∉ seen := by
  intro us
  induction us with
  | nil => simp [newUsages]
  | cons v us ih =>
    intro seen
    simp only [newUsages]
    split
    · rename_i hskip
      rw [ih, List.mem_cons]
      constructor
      · exact fun ⟨hu, h⟩ => ⟨.inr hu, h⟩
      · rintro ⟨rfl | hu, hne, hseen⟩
        · exact absurd hskip (by simp [hne, hseen])
        · exact ⟨hu, hne, hseen⟩
    · rename_i hnew
      simp only [List.mem_cons, ih, not_or]
      grind

theorem nodup_newUsages : ∀ (us seen : List UInt8), (newUsages seen us).Nodup := by
  intro us
  induction us with
  | nil => exact fun _ => List.nodup_nil
  | cons v us ih =>
    intro seen
    simp only [newUsages]
    split
    · exact ih seen
    · refine List.nodup_cons.mpr ⟨fun hmem => ?_, ih _⟩
      exact (mem_newUsages.mp hmem).2.2 List.mem_cons_self

theorem newUsages_append_singleton (k : UInt8) : ∀ (us seen : List UInt8),
    newUsages seen (us ++ [k]) =
      newUsages seen us ++ if k = 0 ∨ k ∈ seen ∨ k ∈ us then [] else [k] := by
  intro us
  induction us with
  | nil => intro seen; simp [newUsages]
  | cons v us ih =>
    intro seen
    simp only [List.cons_append, newUsages]
    split
    · rename_i hskip
      rw [ih]
      congr 1
      have hiff : (k = 0 ∨ k ∈ seen ∨ k ∈ us) ↔ (k = 0 ∨ k ∈ seen ∨ k ∈ v :: us) := by grind
      simp only [hiff]
    · rw [ih, List.cons_append]
      congr 2
      have hiff : (k = 0 ∨ k ∈ v :: seen ∨ k ∈ us) ↔ (k = 0 ∨ k ∈ seen ∨ k ∈ v :: us) := by grind
      simp only [hiff]

/-- Where no new usage repeats, the loop's filter is the intended reading. -/
theorem newUsages_eq_pressed : ∀ {us seen : List UInt8},
    (pressed seen us).Nodup → newUsages seen us = pressed seen us := by
  intro us
  induction us with
  | nil => exact fun _ => rfl
  | cons v us ih =>
    intro seen hnodup
    simp only [newUsages]
    split
    · rename_i hskip
      have hdrop : pressed seen (v :: us) = pressed seen us := by
        simp [pressed, List.filter_cons]; grind
      rw [hdrop] at hnodup ⊢
      exact ih hnodup
    · rename_i hnew
      have hkeep : pressed seen (v :: us) = v :: pressed seen us := by
        simp [pressed, List.filter_cons]; grind
      rw [hkeep] at hnodup ⊢
      obtain ⟨hv, hrest⟩ := List.nodup_cons.mp hnodup
      have hsame : pressed (v :: seen) us = pressed seen us := by
        apply List.filter_congr
        intro u hu
        have : u = v → u = 0 ∨ u ∈ seen := by
          rintro rfl
          by_contra hno
          exact hv (mem_pressed.mpr ⟨hu, by grind⟩)
        grind
      rw [ih (by rw [hsame]; exact hrest), hsame]

/-! ## One report after another -/

/-- With zero reserved bytes, the loop logs the intended new usages of a report exactly when its
first five slots suffice. -/
theorem pressed_eq_newUsages_iff (before now : KeyboardReport) :
    pressed (0 :: before.firstFive) (0 :: now.firstFive) = newUsages before.slots now.slots ↔
      FirstFiveSuffice before now := by
  have hzero : pressed (0 :: before.firstFive) (0 :: now.firstFive) =
      pressed before.firstFive now.firstFive := by
    simp only [pressed, List.filter_cons, ne_eq, not_true_eq_false, false_and, decide_false,
      Bool.false_eq_true, ↓reduceIte]
    apply List.filter_congr
    intro u _
    grind
  have hlost : (∀ u ∈ now.firstFive, u ≠ 0 → u = before.k6 → u ∈ before.firstFive) →
      pressed before.firstFive now.firstFive = pressed before.slots now.firstFive := by
    intro h
    apply List.filter_congr
    intro u hu
    have := h u hu
    simp only [KeyboardReport.slots, List.mem_append, List.mem_singleton]
    grind
  rw [hzero]
  constructor
  · intro heq
    have hsixth : ∀ u ∈ now.firstFive, u ≠ 0 → u = before.k6 → u ∈ before.firstFive := by
      intro u hu hne hk6
      by_contra hnot
      have hmem : u ∈ newUsages before.slots now.slots := heq ▸ mem_pressed.mpr ⟨hu, hne, hnot⟩
      exact (mem_newUsages.mp hmem).2.2 (by simp [KeyboardReport.slots, hk6])
    refine ⟨hsixth, ?_, ?_⟩
    · rw [← hlost hsixth, heq]
      exact nodup_newUsages _ _
    · by_contra hno
      simp only [not_or] at hno
      have hmem : now.k6 ∈ newUsages before.slots now.slots :=
        mem_newUsages.mpr ⟨by simp [KeyboardReport.slots], hno.1, hno.2.1⟩
      rw [← heq] at hmem
      exact hno.2.2 (mem_pressed.mp hmem).1
  · rintro ⟨hsixth, hdistinct, hnow⟩
    have hsplit : newUsages before.slots now.slots =
        newUsages before.slots (now.firstFive ++ [now.k6]) := rfl
    rw [hsplit, newUsages_append_singleton, if_pos hnow, List.append_nil,
      newUsages_eq_pressed hdistinct, hlost hsixth]

/-- The same over a whole sequence. -/
theorem pressedCodes_eq_wantedCodes_iff : ∀ (rs : List KeyboardReport) (before : KeyboardReport),
    before.reserved = 0 → (∀ r ∈ rs, r.reserved = 0) →
      (pressedCodes (curKeys before.bytes) (rs.map KeyboardReport.bytes) = wantedCodes before.slots rs ↔
        List.IsChain FirstFiveSuffice (before :: rs)) := by
  intro rs
  induction rs with
  | nil =>
    intro before _ _
    simp [pressedCodes, wantedCodes]
  | cons r rs ih =>
    intro before hbefore hrs
    have hr : r.reserved = 0 := hrs r List.mem_cons_self
    have hrest := ih r hr fun r' hr' => hrs r' (List.mem_cons_of_mem _ hr')
    rw [List.map_cons, pressedCodes_bytes, wantedCodes, List.cons.injEq, hrest,
      List.isChain_cons_cons, curKeys_bytes, hbefore, hr, pressed_eq_newUsages_iff]

/-- Codes determine outputs. -/
theorem emissions_eq_wantedOutput : ∀ {rs : List KeyboardReport} {prev : KeySlots}
    {before : List UInt8}, pressedCodes prev (rs.map KeyboardReport.bytes) = wantedCodes before rs →
      emissions prev (rs.map KeyboardReport.bytes) = wantedOutput before rs := by
  intro rs
  induction rs with
  | nil => exact fun _ => rfl
  | cons r rs ih =>
    intro prev before h
    rw [List.map_cons, pressedCodes_bytes, wantedCodes, List.cons.injEq] at h
    rw [List.map_cons, emissions, wantedOutput, translateReport_bytes, h.1, ih h.2]

theorem wantedCodes_nil_eq_released (rs : List KeyboardReport) :
    wantedCodes [] rs = wantedCodes KeyboardReport.released.slots rs := by
  have hseen : ∀ us, newUsages [] us = newUsages KeyboardReport.released.slots us := by
    have hgen : ∀ (us a b : List UInt8), (∀ u, u ≠ 0 → (u ∈ a ↔ u ∈ b)) →
        newUsages a us = newUsages b us := by
      intro us
      induction us with
      | nil => exact fun _ _ _ => rfl
      | cons v us ih =>
        intro a b hab
        have hcond : (v = 0 ∨ v ∈ a) ↔ (v = 0 ∨ v ∈ b) := by grind
        simp only [newUsages, hcond]
        rw [ih a b hab, ih (v :: a) (v :: b) (by grind)]
    exact fun us => hgen us _ _ (by simp [KeyboardReport.slots, KeyboardReport.firstFive,
      KeyboardReport.released])
  cases rs with
  | nil => rfl
  | cons r rs => rw [wantedCodes, wantedCodes, hseen]

/-! ## The reserved byte -/

/-- The key of usage 4 emits one character under every modifier byte. -/
theorem keyOutput_four_ne_nil (mod : UInt8) : keyOutput mod 0x04 ≠ [] := by
  unfold keyOutput
  cases shifted mod <;> cases ctrl mod <;> decide

/-- The reserved byte is read as a key: in the first report it adds its own output. -/
theorem emissions_reserved_ne (r : KeyboardReport) (rs : List KeyboardReport) :
    emissions .cleared (({ r with reserved := 0x04 } :: rs).map KeyboardReport.bytes) ≠
      emissions .cleared (({ r with reserved := 0 } :: rs).map KeyboardReport.bytes) := by
  intro heq
  simp only [List.map_cons, emissions, translateReport_bytes, List.cons.injEq] at heq
  have hset : pressed KeySlots.cleared.keys (0x04 :: r.firstFive) =
      0x04 :: pressed KeySlots.cleared.keys r.firstFive := rfl
  have hclear : pressed KeySlots.cleared.keys (0 :: r.firstFive) =
      pressed KeySlots.cleared.keys r.firstFive := rfl
  have hhead := heq.1
  simp only [KeyboardReport.firstFive] at hset hclear hhead
  rw [hset, hclear, List.flatMap_cons] at hhead
  exact keyOutput_four_ne_nil r.modifiers (List.append_left_eq_self.mp hhead)

/-- **No sequence but the empty one is read as intended**, since a reserved byte is taken as a key.
With zero reserved bytes, the logged keys are the intended ones exactly when for each report the
first five slots suffice, and then so is the emitted text. -/
theorem losesNoKey_iff (rs : List KeyboardReport) :
    (LosesNoKey rs ↔ rs = []) ∧
      ((∀ r ∈ rs, r.reserved = 0) →
        (pressedCodes .cleared (rs.map KeyboardReport.bytes) = wantedCodes [] rs ↔
          List.IsChain FirstFiveSuffice (.released :: rs)) ∧
        (List.IsChain FirstFiveSuffice (.released :: rs) →
          emissions .cleared (rs.map KeyboardReport.bytes) = wantedOutput [] rs)) := by
  constructor
  · constructor
    · intro h
      cases rs with
      | nil => rfl
      | cons r rs =>
        have hset := h.reserved ({ r with reserved := 0x04 } :: rs) (by simp [KeyboardReport.clearReserved])
        have hclear := h.reserved ({ r with reserved := 0 } :: rs)
          (by simp [KeyboardReport.clearReserved])
        exact absurd (hset.trans hclear.symm) (emissions_reserved_ne r rs)
    · rintro rfl
      refine ⟨rfl, fun rs' hsame => ?_⟩
      rw [List.map_eq_nil_iff.mp hsame]
  · intro hzero
    have hiff := pressedCodes_eq_wantedCodes_iff rs .released rfl hzero
    rw [← wantedCodes_nil_eq_released] at hiff
    exact ⟨hiff, fun hchain => emissions_eq_wantedOutput (hiff.mpr hchain)⟩

/-- A key reported in the sixth slot is lost. -/
theorem not_losesNoKey_sixth_slot : ¬∀ rs, LosesNoKey rs := by
  intro h
  have hexact := (h [{ KeyboardReport.released with k6 := 0x04 }]).exact
  revert hexact
  decide

end BleKbdHost.Keys
