/-!
# Keycode translation

`translate_report` of `bt_kbd.c`: the keymaps, the output of one key, and the loop over the six
bytes it takes as keys. Each new key appends to the characters handed to `emit_key`.
-/

namespace BleKbdHost.Keys

/-! ## Keymaps -/

/-- `keymap_normal`. -/
def keymapNormal : List UInt8 :=
  [0, 0, 0, 0,
    -- a .. z
    0x61, 0x62, 0x63, 0x64, 0x65, 0x66, 0x67, 0x68, 0x69, 0x6A, 0x6B, 0x6C, 0x6D,
    0x6E, 0x6F, 0x70, 0x71, 0x72, 0x73, 0x74, 0x75, 0x76, 0x77, 0x78, 0x79, 0x7A,
    -- 1 .. 9, 0
    0x31, 0x32, 0x33, 0x34, 0x35, 0x36, 0x37, 0x38, 0x39, 0x30,
    -- return, escape, delete, tab, space
    0x0D, 0x1B, 0x7F, 0x09, 0x20,
    -- minus, equals, brackets, backslash
    0x2D, 0x3D, 0x5B, 0x5D, 0x5C,
    -- none, semicolon, quote, backquote
    0, 0x3B, 0x27, 0x60,
    -- comma, full stop, slash
    0x2C, 0x2E, 0x2F]

/-- `keymap_shift`. -/
def keymapShift : List UInt8 :=
  [0, 0, 0, 0,
    -- A .. Z
    0x41, 0x42, 0x43, 0x44, 0x45, 0x46, 0x47, 0x48, 0x49, 0x4A, 0x4B, 0x4C, 0x4D,
    0x4E, 0x4F, 0x50, 0x51, 0x52, 0x53, 0x54, 0x55, 0x56, 0x57, 0x58, 0x59, 0x5A,
    -- ! @ # $ % ^ & * ( )
    0x21, 0x40, 0x23, 0x24, 0x25, 0x5E, 0x26, 0x2A, 0x28, 0x29,
    -- return, escape, delete, tab, space
    0x0D, 0x1B, 0x7F, 0x09, 0x20,
    -- underscore, plus, braces, bar
    0x5F, 0x2B, 0x7B, 0x7D, 0x7C,
    -- none, colon, double quote, tilde
    0, 0x3A, 0x22, 0x7E,
    -- less, greater, question mark
    0x3C, 0x3E, 0x3F]

/-- `MOD_SHIFT`. -/
def modShift : UInt8 := 0x02 ||| 0x20

/-- `MOD_CTRL`. -/
def modCtrl : UInt8 := 0x01 ||| 0x10

/-! ## One key -/

/-- `mod & MOD_SHIFT`. -/
def shifted (mod : UInt8) : Bool := mod &&& modShift != 0

/-- `mod & MOD_CTRL`. -/
def ctrl (mod : UInt8) : Bool := mod &&& modCtrl != 0

/-- What `send_vt100` emits for a cursor key: escape, bracket, final letter. -/
def sendVt100 (final : UInt8) : List UInt8 := [0x1B, 0x5B, final]

/-- The two control corrections; after the first the character is no longer a letter. -/
def ctrlChar (ch : UInt8) : UInt8 :=
  let ch := if 0x61 ≤ ch ∧ ch ≤ 0x7A then ch - 96 else ch
  if 0x41 ≤ ch ∧ ch ≤ 0x5A then ch - 64 else ch

/-- What one newly pressed key emits. -/
def keyOutput (mod code : UInt8) : List UInt8 :=
  if code = 0x4F then sendVt100 0x43
  else if code = 0x50 then sendVt100 0x44
  else if code = 0x51 then sendVt100 0x42
  else if code = 0x52 then sendVt100 0x41
  else
    let ch :=
      if code.toNat < keymapNormal.length then
        (if shifted mod then keymapShift else keymapNormal).getD code.toNat 0
      else 0
    let ch := if ctrl mod then ctrlChar ch else ch
    if ch ≠ 0 then [ch] else []

/-! ## One report -/

/-- A six byte key array: `s_prev_keys` and `cur_keys`. -/
structure KeySlots where
  keys : List UInt8
  six : keys.length = 6
  deriving DecidableEq, Repr

/-- The cleared `s_prev_keys`. -/
def KeySlots.cleared : KeySlots := ⟨[0, 0, 0, 0, 0, 0], rfl⟩

/-- `cur_keys`: bytes 1 to 6 of the report, zero where it is shorter. -/
def curKeys (report : List UInt8) : KeySlots :=
  ⟨(List.range 6).map fun i => if i + 1 < report.length then report.getD (i + 1) 0 else 0, by simp⟩

/-- The codes of `codes` that are set and were not pressed before, in the order of the loop. -/
def pressed (prev codes : List UInt8) : List UInt8 :=
  codes.filter fun code => code ≠ 0 ∧ code ∉ prev

/-- `translate_report`: the `s_prev_keys` it leaves and the characters it emits. -/
def translateReport (prev : KeySlots) (report : List UInt8) : KeySlots × List UInt8 :=
  if report.length < 3 then
    (prev, [])
  else
    (curKeys report,
      (pressed prev.keys (curKeys report).keys).flatMap (keyOutput (report.getD 0 0)))

/-- What a sequence of reports emits, report by report. -/
def emissions (prev : KeySlots) : List (List UInt8) → List (List UInt8)
  | [] => []
  | report :: reports =>
    (translateReport prev report).2 :: emissions (translateReport prev report).1 reports

/-- The codes a sequence of reports logs as newly pressed, report by report. -/
def pressedCodes (prev : KeySlots) : List (List UInt8) → List (List UInt8)
  | [] => []
  | report :: reports =>
    (if report.length < 3 then [] else pressed prev.keys (curKeys report).keys) ::
      pressedCodes (translateReport prev report).1 reports

/-- The `s_prev_keys` that a sequence of reports leaves. -/
def held (prev : KeySlots) (reports : List (List UInt8)) : KeySlots :=
  reports.foldl (fun keys report => (translateReport keys report).1) prev

/-! ### Sequences -/

theorem emissions_append (prev : KeySlots) (reports reports' : List (List UInt8)) :
    emissions prev (reports ++ reports') =
      emissions prev reports ++ emissions (held prev reports) reports' := by
  induction reports generalizing prev with
  | nil => rfl
  | cons report reports ih =>
    rw [List.cons_append, emissions, emissions, ih, List.cons_append]
    rfl

theorem held_append (prev : KeySlots) (reports reports' : List (List UInt8)) :
    held prev (reports ++ reports') = held (held prev reports) reports' :=
  List.foldl_append

theorem translateReport_of_short {report : List UInt8} (h : report.length < 3) (prev : KeySlots) :
    translateReport prev report = (prev, []) := by
  unfold translateReport
  rw [if_pos h]

/-- Reports that are too short to hold keys leave `s_prev_keys` alone. -/
theorem held_of_short {reports : List (List UInt8)} (h : ∀ report ∈ reports, report.length < 3)
    (prev : KeySlots) : held prev reports = prev := by
  induction reports with
  | nil => rfl
  | cons report reports ih =>
    have hshort := translateReport_of_short (h report List.mem_cons_self) prev
    rw [held, List.foldl_cons, hshort]
    exact ih fun r hr => h r (List.mem_cons_of_mem report hr)

/-- No key emits NUL. -/
theorem nul_not_mem_keyOutput (mod code : UInt8) : 0 ∉ keyOutput mod code := by
  intro hout
  unfold keyOutput at hout
  split at hout
  · simp [sendVt100] at hout
  · split at hout
    · simp [sendVt100] at hout
    · split at hout
      · simp [sendVt100] at hout
      · split at hout
        · simp [sendVt100] at hout
        · simp only at hout
          generalize (if ctrl mod = true then _ else _ : UInt8) = ch at hout
          split at hout
          · rename_i hne
            exact hne (List.mem_singleton.mp hout).symm
          · cases hout

/-- `translate_report` emits no NUL. -/
theorem nul_not_mem_translateReport (prev : KeySlots) (report : List UInt8) :
    0 ∉ (translateReport prev report).2 := by
  unfold translateReport
  split
  · exact List.not_mem_nil
  · intro hmem
    obtain ⟨code, -, hout⟩ := List.mem_flatMap.mp hmem
    exact nul_not_mem_keyOutput _ code hout

end BleKbdHost.Keys
