/-!
# HID report descriptors: short items and report entries

The vocabulary of `esp_hid_common.h` that the report map parser works with: the item tags, the
usages it classifies, the entries of a parsed map, and `parse_cmd`, which cuts one short item off
the descriptor. Every access to the descriptor bytes goes through `readAt`/`readBytes`, which
fault outside the array.
-/

namespace BleKbdHost.Hid

/-- What a C program must not do: each of these ends the modelled run. -/
inductive Fault
  | nullDeref
  | outOfBounds
  | uninitialised
  | assertFailed
  | doubleFree
  | useAfterFree
  deriving DecidableEq, Repr

/-! ## Constants -/

namespace HidRm

def input : UInt8 := 0x80
def output : UInt8 := 0x90
def feature : UInt8 := 0xb0
def collection : UInt8 := 0xa0
def endCollection : UInt8 := 0xc0
def usagePage : UInt8 := 0x04
def reportSize : UInt8 := 0x74
def reportId : UInt8 := 0x84
def reportCount : UInt8 := 0x94
def usage : UInt8 := 0x08

end HidRm

namespace HidUsagePage

def genericDesktop : UInt16 := 0x01
def consumerDevice : UInt16 := 0x0C

end HidUsagePage

namespace HidUsage

def keyboard : UInt16 := 0x06
def mouse : UInt16 := 0x02
def joystick : UInt16 := 0x04
def gamepad : UInt16 := 0x05
def consumerControl : UInt16 := 0x01

end HidUsage

namespace Appearance

def generic : UInt16 := 0x03C0
def keyboard : UInt16 := 0x03C1
def mouse : UInt16 := 0x03C2
def joystick : UInt16 := 0x03C3
def gamepad : UInt16 := 0x03C4

end Appearance

namespace ReportType

def input : UInt8 := 1
def output : UInt8 := 2
def feature : UInt8 := 3

end ReportType

namespace ProtocolMode

def boot : UInt8 := 0x00
def report : UInt8 := 0x01

end ProtocolMode

/-- `esp_hid_usage_t`. -/
inductive EspHidUsage
  | generic
  | keyboard
  | mouse
  | joystick
  | gamepad
  | tablet
  | ccontrol
  | vendor
  deriving DecidableEq, Repr

/-- The enumerator's value: the bit it sets in a usage mask. -/
def EspHidUsage.value : EspHidUsage → UInt8
  | .generic => 0
  | .keyboard => 1
  | .mouse => 2
  | .joystick => 4
  | .gamepad => 8
  | .tablet => 16
  | .ccontrol => 32
  | .vendor => 64

/-- `esp_hid_report_item_t`. The parser never writes `map_index`. -/
structure EspHidReportItem where
  mapIndex : UInt8 := 0
  reportId : UInt8
  reportType : UInt8
  protocolMode : UInt8
  usage : EspHidUsage
  valueLen : UInt16
  deriving DecidableEq, Repr

/-- `esp_hid_report_map_t`. -/
structure EspHidReportMap where
  usage : EspHidUsage
  appearance : UInt16
  reportsLen : UInt8
  reports : List EspHidReportItem
  deriving DecidableEq, Repr

/-! ## Short items -/

/-- `hid_report_cmd_t`: one short item, with the `value` view of its data union. -/
structure HidReportCmd where
  cmd : UInt8
  len : Nat
  value : UInt32
  deriving DecidableEq, Repr

/-- `data[i]`. -/
def readAt (data : List UInt8) (i : Nat) : Except Fault UInt8 :=
  match data[i]? with
  | some b => .ok b
  | none => .error .outOfBounds

/-- The source side of `memcpy(_, data + i, n)`. -/
def readBytes (data : List UInt8) (i n : Nat) : Except Fault (List UInt8) :=
  if i + n ≤ data.length then .ok ((data.drop i).take n) else .error .outOfBounds

/-- The `value` member of the data union: its bytes in little-endian order. -/
def leValue : List UInt8 → UInt32
  | [] => 0
  | b :: bs => b.toUInt32 + 256 * leValue bs

/-- What `parse_cmd` reports: the `0` return at the end of the descriptor, the `-1` return, or an
item together with the number of bytes it takes. -/
inductive CmdResult
  | atEnd
  | failed
  | item (cmd : HidReportCmd) (size : Nat)
  deriving DecidableEq, Repr

/-- The data length that the two low bits of an item's first byte announce. -/
def itemDataLen (b : UInt8) : Nat :=
  if b &&& 0x03 = 3 then 4 else (b &&& 0x03).toNat

/-- `parse_cmd`, with its allocation succeeding. -/
def parseCmd (data : List UInt8) (index : Nat) : Except Fault CmdResult := do
  if index = data.length then return .atEnd
  let b ← readAt data index
  let len := itemDataLen b
  if data.length - index - 1 < len then return .failed
  let bytes ← readBytes data (index + 1) len
  return .item ⟨b &&& 0xFC, len, leValue bytes⟩ (len + 1)

theorem readAt_of_lt {data : List UInt8} {i : Nat} (h : i < data.length) :
    readAt data i = .ok data[i] := by
  simp [readAt, h]

theorem readBytes_of_le {data : List UInt8} {i n : Nat} (h : i + n ≤ data.length) :
    readBytes data i n = .ok ((data.drop i).take n) := by
  simp [readBytes, h]

/-- What `parse_cmd` does inside the descriptor: it never reads past the end, and either refuses
an item whose data is cut off or consumes at least one byte and stays inside. -/
theorem parseCmd_spec {data : List UInt8} {index : Nat} (h : index < data.length) :
    (parseCmd data index = .ok .failed ∧
      data.length - index - 1 < itemDataLen data[index]) ∨
    ∃ cmd size, parseCmd data index = .ok (.item cmd size) ∧ 0 < size ∧
      index + size ≤ data.length := by
  unfold parseCmd
  rw [if_neg (Nat.ne_of_lt h), readAt_of_lt h]
  simp only [bind, Except.bind, pure, Except.pure]
  by_cases hcut : data.length - index - 1 < itemDataLen data[index]
  · exact .inl ⟨by rw [if_pos hcut], hcut⟩
  · have hin : index + 1 + itemDataLen data[index] ≤ data.length := by omega
    refine .inr ⟨⟨data[index] &&& 0xFC, itemDataLen data[index],
      leValue ((data.drop (index + 1)).take (itemDataLen data[index]))⟩,
      itemDataLen data[index] + 1, ?_, by omega, by omega⟩
    rw [if_neg hcut, readBytes_of_le hin]

end BleKbdHost.Hid
