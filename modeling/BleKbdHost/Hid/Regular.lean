import Mathlib.Algebra.GroupWithZero.Nat
import BleKbdHost.Hid.Items

/-!
# Regular report descriptors

The report descriptors that the parser is meant for, and the report map that each of them describes.
A descriptor is a list of application collections; the body of a collection may nest further
collections and may spread items that the parser does not look at between those it does. None of
this mentions the parser.
-/

namespace BleKbdHost.Hid

/-! ## Lists of entries -/

/-- Lists that are put together from parts agree exactly if all parts do, where no part of the one is
longer than the part of the other. -/
theorem flatMap_eq_flatMap_iff {α β : Type} {f g : α → List β} {l : List α}
    (h : ∀ a ∈ l, (f a).length ≤ (g a).length) :
    (l.flatMap f).length ≤ (l.flatMap g).length ∧
      (l.flatMap f = l.flatMap g ↔ ∀ a ∈ l, f a = g a) := by
  induction l with
  | nil => simp
  | cons a l ih =>
    obtain ⟨hle, hiff⟩ := ih fun b hb => h b (List.mem_cons_of_mem a hb)
    have hfirst := h a List.mem_cons_self
    rw [List.forall_mem_cons, ← hiff, List.flatMap_cons, List.flatMap_cons, List.length_append,
      List.length_append]
    refine ⟨Nat.add_le_add hfirst hle, ?_⟩
    constructor
    · intro heq
      have hlen := congrArg List.length heq
      rw [List.length_append, List.length_append] at hlen
      exact List.append_inj heq (by omega)
    · rintro ⟨hhead, htail⟩
      rw [hhead, htail]

/-! ## Short items -/

/-- The number of data bytes of a short item, as the two low bits of its first byte announce it. -/
inductive ItemSize
  | zero
  | one
  | two
  | four
  deriving DecidableEq, Repr

def ItemSize.bytes : ItemSize → Nat
  | .zero => 0
  | .one => 1
  | .two => 2
  | .four => 4

def ItemSize.bits : ItemSize → UInt8
  | .zero => 0
  | .one => 1
  | .two => 2
  | .four => 3

/-- The data of a short item: a number that fits into its bytes. -/
structure ItemData where
  size : ItemSize
  value : Nat
  fits : value < 256 ^ size.bytes

structure ShortItem where
  tag : UInt8
  data : ItemData
  /-- The low bits of a tag are free for the size. -/
  free : tag &&& 0x03 = 0

/-- The `n` bytes of a number, the least significant first. -/
def leBytes : Nat → Nat → List UInt8
  | 0, _ => []
  | n + 1, value => UInt8.ofNat value :: leBytes n (value / 256)

def ShortItem.encode (item : ShortItem) : List UInt8 :=
  (item.tag ||| item.data.size.bits) :: leBytes item.data.size.bytes item.data.value

/-! ## Bodies -/

/-- The types of main items. -/
inductive MainType
  | input
  | output
  | feature
  deriving DecidableEq, Repr

def MainType.tag : MainType → UInt8
  | .input => HidRm.input
  | .output => HidRm.output
  | .feature => HidRm.feature

def MainType.reportType : MainType → UInt8
  | .input => ReportType.input
  | .output => ReportType.output
  | .feature => ReportType.feature

/-- The tags that mean something in a collection. -/
def handledTags : List UInt8 :=
  [HidRm.reportId, HidRm.usagePage, HidRm.usage, HidRm.reportSize, HidRm.reportCount, HidRm.input,
    HidRm.output, HidRm.feature, HidRm.collection, HidRm.endCollection]

/-- An item of a body. -/
inductive BodyItem
  | reportId (data : ItemData)
  | usagePage (data : ItemData)
  | usage (data : ItemData)
  | reportSize (data : ItemData)
  | reportCount (data : ItemData)
  | main (type : MainType) (data : ItemData)
  | ignored (item : ShortItem) (h : item.tag ∉ handledTags)

def BodyItem.short : BodyItem → ShortItem
  | .reportId data => ⟨HidRm.reportId, data, rfl⟩
  | .usagePage data => ⟨HidRm.usagePage, data, rfl⟩
  | .usage data => ⟨HidRm.usage, data, rfl⟩
  | .reportSize data => ⟨HidRm.reportSize, data, rfl⟩
  | .reportCount data => ⟨HidRm.reportCount, data, rfl⟩
  | .main .input data => ⟨HidRm.input, data, rfl⟩
  | .main .output data => ⟨HidRm.output, data, rfl⟩
  | .main .feature data => ⟨HidRm.feature, data, rfl⟩
  | .ignored item _ => item

def BodyItem.reportIds : BodyItem → List Nat
  | .reportId data => [data.value]
  | _ => []

/-- What stands between the opening and the closing item of a collection. -/
inductive Body
  | nil
  | item (item : BodyItem) (rest : Body)
  | nested (opening : ItemData) (inner : Body) (closing : ItemData) (rest : Body)

namespace Body

def items : Body → List ShortItem
  | nil => []
  | item i rest => i.short :: rest.items
  | nested opening inner closing rest =>
    ⟨HidRm.collection, opening, rfl⟩ ::
      (inner.items ++ ⟨HidRm.endCollection, closing, rfl⟩ :: rest.items)

/-- How deep collections are nested. -/
def depth : Body → Nat
  | nil => 0
  | item _ rest => rest.depth
  | nested _ inner _ rest => max (inner.depth + 1) rest.depth

/-- The values of the report id items. -/
def reportIds : Body → List Nat
  | nil => []
  | item i rest => i.reportIds ++ rest.reportIds
  | nested _ inner _ rest => inner.reportIds ++ rest.reportIds

end Body

/-- The report size and count that hold at a place of a body, which nested collections inherit, and
the bits of each type before it. -/
structure Totals where
  size : Nat := 0
  count : Nat := 0
  bits : MainType → Nat := fun _ => 0

/-- The totals behind an item: a main item has `count` fields of `size` bits. -/
def BodyItem.total (t : Totals) : BodyItem → Totals
  | .reportSize data => { t with size := data.value }
  | .reportCount data => { t with count := data.value }
  | .main type _ =>
    { t with bits := fun type' => t.bits type' + if type' = type then t.size * t.count else 0 }
  | _ => t

/-- The totals behind a body. -/
def Body.total (t : Totals) : Body → Totals
  | nil => t
  | item i rest => rest.total (i.total t)
  | nested _ inner _ rest => rest.total (inner.total t)

/-! ## Application collections -/

structure Collection where
  page : ItemData
  usage : ItemData
  opening : ItemData
  body : Body
  closing : ItemData
  /-- The report id, 0 if the collection has none. -/
  reportId : UInt8
  page_lt : page.value < 65536
  usage_lt : usage.value < 65536
  /-- It is an application collection. -/
  application : opening.value = 1
  depth_lt : body.depth < 255
  reportId_eq : ∀ id ∈ body.reportIds, id = reportId.toNat
  reportId_none : reportId = 0 ↔ body.reportIds = []
  /-- The reports have whole bytes. -/
  bytes : ∀ type, 8 ∣ (body.total {}).bits type
  bits_lt : ∀ type, (body.total {}).bits type < 65536

namespace Collection

variable (coll : Collection)

def items : List ShortItem :=
  ⟨HidRm.usagePage, coll.page, rfl⟩ :: ⟨HidRm.usage, coll.usage, rfl⟩ ::
    ⟨HidRm.collection, coll.opening, rfl⟩ ::
      (coll.body.items ++ [⟨HidRm.endCollection, coll.closing, rfl⟩])

/-- The total bits of a type. -/
def bits (type : MainType) : Nat := (coll.body.total {}).bits type

/-- The usage class of the reports. -/
def usageClass : EspHidUsage :=
  match coll.page.value, coll.usage.value with
  | 0x01, 0x06 => .keyboard
  | 0x01, 0x02 => .mouse
  | 0x01, 0x04 => .joystick
  | 0x01, 0x05 => .gamepad
  | 0x0C, 0x01 => .ccontrol
  | page, _ => if 0xFF ≤ page then .vendor else .generic

/-- The length of the boot report of a usage class, if it has one of the type. -/
def bootLen : EspHidUsage → MainType → Option UInt16
  | .keyboard, .input => some 8
  | .keyboard, .output => some 1
  | .mouse, .input => some 3
  | _, _ => none

def entry (type : MainType) (mode : UInt8) (len : UInt16) : EspHidReportItem :=
  { reportId := coll.reportId, reportType := type.reportType, protocolMode := mode
    usage := coll.usageClass, valueLen := len }

/-- The report of a type, if it has any bits, and the boot report of the type. -/
def reportsOf (type : MainType) : List EspHidReportItem :=
  if coll.bits type = 0 then []
  else
    coll.entry type ProtocolMode.report (coll.bits type / 8).toUInt16 ::
      (bootLen coll.usageClass type).toList.map (coll.entry type ProtocolMode.boot)

def reports : List EspHidReportItem :=
  coll.reportsOf .input ++ coll.reportsOf .output ++ coll.reportsOf .feature

end Collection

/-! ## Descriptors -/

/-- The appearance of a usage class. -/
def EspHidUsage.appearance : EspHidUsage → UInt16
  | .keyboard | .ccontrol => Appearance.keyboard
  | .mouse => Appearance.mouse
  | .joystick => Appearance.joystick
  | .gamepad => Appearance.gamepad
  | _ => Appearance.generic

/-- A descriptor with at least one report, and no more than fit into the parsed map. -/
structure RegularDescriptor where
  colls : List Collection
  nonempty : 1 ≤ (colls.flatMap (·.reports)).length
  fit : (colls.flatMap (·.reports)).length ≤ 64

namespace RegularDescriptor

variable (desc : RegularDescriptor)

def items : List ShortItem := desc.colls.flatMap (·.items)

def encode : List UInt8 := desc.items.flatMap (·.encode)

/-- The first usage class of this order that occurs. -/
def dominant : EspHidUsage :=
  (([.keyboard, .mouse, .joystick, .gamepad, .ccontrol] : List EspHidUsage).find? fun u =>
    desc.colls.any (·.usageClass == u)).getD .generic

def reports : List EspHidReportItem := desc.colls.flatMap (·.reports)

/-- The report map that the descriptor describes. -/
def reportMap : EspHidReportMap :=
  { usage := desc.dominant
    appearance := desc.dominant.appearance
    reportsLen := desc.reports.length.toUInt8
    reports := desc.reports }

end RegularDescriptor

end BleKbdHost.Hid
