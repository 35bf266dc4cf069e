import Mathlib.Algebra.Order.Ring.Int
import Mathlib.Data.List.Induction
import Mathlib.Data.List.Infix
import BleKbdHost.Hid.Lengths

/-!
# The nesting of collections

The parser counts the depth of collections in a byte, and does not look where a descriptor ends.
`properlyNested_iff` says which of the descriptors that it accepts are sequences of application
collections.
-/

namespace BleKbdHost.Hid

/-! ## Nested items -/

/-- Items in which every collection that is opened is closed, and none besides. -/
inductive Nested : List HidReportCmd → Prop
  | nil : Nested []
  | item {body : List HidReportCmd} {cmd : HidReportCmd} (hbody : Nested body)
      (hopening : cmd.cmd ≠ HidRm.collection) (hclosing : cmd.cmd ≠ HidRm.endCollection) :
      Nested (body ++ [cmd])
  | collection {body inner : List HidReportCmd} {opening closing : HidReportCmd} (hbody : Nested body)
      (hopening : opening.cmd = HidRm.collection) (hinner : Nested inner)
      (hclosing : closing.cmd = HidRm.endCollection) :
      Nested (body ++ (opening :: inner ++ [closing]))

/-- The header of an application collection. -/
structure Header (page usage opening : HidReportCmd) : Prop where
  page : page.cmd = HidRm.usagePage
  usage : usage.cmd = HidRm.usage
  application : opening.value = 1
  opening : opening.cmd = HidRm.collection

/-- A sequence of application collections. -/
inductive Blocks : List HidReportCmd → Prop
  | nil : Blocks []
  | block {before body : List HidReportCmd} {page usage opening closing : HidReportCmd}
      (hbefore : Blocks before) (hheader : Header page usage opening) (hbody : Nested body)
      (hclosing : closing.cmd = HidRm.endCollection) :
      Blocks (before ++ (page :: usage :: opening :: body ++ [closing]))

/-- Items behind the opening item of an application collection, with `n` collections open. -/
inductive Within : Nat → List HidReportCmd → Prop
  | application {body : List HidReportCmd} (hbody : Nested body) : Within 1 body
  | deeper {n : Nat} {before body : List HidReportCmd} {opening : HidReportCmd}
      (hbefore : Within n before) (hopening : opening.cmd = HidRm.collection)
      (hbody : Nested body) : Within (n + 1) (before ++ opening :: body)

theorem Nested.append {body body' : List HidReportCmd} (h : Nested body) (h' : Nested body') :
    Nested (body ++ body') := by
  induction h' with
  | nil => rwa [List.append_nil]
  | item _ hopening hclosing ih =>
    rw [← List.append_assoc]
    exact ih.item hopening hclosing
  | collection _ hopening hinner hclosing ih _ =>
    rw [← List.append_assoc]
    exact ih.collection hopening hinner hclosing

namespace Within

variable {n : Nat} {body : List HidReportCmd} {cmd : HidReportCmd}

theorem pos (h : Within n body) : 1 ≤ n := by
  induction h with
  | application _ => exact Nat.le_refl 1
  | deeper _ _ _ ih => omega

theorem append {inner : List HidReportCmd} (h : Within n body) (hinner : Nested inner) :
    Within n (body ++ inner) := by
  cases h with
  | application hbody => exact .application (hbody.append hinner)
  | deeper hbefore hopening hbody =>
    rw [List.append_assoc, List.cons_append]
    exact .deeper hbefore hopening (hbody.append hinner)

theorem item (h : Within n body) (hopening : cmd.cmd ≠ HidRm.collection)
    (hclosing : cmd.cmd ≠ HidRm.endCollection) : Within n (body ++ [cmd]) :=
  h.append (Nested.nil.item hopening hclosing)

theorem «open» (h : Within n body) (hopening : cmd.cmd = HidRm.collection) :
    Within (n + 1) (body ++ [cmd]) := .deeper h hopening .nil

/-- The end of a nested collection. -/
theorem close (h : Within n body) (hn : n ≠ 1) (hclosing : cmd.cmd = HidRm.endCollection) :
    Within (n - 1) (body ++ [cmd]) := by
  cases h with
  | application _ => exact absurd rfl hn
  | deeper hbefore hopening hbody =>
    rw [List.append_assoc]
    exact hbefore.append (Nested.nil.collection hopening hbody hclosing)

/-- Only the application collection is open. -/
theorem nested (h : Within 1 body) : Nested body := by
  cases h with
  | application hbody => exact hbody
  | deeper hbefore _ _ => exact absurd hbefore.pos (by decide)

end Within

/-! ## Counting -/

/-- By how much an item changes the number of open collections. -/
def nesting (cmd : HidReportCmd) : Int :=
  if cmd.cmd = HidRm.collection then 1 else if cmd.cmd = HidRm.endCollection then -1 else 0

/-- How many more collections are opened than closed. -/
def excess (cmds : List HidReportCmd) : Int := (cmds.map nesting).sum

@[simp] theorem excess_nil : excess [] = 0 := rfl

@[simp] theorem excess_cons (cmd : HidReportCmd) (cmds : List HidReportCmd) :
    excess (cmd :: cmds) = nesting cmd + excess cmds := List.sum_cons

@[simp] theorem excess_append (cmds cmds' : List HidReportCmd) :
    excess (cmds ++ cmds') = excess cmds + excess cmds' := by
  unfold excess
  rw [List.map_append, List.sum_append]

theorem nesting_of_collection {cmd : HidReportCmd} (h : cmd.cmd = HidRm.collection) :
    nesting cmd = 1 := if_pos h

theorem nesting_of_endCollection {cmd : HidReportCmd} (h : cmd.cmd = HidRm.endCollection) :
    nesting cmd = -1 := by
  unfold nesting
  rw [h]
  rfl

theorem nesting_of_item {cmd : HidReportCmd} (hopening : cmd.cmd ≠ HidRm.collection)
    (hclosing : cmd.cmd ≠ HidRm.endCollection) : nesting cmd = 0 := by
  unfold nesting
  rw [if_neg hopening, if_neg hclosing]

theorem Nested.excess {body : List HidReportCmd} (h : Nested body) : excess body = 0 := by
  induction h with
  | nil => rfl
  | item _ hopening hclosing ih => simp [ih, nesting_of_item hopening hclosing]
  | collection _ hopening _ hclosing ih ihInner =>
    simp [ih, ihInner, nesting_of_collection hopening, nesting_of_endCollection hclosing]

theorem Header.excess {page usage opening : HidReportCmd} (h : Header page usage opening)
    (cmds : List HidReportCmd) :
    excess (page :: usage :: opening :: cmds) = 1 + Hid.excess cmds := by
  have hpage : nesting page = 0 := by
    unfold nesting
    rw [h.page]
    rfl
  have husage : nesting usage = 0 := by
    unfold nesting
    rw [h.usage]
    rfl
  simp [hpage, husage, nesting_of_collection h.opening]

theorem Blocks.excess {cmds : List HidReportCmd} (h : Blocks cmds) : excess cmds = 0 := by
  induction h with
  | nil => rfl
  | block _ hheader hbody hclosing ih =>
    rw [excess_append, ih, List.cons_append, List.cons_append, List.cons_append, hheader.excess,
      excess_append, hbody.excess, excess_cons, nesting_of_endCollection hclosing]
    rfl

theorem Within.excess {n : Nat} {body : List HidReportCmd} (h : Within n body) :
    excess body = (n : Int) - 1 := by
  induction h with
  | application hbody => exact hbody.excess
  | deeper _ hopening hbody ih =>
    rw [excess_append, ih, excess_cons, hbody.excess, nesting_of_collection hopening]
    omega

/-- A sequence of application collections ends with the end of one. -/
theorem Blocks.last {cmds : List HidReportCmd} {cmd : HidReportCmd} (h : Blocks (cmds ++ [cmd])) :
    cmd.cmd = HidRm.endCollection := by
  generalize hall : cmds ++ [cmd] = all at h
  cases h with
  | nil => simp at hall
  | block _ _ _ hclosing =>
    rw [← List.append_assoc] at hall
    have hlast := (List.append_inj' hall rfl).2
    cases hlast
    exact hclosing

/-! ## The item machine -/

theorem handleCmds_append (st : ParserStatics) (cmds cmds' : List HidReportCmd) :
    handleCmds st (cmds ++ cmds') =
      if (handleCmds st cmds).2 then handleCmds (handleCmds st cmds).1 cmds'
      else handleCmds st cmds := by
  induction cmds generalizing st with
  | nil => rfl
  | cons cmd cmds ih =>
    rw [List.cons_append, handleCmds_cons, handleCmds_cons, ih]
    by_cases hcmd : (handleCmd st cmd).2 = true
    · rw [if_pos hcmd, if_pos hcmd]
    · rw [if_neg hcmd, if_neg hcmd, if_neg hcmd]

/-- What every accepted item preserves holds behind every prefix of accepted items. -/
theorem accepted_induction {I : List HidReportCmd → ParserStatics → Prop} {st : ParserStatics}
    {cmds : List HidReportCmd} (hok : (handleCmds st cmds).2 = true) (hstart : I [] st)
    (hstep : ∀ before cmd st', before ++ [cmd] <+: cmds → I before st' →
      (handleCmd st' cmd).2 = true → I (before ++ [cmd]) (handleCmd st' cmd).1) :
    ∀ before, before <+: cmds → I before (handleCmds st before).1 := by
  intro before
  induction before using List.reverseRecOn with
  | nil => exact fun _ => hstart
  | append_singleton before cmd ih =>
    intro hprefix
    have hbefore : before <+: cmds := (List.prefix_append before [cmd]).trans hprefix
    obtain ⟨rest, hrest⟩ := hprefix
    rw [← hrest, List.append_assoc, handleCmds_append] at hok
    by_cases hrun : (handleCmds st before).2 = true
    · rw [if_pos hrun, List.singleton_append, handleCmds_cons] at hok
      rw [handleCmds_append, if_pos hrun, handleCmds_cons]
      by_cases hcmd : (handleCmd (handleCmds st before).1 cmd).2 = true
      · rw [if_pos hcmd]
        exact hstep before cmd _ ⟨rest, hrest⟩ (ih hbefore) hcmd
      · rw [if_neg hcmd] at hok
        exact absurd hok hcmd
    · rw [if_neg hrun] at hok
      exact absurd hok hrun

/-! ## Shallow descriptors -/

/-- Where the item machine is behind items that are not nested deeper than its counter. -/
inductive Walk (st : ParserStatics) : List HidReportCmd → Prop
  | between {before : List HidReportCmd} (hbefore : Blocks before)
      (hstep : st.parseStep = .waitUsagePage) : Walk st before
  | page {before : List HidReportCmd} {page : HidReportCmd} (hbefore : Blocks before)
      (hpage : page.cmd = HidRm.usagePage) (hstep : st.parseStep = .waitUsage) :
      Walk st (before ++ [page])
  | usage {before : List HidReportCmd} {page usage : HidReportCmd} (hbefore : Blocks before)
      (hpage : page.cmd = HidRm.usagePage) (husage : usage.cmd = HidRm.usage)
      (hstep : st.parseStep = .waitCollectionApplication) : Walk st (before ++ [page, usage])
  | inside {before body : List HidReportCmd} {page usage opening : HidReportCmd} {n : Nat}
      (hbefore : Blocks before) (hheader : Header page usage opening) (hbody : Within n body)
      (hstep : st.parseStep = .waitEndCollection)
      (hdepth : st.collectionDepth = UInt8.ofNat n) :
      Walk st (before ++ page :: usage :: opening :: body)

namespace Walk

variable {st : ParserStatics} {before : List HidReportCmd} {cmd : HidReportCmd}

/-- **One accepted item.** -/
theorem step (h : Walk st before) (hok : (handleCmd st cmd).2 = true) (hdeep : excess before ≤ 256) :
    Walk (handleCmd st cmd).1 (before ++ [cmd]) := by
  obtain ⟨hpage, husage, hcollection⟩ := handleCmd_header hok
  cases h with
  | between hbefore hstep =>
    obtain ⟨htag, hnext⟩ := hpage hstep
    exact .page hbefore htag hnext
  | page hbefore htag hstep =>
    obtain ⟨htag', hnext⟩ := husage hstep
    rw [List.append_assoc]
    exact .usage hbefore htag htag' hnext
  | usage hbefore htag htag' hstep =>
    obtain ⟨⟨hopening, hvalue⟩, hnext, hdepth⟩ := hcollection hstep
    rw [List.append_assoc]
    exact .inside hbefore ⟨htag, htag', hvalue, hopening⟩ (.application .nil) hnext hdepth
  | @inside before body page usage opening n hbefore hheader hbody hstep hdepth =>
    have hn : n ≤ 256 := by
      rw [excess_append, hbefore.excess, hheader.excess, hbody.excess] at hdeep
      omega
    have hpos := hbody.pos
    rw [List.append_assoc]
    by_cases hopening : cmd.cmd = HidRm.collection
    · obtain ⟨hnext, hdepth'⟩ := handleCmd_opening hstep hopening
      refine .inside hbefore hheader (hbody.open hopening) hnext ?_
      rw [hdepth', hdepth, UInt8.ofNat_add]
      rfl
    by_cases hclosing : cmd.cmd = HidRm.endCollection
    · have hone : st.collectionDepth = 1 ↔ n = 1 := by
        rw [hdepth, ← UInt8.toNat_inj, UInt8.toNat_ofNat']
        constructor
        · intro h
          have h' : n % 2 ^ 8 = 1 := h
          omega
        · rintro rfl
          rfl
      obtain ⟨hlast, hinner⟩ := handleCmd_closing hstep hclosing
      by_cases hn1 : n = 1
      · subst hn1
        exact .between (.block hbefore hheader hbody.nested hclosing) (hlast (hone.mpr rfl))
      · obtain ⟨hnext, hdepth'⟩ := hinner fun h => hn1 (hone.mp h)
        refine .inside hbefore hheader (hbody.close hn1 hclosing) hnext ?_
        obtain ⟨m, rfl⟩ : ∃ m, n = m + 1 := ⟨n - 1, by omega⟩
        rw [hdepth', hdepth, UInt8.ofNat_add]
        exact UInt8.add_sub_cancel _ _
    · obtain ⟨hnext, hdepth'⟩ := handleCmd_item hstep hopening hclosing hok
      exact .inside hbefore hheader (hbody.item hopening hclosing) hnext (hdepth'.trans hdepth)

/-- The item machine waits for a usage page exactly behind whole application collections. -/
theorem between_iff (h : Walk st before) : st.parseStep = .waitUsagePage ↔ Blocks before := by
  cases h with
  | between hbefore hstep => exact iff_of_true hstep hbefore
  | page hbefore hpage hstep =>
    refine iff_of_false (by rw [hstep]; decide) fun hblocks => ?_
    have hlast := hblocks.last
    rw [hpage] at hlast
    exact absurd hlast (by decide)
  | @usage before page usage hbefore hpage husage hstep =>
    refine iff_of_false (by rw [hstep]; decide) fun hblocks => ?_
    rw [List.append_cons] at hblocks
    have hlast := hblocks.last
    rw [husage] at hlast
    exact absurd hlast (by decide)
  | inside hbefore hheader hbody hstep hdepth =>
    refine iff_of_false (by rw [hstep]; decide) fun hblocks => ?_
    have hzero := hblocks.excess
    have hpos := hbody.pos
    rw [excess_append, hbefore.excess, hheader.excess, hbody.excess] at hzero
    omega

end Walk

/-! ## Deep descriptors -/

/-- The items before some item open more than 256 collections that they do not close. -/
def Deep (cmds : List HidReportCmd) : Prop := ∃ before, before <+: cmds ∧ 256 < excess before

theorem deep_append_iff {before : List HidReportCmd} {cmd : HidReportCmd} :
    Deep (before ++ [cmd]) ↔ Deep before ∨ 256 < excess before + nesting cmd := by
  constructor
  · rintro ⟨part, hpart, hlt⟩
    rcases List.prefix_concat_iff.mp hpart with rfl | hpart
    · rw [excess_append, excess_cons, excess_nil] at hlt
      exact .inr (by omega)
    · exact .inl ⟨part, hpart, hlt⟩
  · rintro (⟨part, hpart, hlt⟩ | hlt)
    · exact ⟨part, hpart.trans (List.prefix_append _ _), hlt⟩
    · refine ⟨before ++ [cmd], List.prefix_rfl, ?_⟩
      rw [excess_append, excess_cons, excess_nil]
      omega

/-- The depth is the number of open collections modulo 256. Once there were more than 256 of them, the
item machine does not notice the end of the outermost 256. -/
structure Counted (before : List HidReportCmd) (st : ParserStatics) : Prop where
  between : st.parseStep ≠ .waitEndCollection → 256 ∣ excess before
  inside : st.parseStep = .waitEndCollection → (st.collectionDepth.toNat : Int) = excess before % 256
  deep : Deep before →
    256 ≤ excess before ∧ (st.parseStep = .waitEndCollection → 257 ≤ excess before)

/-- **One accepted item.** -/
theorem Counted.step {before : List HidReportCmd} {cmd : HidReportCmd} {st : ParserStatics}
    (h : Counted before st) (hok : (handleCmd st cmd).2 = true) :
    Counted (before ++ [cmd]) (handleCmd st cmd).1 := by
  have hexcess : excess (before ++ [cmd]) = excess before + nesting cmd := by
    rw [excess_append, excess_cons, excess_nil, Int.add_zero]
  obtain ⟨hpage, husage, hcollection⟩ := handleCmd_header hok
  -- an item of a header that opens nothing
  have hheader : st.parseStep ≠ .waitEndCollection → nesting cmd = 0 →
      (handleCmd st cmd).1.parseStep ≠ .waitEndCollection →
        Counted (before ++ [cmd]) (handleCmd st cmd).1 := by
    intro hstep hzero hnext
    have hdvd := h.between hstep
    constructor
    · rw [hexcess, hzero, Int.add_zero]
      exact fun _ => hdvd
    · exact fun h => absurd h hnext
    · rw [deep_append_iff, hexcess, hzero, Int.add_zero]
      rintro (hdeep | hlt)
      · exact ⟨(h.deep hdeep).1, fun h => absurd h hnext⟩
      · exact ⟨by omega, fun h => absurd h hnext⟩
  cases hstep : st.parseStep with
  | waitUsagePage =>
    obtain ⟨htag, hnext⟩ := hpage hstep
    refine hheader (by rw [hstep]; decide) ?_ (by rw [hnext]; decide)
    unfold nesting
    rw [htag]
    rfl
  | waitUsage =>
    obtain ⟨htag, hnext⟩ := husage hstep
    refine hheader (by rw [hstep]; decide) ?_ (by rw [hnext]; decide)
    unfold nesting
    rw [htag]
    rfl
  | waitCollectionApplication =>
    obtain ⟨⟨htag, -⟩, hnext, hdepth⟩ := hcollection hstep
    have hone := nesting_of_collection htag
    have hdvd := h.between (by rw [hstep]; decide)
    constructor
    · exact fun hne => absurd hnext hne
    · intro _
      rw [hdepth, hexcess, hone]
      change (1 : Int) = _
      omega
    · rw [deep_append_iff, hexcess, hone]
      rintro (hdeep | hlt)
      · have hle := (h.deep hdeep).1
        exact ⟨by omega, fun _ => by omega⟩
      · exact ⟨by omega, fun _ => by omega⟩
  | waitEndCollection =>
    have hinside := h.inside hstep
    by_cases hopening : cmd.cmd = HidRm.collection
    · obtain ⟨hnext, hdepth⟩ := handleCmd_opening hstep hopening
      have hone := nesting_of_collection hopening
      constructor
      · exact fun hne => absurd hnext hne
      · intro _
        have hbyte : UInt8.toNat 1 = 1 := rfl
        rw [hdepth, hexcess, hone, UInt8.toNat_add, hbyte]
        omega
      · rw [deep_append_iff, hexcess, hone]
        rintro (hdeep | hlt)
        · have hle := (h.deep hdeep).1
          exact ⟨by omega, fun _ => by omega⟩
        · exact ⟨by omega, fun _ => by omega⟩
    by_cases hclosing : cmd.cmd = HidRm.endCollection
    · obtain ⟨hlast, hinner⟩ := handleCmd_closing hstep hclosing
      have hminus := nesting_of_endCollection hclosing
      by_cases hone : st.collectionDepth = 1
      · have hnext := hlast hone
        rw [hone] at hinside
        have hinside' : (1 : Int) = excess before % 256 := hinside
        constructor
        · intro _
          rw [hexcess, hminus]
          omega
        · rw [hnext]
          exact nofun
        · rw [deep_append_iff, hexcess, hminus, hnext]
          rintro (hdeep | hlt)
          · have hle := (h.deep hdeep).2 hstep
            exact ⟨by omega, nofun⟩
          · exact ⟨by omega, nofun⟩
      · obtain ⟨hnext, hdepth⟩ := hinner hone
        have hne : st.collectionDepth.toNat ≠ 1 := fun h => hone (UInt8.toNat_inj.mp h)
        have hlt := st.collectionDepth.toNat_lt
        constructor
        · exact fun hne => absurd hnext hne
        · intro _
          have hbyte : UInt8.toNat 1 = 1 := rfl
          rw [hdepth, hexcess, hminus, UInt8.toNat_sub, hbyte]
          omega
        · rw [deep_append_iff, hexcess, hminus]
          rintro (hdeep | hlt)
          · have hle := (h.deep hdeep).2 hstep
            exact ⟨by omega, fun _ => by omega⟩
          · exact ⟨by omega, fun _ => by omega⟩
    · obtain ⟨hnext, hdepth⟩ := handleCmd_item hstep hopening hclosing hok
      have hzero := nesting_of_item hopening hclosing
      constructor
      · exact fun hne => absurd hnext hne
      · intro _
        rw [hdepth, hexcess, hzero, Int.add_zero]
        exact hinside
      · rw [deep_append_iff, hexcess, hzero, Int.add_zero]
        rintro (hdeep | hlt)
        · exact ⟨(h.deep hdeep).1, fun _ => (h.deep hdeep).2 hstep⟩
        · exact ⟨by omega, fun _ => by omega⟩

/-! ## The result -/

/-- The bytes are short items, these are a sequence of application collections, and the item machine
is between two of them exactly behind whole ones. -/
structure ProperlyNested (hidRm : List UInt8) : Prop where
  complete : complete hidRm = true
  blocks : Blocks (items hidRm)
  ends : ∀ before, before <+: items hidRm →
    ((handleCmds .start before).1.parseStep = .waitUsagePage ↔ Blocks before)

/-- No more than 256 collections are open at a time, none is at the end, and the descriptor ends with
the end of a collection. -/
structure Shallow (cmds : List HidReportCmd) : Prop where
  shallow : ∀ before, before <+: cmds → excess before ≤ 256
  closed : excess cmds = 0
  last : ∀ before cmd, cmds = before ++ [cmd] → cmd.cmd = HidRm.endCollection

/-- **A run** that is not nested deeper than the counter. -/
theorem Walk.run {cmds : List HidReportCmd} (hok : (handleCmds .start cmds).2 = true)
    (hshallow : ∀ before, before <+: cmds → excess before ≤ 256) :
    ∀ before, before <+: cmds → Walk (handleCmds .start before).1 before := by
  apply accepted_induction (I := fun before st => Walk st before) hok (.between .nil rfl)
  intro before cmd st hprefix hwalk hcmd
  exact hwalk.step hcmd (hshallow before ((List.prefix_append _ _).trans hprefix))

/-- **A run.** -/
theorem Counted.run {cmds : List HidReportCmd} (hok : (handleCmds .start cmds).2 = true) :
    ∀ before, before <+: cmds → Counted before (handleCmds .start before).1 := by
  apply accepted_induction (I := Counted) hok
  · refine ⟨fun _ => Int.dvd_zero 256, nofun, ?_⟩
    rintro ⟨before, hprefix, hlt⟩
    rw [List.prefix_nil.mp hprefix] at hlt
    exact absurd hlt (by decide)
  · exact fun before cmd st _ hcounted hcmd => hcounted.step hcmd

/-- Items that close every collection they open were never nested deeper than the counter. -/
theorem shallow_of_excess {cmds : List HidReportCmd} (hok : (handleCmds .start cmds).2 = true)
    (hclosed : excess cmds = 0) : ∀ before, before <+: cmds → excess before ≤ 256 := by
  intro before hprefix
  refine Int.not_lt.mp fun hlt => ?_
  have hle := ((Counted.run hok cmds List.prefix_rfl).deep ⟨before, hprefix, hlt⟩).1
  rw [hclosed] at hle
  exact absurd hle (by decide)

theorem properlyNested_of_shallow {hidRm : List UInt8} (hcomplete : complete hidRm = true)
    (hok : (handleCmds .start (items hidRm)).2 = true) (h : Shallow (items hidRm)) :
    ProperlyNested hidRm := by
  have hwalk := Walk.run hok h.shallow
  refine ⟨hcomplete, ?_, fun before hbefore => (hwalk before hbefore).between_iff⟩
  have hend := hwalk _ List.prefix_rfl
  generalize hall : items hidRm = all at hend
  generalize (handleCmds .start all).1 = st at hend
  rw [hall] at h
  cases hend with
  | between hbefore hstep => exact hbefore
  | page hbefore hpage hstep =>
    have hlast := h.last _ _ rfl
    rw [hpage] at hlast
    exact absurd hlast (by decide)
  | usage hbefore hpage husage hstep =>
    have hlast := h.last _ _ (List.append_cons ..)
    rw [husage] at hlast
    exact absurd hlast (by decide)
  | inside hbefore hheader hbody hstep hdepth =>
    have hzero := h.closed
    have hpos := hbody.pos
    rw [excess_append, hbefore.excess, hheader.excess, hbody.excess] at hzero
    omega

theorem shallow_of_blocks {cmds : List HidReportCmd} (hok : (handleCmds .start cmds).2 = true)
    (h : Blocks cmds) : Shallow cmds := by
  refine ⟨shallow_of_excess hok h.excess, h.excess, fun before cmd heq => ?_⟩
  rw [heq] at h
  exact h.last

/-- **A descriptor that is accepted is properly nested exactly** if it is shallow. -/
theorem properlyNested_iff {hidRm : List UInt8} {map : EspHidReportMap}
    (h : outcome .init hidRm = .ok (some map)) :
    ProperlyNested hidRm ↔ Shallow (items hidRm) := by
  obtain ⟨hcomplete, hok, -⟩ := outcome_some h
  exact ⟨fun hnested => shallow_of_blocks hok hnested.blocks,
    fun hshallow => properlyNested_of_shallow hcomplete hok hshallow⟩

/-! ## Collections -/

/-- A place with `n` collections open. -/
def Place.Open (n : Nat) : Place → Prop
  | .inside _ _ depth body => depth = UInt8.ofNat n ∧ Within n body
  | _ => n = 0

/-- **One accepted item**, where no more than 256 collections are open. -/
theorem Place.Open.step {n : Nat} {st : ParserStatics} {place : Place} {cmd : HidReportCmd}
    (h : place.Open n) (hfollows : Follows st place) (hok : (handleCmd st cmd).2 = true)
    (hn : n ≤ 256) : ∃ n' : Nat, (place.next cmd).Open n' ∧ (n' : Int) = n + nesting cmd ∧
      ∀ coll ∈ place.closed cmd, coll.closed = true ∧ Nested coll.body := by
  obtain ⟨hpage, husage, hcollection⟩ := handleCmd_header hok
  cases place with
  | beforePage =>
    obtain ⟨htag, -⟩ := hpage hfollows
    obtain rfl : n = 0 := h
    refine ⟨0, rfl, ?_, nofun⟩
    unfold nesting
    rw [htag]
    rfl
  | beforeUsage page =>
    obtain ⟨htag, -⟩ := husage hfollows.1
    obtain rfl : n = 0 := h
    refine ⟨0, rfl, ?_, nofun⟩
    unfold nesting
    rw [htag]
    rfl
  | beforeCollection page usage =>
    obtain ⟨⟨htag, -⟩, -⟩ := hcollection hfollows.1
    obtain rfl : n = 0 := h
    refine ⟨1, ⟨rfl, .application .nil⟩, ?_, nofun⟩
    rw [nesting_of_collection htag]
    rfl
  | inside page usage depth body =>
    obtain ⟨rfl, hbody⟩ := h
    have hpos := hbody.pos
    by_cases hopening : cmd.cmd = HidRm.collection
    · obtain ⟨hnext, hclosed⟩ := @inside_opening page usage (UInt8.ofNat n) body cmd hopening
      rw [hnext, hclosed, nesting_of_collection hopening]
      refine ⟨n + 1, ⟨?_, hbody.open hopening⟩, Int.natCast_succ n, nofun⟩
      rw [UInt8.ofNat_add]
      rfl
    by_cases hclosing : cmd.cmd = HidRm.endCollection
    · rw [nesting_of_endCollection hclosing]
      by_cases hone : n = 1
      · subst hone
        obtain ⟨hnext, hclosed⟩ := @inside_last page usage body cmd hclosing
        have hdepth : UInt8.ofNat 1 = 1 := rfl
        rw [hdepth, hnext, hclosed]
        refine ⟨0, rfl, rfl, fun coll hcoll => ?_⟩
        rw [List.mem_singleton.mp hcoll]
        exact ⟨rfl, hbody.nested⟩
      · have hdepth : UInt8.ofNat n ≠ 1 := by
          intro hdepth
          have htoNat := congrArg UInt8.toNat hdepth
          rw [UInt8.toNat_ofNat'] at htoNat
          have htoNat' : n % 2 ^ 8 = 1 := htoNat
          omega
        obtain ⟨hnext, hclosed⟩ := @inside_closing page usage (UInt8.ofNat n) body cmd hclosing hdepth
        rw [hnext, hclosed]
        refine ⟨n - 1, ⟨?_, hbody.close hone hclosing⟩, by omega, nofun⟩
        obtain ⟨m, rfl⟩ : ∃ m, n = m + 1 := ⟨n - 1, by omega⟩
        rw [UInt8.ofNat_add]
        exact UInt8.add_sub_cancel _ _
    · obtain ⟨hnext, hclosed⟩ := @inside_item page usage (UInt8.ofNat n) body cmd hopening hclosing
      rw [hnext, hclosed, nesting_of_item hopening hclosing]
      exact ⟨n, ⟨rfl, hbody.item hopening hclosing⟩, (Int.add_zero _).symm, nofun⟩

/-- The collections that the parser finds in a shallow descriptor come to their ends, and each of them
ends with the item that closes what its header opened. -/
theorem collections_nested (cmds : List HidReportCmd) : ∀ {n : Nat} {st : ParserStatics}
    {place : Place}, place.Open n → Follows st place → (handleCmds st cmds).2 = true →
      (∀ before, before <+: cmds → n + excess before ≤ 256) → n + excess cmds = 0 →
        ∀ coll ∈ collections place cmds, coll.closed = true ∧ Nested coll.body := by
  induction cmds with
  | nil =>
    intro n st place hopen _ _ _ hzero coll hcoll
    cases place with
    | inside page usage depth body =>
      have hpos := hopen.2.pos
      rw [excess_nil] at hzero
      omega
    | _ => cases hcoll
  | cons cmd cmds ih =>
    intro n st place hopen hfollows hok hdeep hzero coll hcoll
    rw [handleCmds_cons] at hok
    by_cases hcmd : (handleCmd st cmd).2 = true
    · rw [if_pos hcmd] at hok
      have hn := hdeep [] (List.nil_prefix)
      rw [excess_nil] at hn
      obtain ⟨n', hopen', hcount, hclosed⟩ := hopen.step hfollows hcmd (by omega)
      rcases List.mem_append.mp hcoll with hcoll | hcoll
      · exact hclosed coll hcoll
      · refine ih hopen' (hfollows.step hcmd) hok (fun before hprefix => ?_) ?_ coll hcoll
        · have hle := hdeep (cmd :: before) (List.prefix_cons_inj cmd |>.mpr hprefix)
          rw [excess_cons] at hle
          omega
        · rw [excess_cons] at hzero
          omega
    · rw [if_neg hcmd] at hok
      exact absurd hok hcmd

/-- **The collections of a shallow descriptor are its application collections.** -/
theorem collectionsOf_nested {hidRm : List UInt8} {map : EspHidReportMap}
    (h : outcome .init hidRm = .ok (some map)) (hshallow : Shallow (items hidRm)) :
    ∀ coll ∈ collectionsOf hidRm, coll.closed = true ∧ Nested coll.body := by
  obtain ⟨-, hok, -⟩ := outcome_some h
  have hopen : Place.beforePage.Open 0 := rfl
  refine collections_nested (items hidRm) hopen (show Follows .start .beforePage from rfl) hok
    (fun before hprefix => ?_) ?_
  · have hle := hshallow.shallow before hprefix
    omega
  · have hzero := hshallow.closed
    omega

/-! ## Descriptors -/

/-- A mouse collection with the buttons in a collection of their own. -/
def mouseRm : List UInt8 :=
  [0x05, 0x01, 0x09, 0x02, 0xA1, 0x01, 0x09, 0x01, 0xA1, 0x00, 0x75, 0x08, 0x95, 0x03, 0x81, 0x02,
    0xC0, 0xC0]

/-- It is properly nested. -/
theorem properlyNested_mouseRm : ∃ map, outcome .init mouseRm = .ok (some map) ∧
    ProperlyNested mouseRm := by
  refine ⟨_, rfl, (properlyNested_iff rfl).mpr ⟨fun before hprefix => ?_, rfl, ?_⟩⟩
  · have hall : ∀ before ∈ (items mouseRm).inits, excess before ≤ 256 := by decide +kernel
    exact hall before ((List.mem_inits _ _).mpr hprefix)
  · intro before cmd heq
    have hlast : (items mouseRm).getLast? = some ⟨HidRm.endCollection, 0, 0⟩ := rfl
    rw [heq, List.getLast?_append, List.getLast?_singleton] at hlast
    cases hlast
    rfl

/-- The keyboard collection, and a usage page behind it. -/
def trailingRm : List UInt8 := keyboardRm ++ [0x05, 0x01]

/-- It is accepted, but the usage page belongs to no collection. -/
theorem not_properlyNested_trailingRm : ∃ map, outcome .init trailingRm = .ok (some map) ∧
    ¬ProperlyNested trailingRm := by
  refine ⟨_, rfl, fun hnested => ?_⟩
  have hblocks := hnested.blocks
  have hitems : items trailingRm = items keyboardRm ++ [⟨HidRm.usagePage, 1, 1⟩] := rfl
  rw [hitems] at hblocks
  exact absurd hblocks.last (by decide)

end BleKbdHost.Hid
