import BleKbdHost.Host.Sessions
import BleKbdHost.Host.Table

/-!
# Served peers

Peers whose answers are those of an attribute table, what a state says of the devices whose tables
were read, and the rules for the requests of discovery: an answered request has collected what the table
holds.
-/

namespace BleKbdHost.Host

open Hid Keys Conc

/-! ## Served peers -/

namespace Peer

/-- The answer after `n` items. -/
def next {α : Type} (inj : α → GattRsp) (items : List α) (n : Nat) : GattRsp :=
  ((items[n]?).map inj).getD .done

/-- The answer to a request of discovery is the next one of the table; services are reported to the
device that is being opened. -/
def answers (peer : Peer) (d : DevId) (s : Sys) : GattReq → GattRsp → Bool
  | .services conn, rsp =>
    rsp == next .svc peer.services (reported s.search.svcs.log).length &&
      (s.getByConnId conn).any (·.id == d)
  | .chrs _ startHandle endHandle, rsp =>
    rsp == next .chr (peer.chrs startHandle endHandle) (reported s.search.chrs.log).length
  | .dscs _ startHandle endHandle, rsp =>
    rsp == next .dsc (peer.dscs startHandle endHandle) (reported s.search.dscs.log).length
  | .read _ handle, .data bytes =>
    (((s.nimble.readDataVal.map (·.bytes)).getD []) ++ bytes).isPrefixOf (peer.value handle)
  | .read _ handle, .done => s.nimble.readDataVal.any (·.bytes == peer.value handle)
  | .read _ _, _ => false
  | .write _ _ _ _, _ => true

end Peer

/-- Each open finds the counter of services at 0, its requests and allocations succeed, and its
requests are answered from the table of its device. -/
def servedBy (peers : DevId → Peer) : Guard Op Choice Sys Event where
  main o c s :=
    match o with
    | .discAllSvcs _ => c.rc == 0 && s.nimble.servicesDiscovered == 0
    | .discAllChrs _ _ _ | .discAllDscs _ _ _ | .readLong _ _ _ | .mallocReportMaps _
    | .mallocProtocolMode _ | .mallocReport => c.rc == 0
    | _ => true
  env e s :=
    match e with
    | .gattCb i rsp =>
      match s.ctl.stage, s.radio.gatt[i]? with
      | .linked .open d .secured, some req => (peers d).answers d s req rsp
      | _, _ => true
    | _ => true

/-! ## The collections -/

/-- The array, which a byte can count, begins with these items, which are counted, and they are what
was reported. -/
structure Collects {α : Type} (items : List α) (c : Collection α) : Prop where
  count : c.count = items.length
  slots : items.map some <+: c.slots
  small : c.slots.length < 256
  reported : reported c.log = items

/-- Nothing is counted. -/
def Uncounted {α : Type} (c : Collection α) : Prop := c.count = 0

namespace Collects

variable {α : Type} {items : List α} {c : Collection α} {a : α} {i : Nat}

theorem request {n : Nat} (hn : n < 256) (h : Uncounted c) : Collects [] (c.request n) :=
  ⟨h, by simp, by simpa [Collection.request] using hn, rfl⟩

theorem report (h : Collects items c) (hroom : c.count < c.slots.length) :
    Collects (items ++ [a]) (c.report a) where
  count := by simp [Collection.report, h.count]
  slots := by
    obtain ⟨rest, hrest⟩ := h.slots
    have hlength : c.slots.length = items.length + rest.length := by simp [← hrest]
    rw [hlength, h.count] at hroom
    cases rest with
    | nil => exact absurd hroom (Nat.lt_irrefl _)
    | cons b rest =>
      refine ⟨rest, ?_⟩
      simp [Collection.report, h.count, ← hrest, List.set_append_right]
  small := by simpa [Collection.report] using h.small
  reported := by simp [Collection.report, h.reported]

theorem process (h : Collects items c) : Collects items (c.process a) :=
  ⟨h.count, h.slots, h.small, by simp [Collection.process, h.reported]⟩

theorem few (h : Collects items c) : items.length < 256 := by
  have hlength := h.slots.length_le
  rw [List.length_map] at hlength
  exact Nat.lt_of_le_of_lt hlength h.small

/-- The loops see the whole counter. -/
theorem count_mod (h : Collects items c) : c.count % 65536 = items.length := by
  have hlength := h.few
  rw [h.count]
  omega

theorem slot (h : Collects items c) (hi : i < items.length) :
    c.slots[i]? = some (some items[i]) := by
  obtain ⟨rest, hrest⟩ := h.slots
  rw [← hrest, List.getElem?_append_left (by simpa using hi), List.getElem?_map,
    List.getElem?_eq_getElem hi]
  rfl

end Collects

theorem Peer.next_eq {α : Type} (inj : α → GattRsp) {items : List α} {n : Nat}
    (hn : n ≤ items.length) : (items.length = n ∧ Peer.next inj items n = .done) ∨
      ∃ a, Peer.next inj items n = inj a ∧ items.take n ++ [a] = items.take (n + 1) := by
  rcases Nat.lt_or_eq_of_le hn with hlt | rfl
  · exact .inr ⟨items[n], by simp [Peer.next, hlt], by simp⟩
  · exact .inl ⟨rfl, by simp [Peer.next]⟩

/-! ## What is kept -/

/-- The device that is being opened, until its discovery is over. -/
def Stage.pending? : Stage → Option DevId
  | .begun .open d | .failed .open d | .connecting .open d | .linked .open d _ => some d
  | _ => Option.none

/-- The same, until discovery begins to fill it in. -/
def Stage.blank? : Stage → Option DevId
  | .begun .open d | .failed .open d | .connecting .open d | .linked .open d .fresh
  | .linked .open d .secured => some d
  | _ => Option.none

/-- The table of the device describes it. -/
def Described (peers : DevId → Peer) (p : Dev) : Prop := (peers p.id).Describes p

/-- The devices on the list are described by their tables, apart from the one that is being opened. -/
def Elsewhere (peers : DevId → Peer) (s : Sys) : Prop :=
  ∀ p ∈ s.profiles, s.ctl.stage.pending? ≠ some p.id → Described peers p

/-- A write request. -/
def GattReq.writes : GattReq → Bool
  | .write _ _ _ _ => true
  | _ => false

/-- Outside of discovery: no request of it is outstanding, its counters are at 0, and the parser was
not used before the first service was found. -/
structure Surveyed (peers : DevId → Peer) (s : Sys) : Prop where
  basics : Basics s
  writes : ∀ req ∈ s.radio.gatt, req.writes = true
  chrs : Uncounted s.search.chrs
  dscs : Uncounted s.search.dscs
  parser : s.nimble.servicesDiscovered = 0 → s.nimble.parser = .init
  blank : ∀ p ∈ s.profiles, s.ctl.stage.blank? = some p.id → p = p.blank
  described : ∀ p ∈ s.profiles, s.ctl.stage.blank? ≠ some p.id → Described peers p

theorem Stage.pending_of_blank {st : Stage} {d : DevId} (h : st.blank? = some d) :
    st.pending? = some d := by
  cases st with
  | begun kind _ | failed kind _ | connecting kind _ => cases kind <;> exact h
  | linked kind _ step => cases kind <;> cases step <;> first | exact h | cases h
  | _ => cases h

theorem Surveyed.elsewhere {peers : DevId → Peer} {s : Sys} (h : Surveyed peers s) :
    Elsewhere peers s :=
  fun p hp hpending => h.described p hp fun hblank => hpending (Stage.pending_of_blank hblank)

/-- How far discovery is, the parser's variables, and the device so far. -/
structure Desk where
  dev : Dev
  step : LinkStep := .secured
  parser : ParserStatics := .init

/-- In discovery, between requests. -/
structure Working (peers : DevId → Peer) (ph : Phase) (d : DevId) (k : Desk) (P : Search → Prop)
    (s : Sys) : Prop where
  ctl : s.ctl = ⟨ph, .linked .open d k.step, false⟩
  basics : Basics s
  parser : s.nimble.parser = k.parser
  search : P s.search
  listed : Listed (Described peers) k.dev s.profiles
  id : k.dev.id = d

theorem Working.weaken {peers : DevId → Peer} {ph : Phase} {d : DevId} {k : Desk}
    {P R : Search → Prop} {s : Sys} (h : Working peers ph d k P s) (hP : P s.search → R s.search) :
    Working peers ph d k R s :=
  ⟨h.ctl, h.basics, h.parser, hP h.search, h.listed, h.id⟩

section Walk

variable {peers : DevId → Peer} {ph : Phase} {d : DevId} {k j : Desk} {x y : Dev}
variable {P R : Search → Prop} {α β : Type}

/-- What every operation finds. -/
abbrev elsewhere (peers : DevId → Peer) : Op → Sys → Prop := fun _ => Elsewhere peers

theorem elsewhere_of_listed {s : Sys} {step : LinkStep} {awaiting : Bool}
    (hctl : s.ctl = ⟨ph, .linked .open d step, awaiting⟩) (h : Listed (Described peers) x s.profiles)
    (hid : x.id = d) : Elsewhere peers s := by
  intro p hp hpending
  refine h.rest p hp fun hpid => hpending ?_
  rw [hctl, hpid, hid]
  rfl

theorem Working.elsewhere {s : Sys} (h : Working peers ph d k P s) : Elsewhere peers s :=
  elsewhere_of_listed h.ctl h.listed h.id

theorem stable_working : Stable host (servedBy peers) (Working peers ph d k P) := by
  rintro s s' ⟨e, -, -, hstep⟩ h
  have hgatt := (tokens_eq_zero h.basics.tokens (by rw [h.ctl])).2.1
  have he : ∀ i rsp, e ≠ .gattCb i rsp := by
    rintro i rsp rfl
    obtain ⟨req, hreq, -⟩ := gattCb_waits hstep
    rw [hgatt] at hreq
    cases hreq
  refine ⟨(eventStep_ctl hstep).trans h.ctl, h.basics.event hstep,
    (eventStep_parserStatics hstep).trans h.parser, ?_, ?_, h.id⟩
  · rw [eventStep_search hstep he]
    exact h.search
  · rw [eventStep_profiles hstep (fun _ => h.basics.not_releasing) fun i svc => he i _]
    exact h.listed

/-- **One operation between requests.** -/
theorem triple_working {o : Op} {r : Choice → Sys → α} {p : α → Prop}
    (hat : o.At ⟨ph, .linked .open d k.step, false⟩)
    (hctl : ∀ (ch : Choice) (s : Sys), s.ctl = ⟨ph, .linked .open d k.step, false⟩ →
      (servedBy peers).main o ch s = true →
      (s.view.exec o ch).ctl = ⟨ph, .linked .open d j.step, false⟩)
    (hexec : ∀ (ch : Choice) (s : Sys), Working peers ph d k P s →
      (servedBy peers).main o ch s = true → (o.exec ch s).fault = none →
      p (r ch s) ∧ (o.exec ch s).nimble.parser = j.parser ∧ R (o.exec ch s).search ∧
        Listed (Described peers) j.dev (o.exec ch s).profiles)
    (hid : j.dev.id = k.dev.id) :
    Triple host (servedBy peers) (elsewhere peers) (Working peers ph d k P) (.ask o r) fun a s =>
      p a ∧ Working peers ph d j R s := by
  refine triple_ask stable_working (fun _ => (Stable.const _).and stable_working)
    (fun s hs _ => hs.elsewhere) fun ch s hs _ hready hg hlive => ?_
  obtain ⟨hp, hparser, hsearch, hlisted⟩ := hexec ch s hs hg hlive
  refine ⟨hp, ?_, hs.basics.exec hready (hs.ctl ▸ hat), hparser, hsearch, hlisted, hid.trans hs.id⟩
  rw [exec_ctl, hctl ch s hs.ctl hg]

/-- An operation that leaves the device, the collections and the parser. -/
theorem triple_steady {o : Op} {r : Choice → Sys → α} {p : α → Prop}
    (hat : o.At ⟨ph, .linked .open d k.step, false⟩)
    (hctl : ∀ (ch : Choice) (s : Sys), s.ctl = ⟨ph, .linked .open d k.step, false⟩ →
      (servedBy peers).main o ch s = true → (s.view.exec o ch).ctl = s.ctl)
    (hparser : ∀ (ch : Choice) (s : Sys), (o.exec ch s).nimble.parser = s.nimble.parser)
    (hcollects : o.collects = false) (hwrites : o.writesDev = false)
    (hr : ∀ (ch : Choice) (s : Sys), Working peers ph d k P s →
      (servedBy peers).main o ch s = true → p (r ch s)) :
    Triple host (servedBy peers) (elsewhere peers) (Working peers ph d k P) (.ask o r) fun a s =>
      p a ∧ Working peers ph d k P s := by
  refine triple_working hat (fun ch s hs hg => (hctl ch s hs hg).trans hs) (fun ch s hs hg _ =>
    ⟨hr ch s hs hg, (hparser ch s).trans hs.parser, ?_, ?_⟩) rfl
  · rw [exec_search ch s hcollects]
    exact hs.search
  · rw [exec_profiles ch s hwrites]
    exact hs.listed

theorem triple_reads {f : Sys → α} {p : α → Prop}
    (hf : ∀ s, Working peers ph d k P s → p (f s)) :
    Triple host (servedBy peers) (elsewhere peers) (Working peers ph d k P) (look f) fun a s =>
      p a ∧ Working peers ph d k P s :=
  triple_steady rfl (fun _ _ _ _ => rfl) (fun _ _ => rfl) rfl rfl fun _ s hs _ => hf s hs

/-- The device with a field written. -/
def Desk.write (k : Desk) (field : DevField) : Desk :=
  { k with dev := (field.write k.dev).toOption.getD k.dev }

/-- A write to the device. -/
theorem triple_writes (field : DevField) (hstep : k.step = .secured ∨ k.step = .discovered) :
    Triple host (servedBy peers) (elsewhere peers) (Working peers ph d k P)
      (.perform (.setField d field)) fun _ => Working peers ph d (k.write field.plain) P := by
  have hat : (Op.setField d field).At ⟨ph, .linked .open d k.step, false⟩ :=
    ⟨by rcases hstep with h | h <;> simp [h], rfl⟩
  refine (triple_working (j := k.write field.plain) (p := fun _ => True) (R := P) hat
    (fun _ _ hs _ => hs) (fun ch s hs _ hlive => ?_)
    (field.plain.written_id k.dev)).weaken fun _ s hs => hs.2
  refine ⟨trivial, ?_, ?_, ?_⟩
  · rcases exec_setField_cases s d field ch with ⟨fault, hexec⟩ | ⟨_, _, -, -, hexec⟩ <;> rw [hexec] <;>
      exact hs.parser
  · rw [exec_search ch s rfl]
    exact hs.search
  · rw [profiles_setField hlive, ← hs.id]
    exact hs.listed.write (f := fun p => (field.plain.write p).toOption.getD p)
      (field.plain.written_id k.dev)

/-! ### Requests -/

theorem search_of_core {s s' : Sys} (hcore : s'.nimble.core = s.nimble.core)
    (hlog : s'.discLog = s.discLog) : s'.search = s.search := by
  have hsearch : ∀ s : Sys, s.search =
      ⟨s.nimble.core.serviceResult, s.nimble.core.servicesDiscovered, s.nimble.core.charResult,
        s.nimble.core.chrsDiscovered, s.nimble.core.descrResult, s.nimble.core.dscsDiscovered,
        s.discLog⟩ := fun _ => rfl
  rw [hsearch s', hcore, hlog]
  rfl

/-- The control state of a request in discovery. -/
abbrev asking (ph : Phase) (d : DevId) : Ctl := ⟨ph, .linked .open d .secured, true⟩

/-- A request is outstanding, with `part` of the answers, or all of them have come. -/
structure Asked (ph : Phase) (d : DevId) (q : ParserStatics) (req : GattReq)
    (part full : Sys → Prop) (s : Sys) : Prop where
  ctl : s.ctl = asking ph d
  basics : Basics s
  parser : s.nimble.parser = q
  pending : s.fault = none → (s.radio.gatt = [req] ∧ part s) ∨ (s.radio.gatt = [] ∧ full s)

/-- Only GATT callbacks matter. -/
def Beside (A : Sys → Prop) : Prop :=
  ∀ s s' : Sys, s'.nimble.core = s.nimble.core → s'.discLog = s.discLog → s'.profiles = s.profiles →
    A s → A s'

theorem stable_asked {q : ParserStatics} {req : GattReq} {part full : Sys → Prop}
    (hpart : Beside part) (hfull : Beside full)
    (hanswer : ∀ s s' rsp, part s → s.radio.gatt = [req] → (peers d).answers d s req rsp = true →
      gattCb s 0 rsp = some s' → s'.fault = none →
      (rsp.terminal = false ∧ part s') ∨ (rsp.terminal = true ∧ full s')) :
    Stable host (servedBy peers) (Asked ph d q req part full) := by
  rintro s s' ⟨e, hlive, hg, hstep⟩ h
  refine ⟨(eventStep_ctl hstep).trans h.ctl, h.basics.event hstep,
    (eventStep_parserStatics hstep).trans h.parser, fun hlive' => ?_⟩
  have hpending := h.pending (live_iff.mp hlive)
  by_cases he : ∃ i rsp, e = .gattCb i rsp
  · obtain ⟨i, rsp, rfl⟩ := he
    obtain ⟨req', hreq, hwaits⟩ := gattCb_waits hstep
    rcases hpending with ⟨hgatt, hpart'⟩ | ⟨hgatt, -⟩
    · obtain ⟨rfl, rfl⟩ : i = 0 ∧ req = req' := by
        rw [hgatt] at hreq
        cases i with
        | zero => exact ⟨rfl, Option.some.inj hreq⟩
        | succ i => cases hreq
      have hans : (peers d).answers d s req rsp = true := by
        have hg' : (match s.ctl.stage, s.radio.gatt[0]? with
          | .linked .open d .secured, some req => (peers d).answers d s req rsp
          | _, _ => true) = true := hg
        rw [h.ctl, hreq] at hg'
        exact hg'
      have hgatt' : s'.radio.gatt = if rsp.terminal then [] else [req] := by
        change s'.waits.gatt = _
        rw [hwaits]
        split
        · simp [Waits.ended, Sys.waits, hgatt]
        · exact hgatt
      rcases hanswer s s' rsp hpart' hgatt hans hstep hlive' with ⟨hterm, hnext⟩ | ⟨hterm, hnext⟩
      · exact .inl ⟨by rw [hgatt', hterm]; rfl, hnext⟩
      · exact .inr ⟨by rw [hgatt', hterm]; rfl, hnext⟩
    · rw [hgatt] at hreq
      cases hreq
  · have he' : ∀ i rsp, e ≠ .gattCb i rsp := fun i rsp heq => he ⟨i, rsp, heq⟩
    obtain ⟨hcore, hlog, -⟩ := eventStep_core hstep he'
    have hprofiles := eventStep_profiles hstep (fun _ => h.basics.not_releasing) fun i svc => he' i _
    have hgatt : s'.radio.gatt = s.radio.gatt := by
      change s'.waits.gatt = s.waits.gatt
      have heffect := eventStep_waits hstep
      generalize s'.waits = w at heffect
      cases heffect with
      | gattCb i rsp _ _ => exact absurd rfl (he' i rsp)
      | connection _ | other _ => rfl
    rw [hgatt]
    exact hpending.imp (And.imp_right (hpart s s' hcore hlog hprofiles))
      (And.imp_right (hfull s s' hcore hlog hprofiles))

/-- Between requests the variables of discovery stand. -/
theorem stable_core (A : Nimble → Prop) :
    Stable host (servedBy peers) fun s => Working peers ph d k P s ∧ A s.nimble.core := by
  intro s s' hstep h
  have hnext := stable_working s s' hstep h.1
  obtain ⟨e, -, -, hstep⟩ := hstep
  exact ⟨hnext, (h.1.basics.core (by rw [h.1.ctl]) hstep).1 ▸ h.2⟩

/-- The end of a wait for a callback. -/
theorem Asked.given {q : ParserStatics} {req : GattReq} {part full : Sys → Prop} {s : Sys}
    (h : Asked ph d q req part full s) (ch : Choice) (hlive : s.fault = none)
    (hready : Op.waitCb.ready s = true) :
    full s ∧ (Op.waitCb.exec ch s).ctl = ⟨ph, .linked .open d .secured, false⟩ ∧
      Basics (Op.waitCb.exec ch s) ∧ (Op.waitCb.exec ch s).nimble.parser = q := by
  have hgiven : s.nimble.cbSemaphore = true := hready
  have hempty := (h.basics.tokens.of_given hgiven).1
  refine ⟨?_, ?_, h.basics.exec hready (by rw [h.ctl]; rfl), h.parser⟩
  · refine ((h.pending hlive).resolve_left fun hleft => ?_).2
    rw [hempty] at hleft
    cases hleft.1
  · rw [exec_ctl]
    have hctl : s.view.ctl = asking ph d := h.ctl
    simp [View.exec, hctl]

/-- **A request of discovery** ends with the items of the table that it asks for. -/
theorem triple_answered (items : List α) (inj : α → GattRsp) (req : UInt16 → GattReq)
    (R : List α → Search → Prop) (y : List α → Dev) {o : Op} {f : Int → Prog β} {Q : β → Sys → Prop}
    {q : ParserStatics} (hdisc : ∀ conn, (req conn).discovers = true)
    (hinj : ∀ a, (inj a).terminal = false)
    (hat : o.At ⟨ph, .linked .open d .secured, false⟩)
    (hrc : ∀ (ch : Choice) (s : Sys), (servedBy peers).main o ch s = true → ch.rc = 0)
    (hctl : ∀ (ch : Choice) (v : View), ch.rc = 0 → (v.exec o ch).ctl = { v.ctl with awaiting := true })
    (hwaits : ∀ (ch : Choice) (s : Sys),
      s.waitsAfter ch o = s.waits.request ch (req (s.connHandle d)))
    (hparser : ∀ (ch : Choice) (s : Sys), (o.exec ch s).nimble.parser = s.nimble.parser)
    (hwrites : o.writesDev = false)
    (hstart : ∀ (ch : Choice) (s : Sys), (servedBy peers).main o ch s = true → P s.search →
      R [] (o.exec ch s).search)
    (hnext : ∀ conn s l rsp, R l s.search → (peers d).answers d s (req conn) rsp = true →
      rsp = Peer.next inj items l.length)
    (hitem : ∀ conn s s' l a, R l s.search → Listed (Described peers) (y l) s.profiles →
      s.radio.gatt = [req conn] → (peers d).answers d s (req conn) (inj a) = true →
      gattCb s 0 (inj a) = some s' → s'.fault = none →
      R (l ++ [a]) s'.search ∧ Listed (Described peers) (y (l ++ [a])) s'.profiles)
    (hid : ∀ l, (y l).id = (y []).id)
    (hf : Triple host (servedBy peers) (elsewhere peers)
      (Working peers ph d ⟨y items, .secured, q⟩ (R items)) (f 0) Q) :
    Triple host (servedBy peers) (elsewhere peers) (Working peers ph d ⟨y [], .secured, q⟩ P)
      (call o >>= fun rc => waitDisc >>= fun _ => f rc) Q := by
  let part : Sys → Prop := fun s => ∃ n ≤ items.length, R (items.take n) s.search ∧
    Listed (Described peers) (y (items.take n)) s.profiles
  let full : Sys → Prop := fun s => R items s.search ∧ Listed (Described peers) (y items) s.profiles ∧
    s.nimble.status = 0
  intro s₀ hs₀
  have hy : ∀ l, (y l).id = d := fun l => (hid l).trans hs₀.id
  revert s₀ hs₀
  have hstable : ∀ conn, Stable host (servedBy peers) (Asked ph d q (req conn) part full) := by
    refine fun conn => stable_asked ?_ ?_ ?_
    · rintro s s' hcore hlog hprofiles ⟨n, hn, hR, hlisted⟩
      exact ⟨n, hn, (search_of_core hcore hlog).symm ▸ hR, hprofiles.symm ▸ hlisted⟩
    · rintro s s' hcore hlog hprofiles ⟨hR, hlisted, hstatus⟩
      refine ⟨(search_of_core hcore hlog).symm ▸ hR, hprofiles.symm ▸ hlisted, ?_⟩
      change s'.nimble.core.status = 0
      rw [hcore]
      exact hstatus
    · rintro s s' rsp ⟨n, hn, hR, hlisted⟩ hgatt hans hstep hlive
      have hrsp := hnext conn s _ rsp hR hans
      rw [List.length_take, Nat.min_eq_left hn] at hrsp
      rcases Peer.next_eq inj hn with ⟨hlength, hdone⟩ | ⟨a, ha, htake⟩
      · obtain rfl := hrsp.trans hdone
        refine .inr ⟨rfl, ?_⟩
        rw [← hlength, List.take_length] at hR hlisted
        cases gattCb_cases hstep with
        | found _ _ => exact ⟨hR, hlisted, rfl⟩
        | read hreq | written hreq _ =>
          have hnot := hdisc conn
          rw [hgatt] at hreq
          rw [Option.some.inj hreq] at hnot
          cases hnot
      · obtain rfl := hrsp.trans ha
        have hlt : n + 1 ≤ items.length := by
          have hlength := congrArg List.length htake
          simp only [List.length_append, List.length_take, List.length_singleton] at hlength
          omega
        have hnext' := hitem conn s s' _ a hR hlisted hgatt hans hstep hlive
        rw [htake] at hnext'
        exact .inl ⟨hinj a, n + 1, hlt, hnext'⟩
  refine Triple.bind (B := fun rc s => rc = 0 ∧ ∃ conn, Asked ph d q (req conn) part full s)
    (triple_ask stable_working (fun _ => (Stable.const _).and (Stable.exists hstable))
      (fun s hs _ => hs.elsewhere) fun ch s hs _ hready hg _ => ?_) fun rc => Triple.pure fun hzero => ?_
  · have hzero := hrc ch s hg
    refine ⟨hzero, s.connHandle d, ?_, hs.basics.exec hready (hs.ctl ▸ hat),
      (hparser ch s).trans hs.parser,
      fun _ => .inl ⟨?_, 0, Nat.zero_le _, hstart ch s hg hs.search, ?_⟩⟩
    · rw [exec_ctl, hctl ch _ hzero]
      have hview : s.view.ctl = _ := hs.ctl
      rw [hview]
    · have hgatt : (o.exec ch s).radio.gatt = (s.waits.request ch (req (s.connHandle d))).gatt := by
        rw [← hwaits]
        exact congrArg Waits.gatt (exec_waits o ch s)
      rw [hgatt, Waits.request, if_pos hzero]
      simp [Sys.waits, (tokens_eq_zero hs.basics.tokens (by rw [hs.ctl])).2.1]
    · rw [exec_profiles ch s hwrites]
      exact hs.listed
  subst hzero
  refine Triple.bind (B := fun _ => Working peers ph d ⟨y items, .secured, q⟩ (R items)) ?_ fun _ => hf
  refine Triple.bind (B := fun _ s => Working peers ph d ⟨y items, .secured, q⟩ (R items) s ∧
    s.nimble.core.status = 0) (triple_ask (Stable.exists hstable)
      (fun _ => stable_core fun n => n.status = 0) (fun s hs hlive => ?_)
      fun ch s hs hlive hready _ _ => ?_) fun _ => triple_ask (stable_core fun n => n.status = 0)
        (fun _ => stable_working) (fun s hs _ => hs.1.elsewhere) fun ch s hs _ _ _ _ => ?_
  · obtain ⟨conn, hs⟩ := hs
    rcases hs.pending hlive with ⟨-, n, -, -, hlisted⟩ | ⟨-, -, hlisted, -⟩ <;>
      exact elsewhere_of_listed hs.ctl hlisted (hy _)
  · obtain ⟨conn, hs⟩ := hs
    obtain ⟨⟨hR, hlisted, hstatus⟩, hctl', hbasics, hparser'⟩ := hs.given ch hlive hready
    exact ⟨⟨hctl', hbasics, hparser', hR, hlisted, hy _⟩, hstatus⟩
  · have hstatus : s.nimble.status = 0 := hs.2
    rw [Op.exec, if_pos hstatus]
    exact hs.1

/-! ### Reads -/

/-- **A long read** brings the value of the table. -/
theorem triple_readLong (handle uuid : UInt16) (out : ReadVar) (hstep : k.step = .secured) :
    Triple host (servedBy peers) (elsewhere peers) (Working peers ph d k P)
      (readLongValue d handle uuid out) fun r s =>
        (r.1 = 0 ∧ r.2.plain = (peers d).read handle) ∧ Working peers ph d k P s := by
  rcases k with ⟨x, step, q⟩
  obtain rfl : step = .secured := hstep
  let part : Sys → Prop := fun s => P s.search ∧ Listed (Described peers) x s.profiles ∧
    ∀ buf, s.nimble.core.readDataVal = some buf →
      s.nimble.core.readDataLen = buf.bytes.length.toUInt16
  let read : Nimble → Prop := fun n => n.readStatus = 0 ∧
    (ReadVar.mk n.readDataVal n.readDataLen).plain = (peers d).read handle
  let full : Sys → Prop := fun s => P s.search ∧ Listed (Described peers) x s.profiles ∧
    read s.nimble.core
  intro s₀ hs₀
  have hid : x.id = d := hs₀.id
  revert s₀ hs₀
  have hstable : ∀ conn, Stable host (servedBy peers) (Asked ph d q (.read conn handle) part full) := by
    refine fun conn => stable_asked ?_ ?_ ?_
    · rintro s s' hcore hlog hprofiles ⟨hP, hlisted, hlen⟩
      exact ⟨(search_of_core hcore hlog).symm ▸ hP, hprofiles.symm ▸ hlisted, hcore.symm ▸ hlen⟩
    · rintro s s' hcore hlog hprofiles ⟨hP, hlisted, hread⟩
      exact ⟨(search_of_core hcore hlog).symm ▸ hP, hprofiles.symm ▸ hlisted, hcore.symm ▸ hread⟩
    · rintro s s' rsp ⟨hP, hlisted, hlen⟩ hgatt hans hstep hlive
      cases gattCb_cases hstep with
      | data bytes _ =>
        refine .inl ⟨rfl, ?_⟩
        simp only [onReadData] at hlive ⊢
        split at hlive
        · cases hlive
        · rename_i hroom
          rw [if_neg hroom]
          refine ⟨hP, hlisted, fun buf hbuf => ?_⟩
          obtain rfl := Option.some.inj hbuf
          simp [Nimble.core]
      | read _ =>
        refine .inr ⟨rfl, ?_⟩
        obtain ⟨buf, hbuf, hbytes⟩ := (Option.any_eq_true ..).mp hans
        have hsome : (s.endRequest 0).nimble.readDataVal.isSome = true := Option.isSome_of_mem hbuf
        rw [onReadDone, if_pos hsome]
        refine ⟨hP, hlisted, rfl, ?_⟩
        have hvalue := beq_iff_eq.mp hbytes
        have hlength : s.nimble.readDataLen = buf.bytes.length.toUInt16 := hlen buf hbuf
        simp [Nimble.core, ReadVar.plain, Peer.read, Buf.plain, hbuf, hlength, hvalue]
      | unread _ _ => cases hans
      | svc _ hreq | chr _ hreq | dsc _ hreq | found hreq hdisc | lost hreq hdisc _
      | written hreq _ =>
        rw [hgatt] at hreq
        cases hreq <;> cases hdisc
  refine Triple.bind (B := fun rc s => rc = 0 ∧ ∃ conn, Asked ph d q (.read conn handle) part full s)
    (triple_ask stable_working (fun _ => (Stable.const _).and (Stable.exists hstable))
      (fun s hs _ => hs.elsewhere) fun ch s hs _ hready hg _ => ?_) fun rc => Triple.pure fun hzero => ?_
  · have hzero : ch.rc = 0 := beq_iff_eq.mp hg
    have hat : (Op.readLong d handle uuid).At s.ctl := hs.ctl ▸ ⟨rfl, rfl⟩
    refine ⟨hzero, s.connHandle d, ?_, hs.basics.exec hready hat, hs.parser,
      fun _ => .inl ⟨?_, hs.search, hs.listed, fun buf hbuf => by cases hbuf⟩⟩
    · rw [exec_ctl]
      have hview : s.view.ctl = _ := hs.ctl
      simp [View.exec, hview, hzero]
    · simp [Op.exec, hzero, (tokens_eq_zero hs.basics.tokens (by rw [hs.ctl])).2.1]
  subst hzero
  refine Triple.bind (B := fun _ s => Working peers ph d ⟨x, .secured, q⟩ P s ∧ read s.nimble.core)
    (triple_ask (Stable.exists hstable) (fun _ => stable_core read) (fun s hs hlive => ?_)
      fun ch s hs hlive hready _ _ => ?_) fun _ => triple_ask (stable_core read)
        (fun _ => (Stable.const _).and stable_working) (fun s hs _ => hs.1.elsewhere)
        fun ch s hs _ hready _ _ => ?_
  · obtain ⟨conn, hs⟩ := hs
    rcases hs.pending hlive with ⟨-, -, hlisted, -⟩ | ⟨-, -, hlisted, -⟩ <;>
      exact elsewhere_of_listed hs.ctl hlisted hid
  · obtain ⟨conn, hs⟩ := hs
    obtain ⟨⟨hP, hlisted, hread⟩, hctl, hbasics, hparser⟩ := hs.given ch hlive hready
    exact ⟨⟨hctl, hbasics, hparser, hP, hlisted, hid⟩, hread⟩
  · have hstatus : s.nimble.readStatus = 0 := hs.2.1
    have hat : (Op.endRead uuid).At s.ctl := hs.1.ctl ▸ ⟨⟨d, rfl⟩, rfl⟩
    refine ⟨?_, hs.1.ctl, hs.1.basics.exec hready hat, hs.1.parser, hs.1.search, hs.1.listed, hs.1.id⟩
    simp only [hstatus, if_true]
    exact ⟨trivial, hs.2.2⟩

end Walk

/-! ## Outside of discovery -/

section Outside

variable {peers : DevId → Peer} {s s' : Sys} {o : Op} {c : Choice}

/-- Apart from allocation and release, a call leaves the blank device alone. -/
theorem blank?_outside (hat : o.At s.ctl) (ho : o.outside = true) (hwrites : o.writesDev = false) :
    (s.view.nextStage o c).blank? = s.ctl.stage.blank? := by
  cases o with
  | devMalloc _ _ | devFree _ => cases hwrites
  | gapConnect kind d =>
    have hst : s.view.ctl.stage = .begun kind d := hat.1
    simp only [View.nextStage, hst, show s.ctl.stage = .begun kind d from hst]
    split
    · rfl
    · split <;> cases kind <;> rfl
  | readConnId kind d =>
    have hst : s.view.ctl.stage = .connecting kind d := hat.1
    simp only [View.nextStage, hst, show s.ctl.stage = .connecting kind d from hst]
    split
    · rfl
    · split <;> cases kind <;> rfl
  | securityInitiate d =>
    obtain ⟨⟨kind, hst⟩, -⟩ := hat
    simp only [View.nextStage, show s.view.ctl.stage = _ from hst, hst, Stage.advance]
    split <;> cases kind <;> rfl
  | takeSec d _ _ =>
    obtain ⟨⟨kind, hst⟩, -⟩ := hat
    simp only [View.nextStage, show s.view.ctl.stage = _ from hst, hst, Stage.advance]
    cases kind <;> rfl
  | setConnected kind d =>
    obtain ⟨⟨step, hst, hlast⟩, -⟩ := hat
    rw [hst]
    cases kind with
    | reconnect => rfl
    | «open» => rcases hlast with rfl | rfl <;> rfl
  | postOpen kind d =>
    rw [hat.1]
    rfl
  | openCall site bda =>
    rw [show s.ctl = _ from hat]
    simp only [View.nextStage]
    split <;> rfl
  | reconnectCall d =>
    rw [show s.ctl = _ from hat]
    rfl
  | openReturns d =>
    cases d with
    | none =>
      rw [hat.1]
      rfl
    | some d =>
      rw [hat.1]
      rfl
  | reconnectReturns d =>
    cases d with
    | none =>
      obtain ⟨⟨d, hst | hst⟩, -⟩ := hat <;> rw [hst] <;> rfl
    | some d =>
      rw [hat.1]
      rfl
  | discAllSvcs _ | discAllChrs _ _ _ | discAllDscs _ _ _ | readLong _ _ _ | assertStatus
  | mallocReportMaps _ | mallocProtocolMode _ | mallocReport | readSvc _ | svcsDone | readChr _
  | readDefHandle _ | resetChrs | readDsc _ | resetDscs | setField _ _ | freeBuf _
  | readReportMap _ _ | parseReportMap _ => cases ho
  | _ => rfl

/-- Only parsing touches the parser's variables. -/
theorem exec_parserStatics (c : Choice) (s : Sys) (ho : o.outside = true) :
    (o.exec c s).nimble.parser = s.nimble.parser := by
  cases o with
  | awaitDisconnect _ _ | peekCmd _ | emitKey _ | gapDisc | reconnectReturns _ | readConnId _ _
  | devMalloc _ _ =>
    simp only [Op.exec]
    split <;> rfl
  | gapConnect kind d =>
    simp only [Op.exec]
    split
    · rfl
    · split <;> rfl
  | discAllSvcs _ | discAllChrs _ _ _ | discAllDscs _ _ _ | readLong _ _ _ | assertStatus
  | mallocReportMaps _ | mallocProtocolMode _ | mallocReport | readSvc _ | svcsDone | readChr _
  | readDefHandle _ | resetChrs | readDsc _ | resetDscs | setField _ _ | freeBuf _
  | readReportMap _ _ | parseReportMap _ => cases ho
  | _ => rfl

/-- Outside of discovery only writes are requested. -/
theorem exec_onlyWrites (h : ∀ req ∈ s.radio.gatt, req.writes = true) (ho : o.outside = true) :
    ∀ req ∈ (o.exec c s).radio.gatt, req.writes = true := by
  have hgatt : (o.exec c s).radio.gatt = (s.waitsAfter c o).gatt :=
    congrArg Waits.gatt (exec_waits o c s)
  rw [hgatt]
  cases o with
  | writeFlat conn handle value =>
    intro req hreq
    simp only [Sys.waitsAfter, Waits.request] at hreq
    split at hreq
    · rcases List.mem_append.mp hreq with hold | hnew
      · exact h req hold
      · rw [List.mem_singleton.mp hnew]
        rfl
    · exact h req hreq
  | gapConnect kind d =>
    simp only [Sys.waitsAfter]
    split
    · exact h
    · split <;> exact h
  | discAllSvcs _ | discAllChrs _ _ _ | discAllDscs _ _ _ | readLong _ _ _ => cases ho
  | _ => exact h

theorem outside_collects (ho : o.outside = true) : o.collects = false := by
  cases o with
  | discAllSvcs _ | discAllChrs _ _ _ | discAllDscs _ _ _ | readSvc _ | readChr _ | readDefHandle _
  | readDsc _ | svcsDone | resetChrs | resetDscs => cases ho
  | _ => rfl

theorem mem_ids_of_profiles {p : Dev} (h : p ∈ s.profiles) : p.id ∈ s.view.ids := by
  obtain ⟨dev, hdev, rfl⟩ := List.mem_map.mp h
  simp only [View.ids, Sys.view, List.map_map]
  exact List.mem_map_of_mem hdev

/-- **An operation outside of discovery.** -/
theorem Surveyed.exec (h : Surveyed peers s) (ho : o.outside = true) (hready : o.ready s = true)
    (hat : o.At s.ctl) : Surveyed peers (o.exec c s) := by
  have hsearch := exec_search c s (outside_collects ho)
  have hstage : (o.exec c s).ctl.stage = s.view.nextStage o c := by rw [exec_ctl, View.exec_stage]
  have hrest : (∀ p ∈ (o.exec c s).profiles, (o.exec c s).ctl.stage.blank? = some p.id → p = p.blank) ∧
      ∀ p ∈ (o.exec c s).profiles, (o.exec c s).ctl.stage.blank? ≠ some p.id → Described peers p := by
    by_cases hwrites : o.writesDev = false
    · rw [hstage, blank?_outside hat ho hwrites, exec_profiles c s hwrites]
      exact ⟨h.blank, h.described⟩
    · rw [hstage]
      cases o with
      | devMalloc bda addrType =>
        have hold : ∀ p ∈ s.profiles, Described peers p := fun p hp =>
          h.described p hp (by rw [hat.2.1]; exact fun heq => by cases heq)
        by_cases hrc : c.rc = 0
        · have hnext : s.view.nextStage (.devMalloc bda addrType) c = .begun .open s.hidh.nextDev :=
            if_pos hrc
          have hprofiles : ((Op.devMalloc bda addrType).exec c s).profiles = s.profiles ++
              [{ id := s.hidh.nextDev, bda := bda, addressType := addrType }] := by
            simp [Op.exec, hrc, Sys.profiles, Dev.profile]
          rw [hnext, hprofiles]
          refine ⟨fun p hp hid => ?_, fun p hp hid => ?_⟩ <;>
            rcases List.mem_append.mp hp with hp | hp
          · -- the identities before are below the next one
            have hlt := h.basics.list.fresh p.id (mem_ids_of_profiles hp)
            rw [← Option.some.inj hid] at hlt
            exact absurd hlt (Nat.lt_irrefl _)
          · rw [List.mem_singleton.mp hp]
            rfl
          · exact hold p hp
          · rw [List.mem_singleton.mp hp] at hid
            exact absurd rfl hid
        · have hnext : s.view.nextStage (.devMalloc bda addrType) c = .none := if_neg hrc
          have hprofiles : ((Op.devMalloc bda addrType).exec c s).profiles = s.profiles := by
            simp [Op.exec, hrc, Sys.profiles]
          rw [hnext, hprofiles]
          exact ⟨fun _ _ hid => (by cases hid), fun p hp _ => hold p hp⟩
      | devFree d =>
        have hst : s.ctl.stage.blank? = some d := by rw [hat.1]; rfl
        refine ⟨fun _ _ hid => (by cases hid), fun p hp _ => ?_⟩
        obtain ⟨dev, hdev, rfl⟩ := List.mem_map.mp hp
        obtain ⟨hdev, hne⟩ := List.mem_filter.mp hdev
        refine h.described _ (List.mem_map_of_mem hdev) ?_
        rw [hst]
        exact fun heq => bne_iff_ne.mp hne (Option.some.inj heq).symm
      | setField _ _ | mallocReportMaps _ | mallocProtocolMode _ => cases ho
      | _ => exact absurd rfl hwrites
  refine ⟨h.basics.exec hready hat, exec_onlyWrites h.writes ho, ?_, ?_, ?_, hrest.1, hrest.2⟩
  · rw [hsearch]
    exact h.chrs
  · rw [hsearch]
    exact h.dscs
  · rw [exec_parserStatics c s ho]
    exact fun hzero => h.parser (show s.search.servicesDiscovered = 0 from hsearch ▸ hzero)

/-- **An event outside of discovery.** Only writes can be answered. -/
theorem Surveyed.event {e : Event} (h : Surveyed peers s) (hstep : eventStep e s = some s') :
    Surveyed peers s' := by
  have hwrite : ∀ i (req : GattReq), s.radio.gatt[i]? = some req → req.writes = true :=
    fun i req hreq => h.writes req (List.mem_of_getElem? hreq)
  have hsvc : ∀ i svc, e ≠ .gattCb i (.svc svc) := by
    rintro i svc rfl
    cases gattCb_cases (show gattCb s i (.svc svc) = some s' from hstep) with
    | svc _ hreq => cases hwrite i _ hreq
    | written _ hterm => cases hterm
  have hsearch : s'.search = s.search := by
    by_cases he : ∃ i rsp, e = .gattCb i rsp
    · obtain ⟨i, rsp, rfl⟩ := he
      have hfits : ∀ req, s.radio.gatt[i]? = some req → s.search.Fits req rsp := by
        intro req hreq
        cases req with
        | write _ _ _ _ => cases rsp <;> trivial
        | _ => cases hwrite i _ hreq
      obtain ⟨req, hreq, hanswer⟩ := gattCb_search hstep hfits
      rw [hanswer]
      cases req with
      | write _ _ _ _ => cases rsp <;> rfl
      | _ => cases hwrite i _ hreq
    · exact eventStep_search hstep fun i rsp heq => he ⟨i, rsp, heq⟩
  have hctl := eventStep_ctl hstep
  have hprofiles := eventStep_profiles hstep (fun _ => h.basics.not_releasing) hsvc
  have hgatt : s'.radio.gatt ⊆ s.radio.gatt := (eventStep_waits hstep).gatt_subset
  refine ⟨h.basics.event hstep, fun req hreq => h.writes req (hgatt hreq), ?_, ?_, ?_, ?_, ?_⟩
  · rw [hsearch]
    exact h.chrs
  · rw [hsearch]
    exact h.dscs
  · rw [eventStep_parserStatics hstep]
    exact fun hzero => h.parser (show s.search.servicesDiscovered = 0 from hsearch ▸ hzero)
  · rw [hprofiles, hctl]
    exact h.blank
  · rw [hprofiles, hctl]
    exact h.described

theorem carried_surveyed :
    Carried Op.outside (servedBy peers) (elsewhere peers) (Surveyed peers) where
  exec _ _ _ ho h _ hready _ hat := h.exec ho hready hat
  env := by
    rintro s s' ⟨e, -, -, hstep⟩ h
    exact h.event hstep
  pre _ _ _ h _ _ := h.elsewhere

theorem Surveyed.boot (cfg : KbdConfig) (bonds : List (Bda × UInt8)) :
    Surveyed peers (boot cfg bonds).state where
  basics := .boot cfg bonds
  writes _ h := by cases h
  chrs := rfl
  dscs := rfl
  parser _ := rfl
  blank _ h := by cases h
  described _ h := by cases h

end Outside

end BleKbdHost.Host
