import BleKbdHost.Host.Served
import BleKbdHost.Host.Survey

/-!
# Discovery reads the table

Where a peer's answers are those of an attribute table, `read_device_services` makes of the device
what `Peer.device` makes of the table. One walk through the program shows it, so that in every run a
device on the list, once its discovery is over, is the one that its peer's table describes.
-/

namespace BleKbdHost.Host

open Hid Keys Conc

section Walk

variable {peers : DevId → Peer} {ph : Phase} {d : DevId} {k j : Desk} {x y : Dev}
variable {P R : Search → Prop} {α β : Type}

/-! ### One characteristic -/

/-- Between the attributes of the services. -/
abbrev Survey.desk (x : Survey) : Desk := { dev := x.dev }

/-- The locals are those of the survey. -/
structure DiscVars.Follows (v : DiscVars) (x : Survey) : Prop where
  report : v.report = x.report
  hidindex : v.hidindex = x.hidindex

/-- How the examination of a characteristic goes on is how the survey goes on. -/
def ChrNext.Follows : ChrNext → Survey × Bool → Prop
  | .stop, _ => False
  | .skip v, r => v.Follows r.1 ∧ r.2 = false
  | .descriptors v, r => v.Follows r.1 ∧ r.2 = true

theorem dev?_of_listed {S : Dev → Prop} {s : Sys} (h : Listed S x s.profiles) (hid : x.id = d) :
    ∃ dev, s.dev? d = some dev ∧ dev.profile = x := by
  obtain ⟨dev, hdev, rfl⟩ := List.mem_map.mp h.mem
  have hsome : (s.dev? d).isSome = true :=
    List.find?_isSome.mpr ⟨dev, hdev, beq_iff_eq.mpr hid⟩
  obtain ⟨dev', hdev'⟩ := Option.isSome_iff_exists.mp hsome
  refine ⟨dev', hdev', h.same _ (List.mem_map_of_mem (List.mem_of_find?_eq_some hdev')) ?_⟩
  exact (dev?_id hdev').trans hid.symm

theorem triple_looksDev {dflt : α} {f : Dev → α} {p : α → Prop}
    (hf : ∀ dev : Dev, dev.profile = k.dev → p (f dev)) :
    Triple host (servedBy peers) (elsewhere peers) (Working peers ph d k P) (lookDev d dflt f)
      fun a s => p a ∧ Working peers ph d k P s := by
  refine triple_steady ⟨rfl, rfl⟩ (fun _ _ _ _ => rfl) (fun _ _ => rfl) rfl rfl fun _ s hs _ => ?_
  obtain ⟨dev, hdev, hprofile⟩ := dev?_of_listed hs.listed hs.id
  rw [hdev]
  exact hf dev hprofile

variable {chr : GattChr} {v : DiscVars} {s : Survey}

theorem triple_stores {field : ReadVar → DevField} (hv : v.Follows s)
    (hfield : ∀ out, (field out).plain = field out.plain) :
    Triple host (servedBy peers) (elsewhere peers) (Working peers ph d s.desk P)
      (readInto d chr v field) fun v' t => v'.Follows ((peers d).store chr field s) ∧
        Working peers ph d ((peers d).store chr field s).desk P t := by
  refine Triple.bind (triple_readLong chr.valHandle chr.uuid16 v.out rfl) fun r => Triple.pure fun hr => ?_
  obtain ⟨rc, out⟩ := r
  obtain ⟨hzero, hread⟩ : rc = 0 ∧ out.plain = (peers d).read chr.valHandle := hr
  have hlen : ((peers d).read chr.valHandle).rlen = out.rlen := by rw [← hread, ReadVar.plain_rlen]
  unfold Peer.store
  rw [hlen]
  refine Triple.bind (B := fun _ => Working peers ph d (if out.rlen ≠ 0 then
    s.write (field ((peers d).read chr.valHandle)) else s).desk P) (.ite (fun hlong => ?_) fun hshort => ?_)
      fun _ => .ret stable_working fun _ hs => ⟨?_, hs⟩
  · rw [if_pos hlong.2, ← hread, ← hfield]
    exact triple_writes _ (.inl rfl)
  · rw [if_neg fun hne => hshort ⟨hzero, hne⟩]
    exact .ret stable_working fun _ => id
  · split
    · exact ⟨hv.report, hv.hidindex⟩
    · exact ⟨hv.report, hv.hidindex⟩

/-- What a step of the examination leaves behind, where the survey gives `r`. -/
abbrev Charted (peers : DevId → Peer) (ph : Phase) (d : DevId) (P : Search → Prop)
    (r : Survey × Bool) (next : ChrNext) (t : Sys) : Prop :=
  next.Follows r ∧ Working peers ph d r.1.desk P t

theorem triple_skipped (hv : v.Follows s) :
    Triple host (servedBy peers) (elsewhere peers) (Working peers ph d s.desk P) (.ret (.skip v))
      (Charted peers ph d P (s, false)) :=
  .ret stable_working fun _ hs => ⟨⟨hv, rfl⟩, hs⟩

theorem triple_descends (hv : v.Follows s) :
    Triple host (servedBy peers) (elsewhere peers) (Working peers ph d s.desk P)
      (.ret (.descriptors v)) (Charted peers ph d P (s, true)) :=
  .ret stable_working fun _ hs => ⟨⟨hv, rfl⟩, hs⟩

theorem triple_gapChr_served (hv : v.Follows s) :
    Triple host (servedBy peers) (elsewhere peers) (Working peers ph d s.desk P) (gapChr d chr v)
      (Charted peers ph d P ((peers d).gapChr chr s)) := by
  refine Triple.bind (triple_looksDev (p := (· = s.dev.deviceName.isSome)) fun dev hdev => ?_)
    fun named => Triple.pure fun hnamed => ?_
  · have hdev' : dev.profile = s.dev := hdev
    rw [← hdev']
    simp [Dev.profile]
  · subst hnamed
    unfold Peer.gapChr
    refine .ite (fun hreads => ?_) fun hskips => ?_
    · rw [if_pos hreads]
      exact Triple.bind (triple_stores hv fun _ => rfl) fun v' => Triple.pure triple_descends
    · rw [if_neg hskips]
      exact triple_skipped hv

theorem triple_basChr_served (hv : v.Follows s) :
    Triple host (servedBy peers) (elsewhere peers) (Working peers ph d s.desk P) (basChr d chr v)
      (Charted peers ph d P (Peer.basChr chr s)) := by
  unfold Peer.basChr
  refine .ite (fun hreads => ?_) fun hskips => ?_
  · rw [if_pos hreads]
    exact Triple.bind (triple_writes (.batteryHandle chr.valHandle) (.inl rfl)) fun _ =>
      triple_descends (s := s.write (.batteryHandle chr.valHandle)) ⟨hv.report, hv.hidindex⟩
  · rw [if_neg hskips]
    exact triple_skipped hv

theorem triple_frees (buf : Option Buf) (hstep : k.step = .secured) :
    Triple host (servedBy peers) (elsewhere peers) (Working peers ph d k P) (.perform (.freeBuf buf))
      fun _ => Working peers ph d k P := by
  have hat : (Op.freeBuf buf).At ⟨ph, .linked .open d k.step, false⟩ := ⟨⟨d, by rw [hstep]⟩, rfl⟩
  refine (triple_steady (p := fun _ => True) hat (fun _ _ _ _ => rfl) (fun ch s => ?_) rfl rfl
    fun _ _ _ _ => trivial).weaken fun _ s hs => hs.2
  cases buf <;> rfl

theorem triple_readPnpId (hv : v.Follows s) :
    Triple host (servedBy peers) (elsewhere peers) (Working peers ph d s.desk P) (readPnpId d chr v)
      (Charted peers ph d P ((peers d).pnpId chr s, false)) := by
  refine Triple.bind (triple_readLong chr.valHandle chr.uuid16 v.out rfl) fun r => Triple.pure fun hr => ?_
  obtain ⟨rc, out⟩ := r
  obtain ⟨hzero, hread⟩ : rc = 0 ∧ out.plain = (peers d).read chr.valHandle := hr
  unfold Peer.pnpId
  rw [← hread]
  simp only [ReadVar.plain_rlen, ReadVar.plain_half]
  refine Triple.bind (B := fun _ => Working peers ph d (if out.rlen = 7 then
    s.write (.pnpId (out.half 1) (out.half 3) (out.half 5)) else s).desk P)
      (.ite (fun hlong => ?_) fun hshort => ?_) fun _ =>
      Triple.bind (triple_frees out.rdata rfl) fun _ => triple_skipped ?_
  · rw [if_pos hlong.2]
    exact triple_writes (.pnpId _ _ _) (.inl rfl)
  · rw [if_neg fun heq => hshort ⟨hzero, heq⟩]
    exact .ret stable_working fun _ => id
  · split
    · exact ⟨hv.report, hv.hidindex⟩
    · exact ⟨hv.report, hv.hidindex⟩

theorem triple_disChr_served (hv : v.Follows s) :
    Triple host (servedBy peers) (elsewhere peers) (Working peers ph d s.desk P) (disChr d chr v)
      (Charted peers ph d P ((peers d).disChr chr s, false)) := by
  unfold Peer.disChr
  refine .ite (fun hreads => ?_) fun hskips => ?_
  · simp only [if_pos hreads]
    refine .ite (fun hpnp => ?_) fun hpnp => ?_
    · simp only [if_pos hpnp]
      exact triple_readPnpId hv
    simp only [if_neg hpnp]
    refine .ite (fun hmaker => ?_) fun hmaker => ?_
    · simp only [if_pos hmaker]
      exact Triple.bind (triple_stores hv fun _ => rfl) fun v' => Triple.pure triple_skipped
    simp only [if_neg hmaker]
    refine .ite (fun hserial => ?_) fun hserial => ?_
    · simp only [if_pos hserial]
      exact Triple.bind (triple_stores hv fun _ => rfl) fun v' => Triple.pure triple_skipped
    · simp only [if_neg hserial]
      exact triple_skipped hv
  · simp only [if_neg hskips]
    exact triple_skipped hv

/-- The allocation of a report succeeds. -/
theorem triple_allocates (hstep : k.step = .secured) :
    Triple host (servedBy peers) (elsewhere peers) (Working peers ph d k P) (call .mallocReport)
      fun rc s => rc = 0 ∧ Working peers ph d k P s := by
  have hzero : ∀ (ch : Choice) (s : Sys), (servedBy peers).main .mallocReport ch s = true →
      ch.rc = 0 := fun _ _ hg => beq_iff_eq.mp hg
  have hat : Op.mallocReport.At ⟨ph, .linked .open d k.step, false⟩ := ⟨⟨d, by rw [hstep]⟩, rfl⟩
  refine triple_steady hat (fun ch s _ hg => ?_) (fun _ _ => rfl) rfl rfl
    fun ch s _ hg => hzero ch s hg
  simp only [View.exec, hzero ch s hg]
  rfl

theorem triple_hidChr_served (hv : v.Follows s) :
    Triple host (servedBy peers) (elsewhere peers) (Working peers ph d s.desk P) (hidChr d chr v)
      (Charted peers ph d P ((peers d).hidChr chr s)) := by
  unfold Peer.hidChr
  refine .ite (fun hmode => ?_) fun hmode => ?_
  · simp only [if_pos hmode]
    refine .ite (fun hreads => ?_) fun hskips => ?_
    · simp only [if_pos hreads, ← hv.hidindex]
      exact Triple.bind (triple_stores hv fun out => by simp [DevField.plain]) fun v' =>
        Triple.pure triple_skipped
    · simp only [if_neg hskips]
      exact triple_skipped hv
  simp only [if_neg hmode]
  refine .ite (fun hmap => ?_) fun hmap => ?_
  · simp only [if_pos hmap]
    refine .ite (fun hreads => ?_) fun hskips => ?_
    · simp only [if_pos hreads, ← hv.hidindex]
      exact Triple.bind (triple_stores hv fun out => by simp [DevField.plain, ReadVar.plain]) fun v' =>
        Triple.pure triple_skipped
    · simp only [if_neg hskips]
      exact triple_skipped hv
  simp only [if_neg hmap]
  refine .ite (fun hreport => ?_) fun hreport => ?_
  · rw [if_pos (show Peer.isReport chr.uuid16 from hreport)]
    refine Triple.bind (triple_allocates rfl) fun rc => Triple.pure fun hrc => ?_
    rw [if_neg (not_not_intro hrc)]
    exact triple_descends (s := { s with report := some (newReport chr s.hidindex) })
      ⟨by rw [hv.hidindex], hv.hidindex⟩
  · rw [if_neg (show ¬Peer.isReport chr.uuid16 from hreport)]
    exact triple_skipped hv

/-- **One characteristic.** -/
theorem triple_examineChr_served (suuid : UInt16) (hv : v.Follows s) :
    Triple host (servedBy peers) (elsewhere peers) (Working peers ph d s.desk P)
      (examineChr d suuid chr v) (Charted peers ph d P ((peers d).examineChr suuid chr s)) := by
  unfold Peer.examineChr
  refine .ite (fun hgap => ?_) fun hgap => ?_
  · rw [if_pos hgap]
    exact triple_gapChr_served hv
  rw [if_neg hgap]
  refine .ite (fun hbas => ?_) fun hbas => ?_
  · rw [if_pos hbas]
    exact triple_basChr_served hv
  rw [if_neg hbas]
  refine .ite (fun hdis => ?_) fun hdis => ?_
  · rw [if_pos hdis]
    exact triple_disChr_served hv
  · rw [if_neg hdis]
    exact triple_hidChr_served hv

/-! ### The descriptors of a characteristic -/

variable {A : Collection GattSvc → Prop} {B : Collection GattChr → Prop} {q : ParserStatics}

/-- What the loops leave behind, where the survey gives `x`. -/
abbrev Noted (peers : DevId → Peer) (ph : Phase) (d : DevId) (P : Search → Prop) (x : Survey)
    (v : DiscVars) (t : Sys) : Prop :=
  v.Follows x ∧ Working peers ph d x.desk P t

theorem triple_noted (hv : v.Follows s) :
    Triple host (servedBy peers) (elsewhere peers) (Working peers ph d s.desk P) (.ret v)
      (Noted peers ph d P s) :=
  .ret stable_working fun _ hs => ⟨hv, hs⟩

/-- An operation on the collections. -/
theorem triple_collects {o : Op} {r : Choice → Sys → α} {p : α → Prop}
    (hat : o.At ⟨ph, .linked .open d .secured, false⟩)
    (hctl : ∀ (ch : Choice) (v : View), (v.exec o ch).ctl = v.ctl)
    (hparser : ∀ (ch : Choice) (s : Sys), (o.exec ch s).nimble.parser = s.nimble.parser)
    (hwrites : o.writesDev = false)
    (hexec : ∀ (ch : Choice) (s : Sys), P s.search → p (r ch s) ∧ R (o.exec ch s).search) :
    Triple host (servedBy peers) (elsewhere peers) (Working peers ph d ⟨x, .secured, q⟩ P) (.ask o r)
      fun a s => p a ∧ Working peers ph d ⟨x, .secured, q⟩ R s := by
  refine triple_working hat (fun ch s hs _ => (hctl ch _).trans hs) (fun ch s hs _ _ => ?_) rfl
  obtain ⟨hp, hR⟩ := hexec ch s hs.search
  exact ⟨hp, (hparser ch s).trans hs.parser, hR, (exec_profiles ch s hwrites).symm ▸ hs.listed⟩

theorem absorb_parserStatics {s : Sys} {r : Except Fault α} {f : α → Sys}
    (h : ∀ a, (f a).nimble.parser = s.nimble.parser) :
    (s.absorb r f).nimble.parser = s.nimble.parser := by
  cases r with
  | ok a => exact h a
  | error _ => rfl

theorem triple_readReportRef (dsc : GattDsc) {report : DevReport} (hv : v.Follows s) :
    Triple host (servedBy peers) (elsewhere peers) (Working peers ph d s.desk P)
      (readReportRef d dsc report v) (Noted peers ph d P (if ((peers d).read dsc.handle).rlen ≠ 0 then
        { s with report := some { report with
          reportId := ((peers d).read dsc.handle).byte 0
          reportType := ((peers d).read dsc.handle).byte 1 } } else s)) := by
  refine Triple.bind (triple_readLong dsc.handle dsc.uuid16 v.out rfl) fun r => Triple.pure fun hr => ?_
  obtain ⟨rc, out⟩ := r
  obtain ⟨hzero, hread⟩ : rc = 0 ∧ out.plain = (peers d).read dsc.handle := hr
  rw [← hread]
  simp only [ReadVar.plain_rlen, ReadVar.plain_byte]
  refine .ite (fun hlong => ?_) fun hshort => ?_
  · rw [if_pos hlong.2]
    exact Triple.bind (triple_frees out.rdata rfl) fun _ => triple_noted (s := { s with
      report := some { report with reportId := out.byte 0, reportType := out.byte 1 } })
        ⟨rfl, hv.hidindex⟩
  · rw [if_neg fun hne => hshort ⟨hzero, hne⟩]
    exact triple_noted ⟨hv.report, hv.hidindex⟩

theorem triple_reportDsc_served (dsc : GattDsc) {report : DevReport} (hv : v.Follows s)
    (hreport : s.report = some report) :
    Triple host (servedBy peers) (elsewhere peers) (Working peers ph d s.desk P)
      (reportDsc d dsc report v)
      (Noted peers ph d P { s with report := some ((peers d).describe report dsc) }) := by
  have hsame : s = { s with report := some report } := by rw [← hreport]
  unfold Peer.describe
  refine .ite (fun hccc => ?_) fun hccc => ?_
  · simp only [if_pos hccc]
    exact triple_noted (s := { s with report := some { report with cccHandle := dsc.handle } })
      ⟨rfl, hv.hidindex⟩
  simp only [if_neg hccc]
  refine .ite (fun href => ?_) fun href => ?_
  · simp only [if_pos href]
    refine (triple_readReportRef dsc hv).weaken fun v' t ht => ?_
    split at ht
    · rename_i hlong
      rw [if_pos hlong]
      exact ht
    · rename_i hshort
      rw [if_neg hshort, ← hsame]
      exact ht
  · simp only [if_neg href]
    rw [← hsame]
    exact triple_noted hv

theorem triple_examineDsc_served (suuid : UInt16) (dsc : GattDsc) (hv : v.Follows s) :
    Triple host (servedBy peers) (elsewhere peers) (Working peers ph d s.desk P)
      (examineDsc d suuid chr dsc v)
      (Noted peers ph d P ((peers d).examineDsc suuid chr s dsc)) := by
  unfold Peer.examineDsc examineDsc
  refine .ite (fun hbas => ?_) fun hbas => ?_
  · rw [if_pos hbas]
    refine Triple.bind (B := fun _ => Working peers ph d (if dsc.uuid16 = Uuid.cltCfg ∧
      canNotify chr.properties then s.write (.batteryCccHandle dsc.handle) else s).desk P)
        (.ite (fun hccc => ?_) fun hccc => ?_) fun _ => triple_noted ?_
    · rw [if_pos hccc]
      exact triple_writes (.batteryCccHandle dsc.handle) (.inl rfl)
    · rw [if_neg hccc]
      exact .ret stable_working fun _ => id
    · split
      · exact ⟨hv.report, hv.hidindex⟩
      · exact hv
  rw [if_neg hbas, hv.report]
  cases hreport : s.report with
  | none => exact triple_noted hv
  | some report =>
    refine .ite (fun hhid => ?_) fun hhid => ?_
    · simp only [if_pos hhid]
      exact triple_reportDsc_served dsc hv hreport
    · simp only [if_neg hhid]
      exact triple_noted hv

/-- **The loop over the descriptors** folds over those of the table. -/
theorem triple_dscLoop_served (suuid : UInt16) {items : List GattDsc} : ∀ (rest seen : List GattDsc)
    (v : DiscVars) (s : Survey), items = seen ++ rest → v.Follows s →
      Triple host (servedBy peers) (elsewhere peers)
        (Working peers ph d s.desk (Search.All A B (Collects items)))
        (dscLoop d suuid chr rest.length seen.length v)
        (Noted peers ph d (Search.All A B (Collects items))
          (rest.foldl ((peers d).examineDsc suuid chr) s)) := by
  intro rest
  induction rest with
  | nil => exact fun _ v s _ hv => triple_noted hv
  | cons dsc rest ih =>
    intro seen v s hitems hv
    have hlt : seen.length < items.length := by simp [hitems]
    have hdsc : items[seen.length] = dsc := by simp [hitems]
    refine Triple.bind (triple_collects (p := (· = dsc)) (R := Search.All A B (Collects items))
      ⟨⟨d, rfl⟩, rfl⟩ (fun _ _ => rfl) (fun _ _ => absorb_parserStatics fun _ => rfl) rfl
      fun ch t ht => ?_) fun dsc' => Triple.pure fun hdsc' => ?_
    · have hslot := slot_eq_ok (ht.dscs.slot hlt)
      rw [hdsc] at hslot
      refine ⟨by rw [show slot t.nimble.descrResult seen.length = .ok dsc from hslot]; rfl, ?_⟩
      rw [exec_readDsc hslot]
      exact ⟨ht.svcs, ht.chrs, ht.dscs.process⟩
    · subst hdsc'
      refine Triple.bind (triple_examineDsc_served suuid dsc' hv) fun v' => Triple.pure fun hv' => ?_
      have hnext := ih (seen ++ [dsc']) v' _ (by simp [hitems]) hv'
      rwa [List.length_append] at hnext

theorem triple_pushReport_served (suuid : UInt16) (hv : v.Follows s) :
    Triple host (servedBy peers) (elsewhere peers) (Working peers ph d s.desk P)
      (pushReport d suuid v) fun _ => Working peers ph d (Peer.pushReport suuid s).desk P := by
  unfold Peer.pushReport pushReport
  rw [hv.report]
  cases s.report with
  | none => exact .ret stable_working fun _ => id
  | some report =>
    refine .ite (fun hhid => ?_) fun hhid => ?_
    · simp only [if_pos hhid]
      exact triple_writes (.pushReport report) (.inl rfl)
    · simp only [if_neg hhid]
      exact .ret stable_working fun _ => id

/-- Where the run goes on, there was room for the answer to the request. -/
theorem answered_of_live {s s' : Sys} {req : GattReq} {rsp : GattRsp} (hgatt : s.radio.gatt = [req])
    (h : gattCb s 0 rsp = some s') (hlive : s'.fault = none) :
    s.search.Fits req rsp ∧ s'.search = s.search.answer req rsp := by
  have hfits : s.search.Fits req rsp := by
    cases gattCb_cases h with
    | svc svc hreq =>
      obtain rfl := Option.some.inj ((congrArg (·[0]?) hgatt).symm.trans hreq)
      rcases svcDisced_cases s _ svc with ⟨-, hfail⟩ | ⟨hlt, -⟩
      · rw [hfail] at hlive
        cases hlive
      · exact hlt
    | chr chr hreq =>
      obtain rfl := Option.some.inj ((congrArg (·[0]?) hgatt).symm.trans hreq)
      change s.nimble.chrsDiscovered < s.nimble.charResult.length
      by_contra hfull
      rw [chrDisced, Sys.store, if_neg hfull] at hlive
      cases hlive
    | dsc dsc hreq =>
      obtain rfl := Option.some.inj ((congrArg (·[0]?) hgatt).symm.trans hreq)
      change s.nimble.dscsDiscovered < s.nimble.descrResult.length
      by_contra hfull
      rw [descDisced, Sys.store, if_neg hfull] at hlive
      cases hlive
    | written _ hrsp => cases req <;> cases rsp <;> trivial
    | _ => cases req <;> trivial
  have hreq : s.radio.gatt[0]? = some req := by rw [hgatt]; rfl
  refine ⟨hfits, ?_⟩
  obtain ⟨req', hreq', hsearch⟩ := gattCb_search h fun req' hreq' => by
    obtain rfl := Option.some.inj (hreq.symm.trans hreq')
    exact hfits
  rw [hsearch, Option.some.inj (hreq'.symm.trans hreq)]

/-- **The descriptors of a characteristic.** -/
theorem triple_chrDescriptors_served (suuid endHandle : UInt16) (hv : v.Follows s) :
    Triple host (servedBy peers) (elsewhere peers)
      (Working peers ph d s.desk (Search.All A B Uncounted))
      (chrDescriptors d suuid chr endHandle v)
      (Noted peers ph d (Search.All A B Uncounted)
        ((peers d).chrDescriptors suuid chr endHandle s)) := by
  refine triple_answered ((peers d).dscs chr.valHandle endHandle) .dsc
    (fun conn => .dscs conn chr.valHandle endHandle) (fun l => Search.All A B (Collects l))
    (fun _ => s.dev) (fun _ => rfl) (fun _ => rfl) ⟨rfl, rfl⟩ (fun _ _ hg => beq_iff_eq.mp hg)
    (fun _ _ _ => rfl) (fun _ _ => rfl) (fun _ _ => rfl) rfl
    (fun ch t _ ht => ⟨ht.svcs, ht.chrs, .request (by decide) ht.dscs⟩)
    (fun conn t l rsp ht hans => ?_) (fun conn t t' l a ht hlisted hgatt _ hstep hlive => ?_)
    (fun _ => rfl) ?_
  · rw [← ht.dscs.reported]
    exact beq_iff_eq.mp hans
  · obtain ⟨hroom, hsearch⟩ := answered_of_live hgatt hstep hlive
    rw [hsearch, eventStep_profiles (e := .gattCb 0 (.dsc a)) hstep (by simp) (by simp)]
    exact ⟨⟨ht.svcs, ht.chrs, ht.dscs.report hroom⟩, hlisted⟩
  refine Triple.bind (triple_reads (p := (· % 65536 = ((peers d).dscs chr.valHandle endHandle).length))
    fun t ht => ht.search.dscs.count_mod) fun dcount => Triple.pure fun hcount => ?_
  rw [if_pos rfl, hcount]
  refine Triple.bind (triple_dscLoop_served suuid _ [] v s rfl hv) fun v' => Triple.pure fun hv' => ?_
  refine Triple.bind (triple_pushReport_served suuid hv') fun _ => ?_
  refine Triple.bind (triple_collects (p := fun _ => True) (R := Search.All A B Uncounted)
    ⟨⟨d, rfl⟩, rfl⟩ (fun _ _ => rfl) (fun _ _ => rfl) rfl
    fun ch t ht => ⟨trivial, ht.svcs, ht.chrs, rfl⟩) fun _ => Triple.pure fun _ => triple_noted ?_
  unfold Peer.pushReport
  split
  · split
    · exact ⟨hv'.report, hv'.hidindex⟩
    · exact hv'
  · exact hv'

/-! ### The characteristics of a service -/

theorem triple_chrEndHandle_served (svc : GattSvc) {items seen rest : List GattChr}
    (hitems : items = seen ++ chr :: rest) :
    Triple host (servedBy peers) (elsewhere peers)
      (Working peers ph d s.desk (Search.All A (Collects items) Uncounted))
      (chrEndHandle svc rest.length seen.length) fun endHandle t =>
        endHandle = Peer.endHandle svc rest ∧
          Working peers ph d s.desk (Search.All A (Collects items) Uncounted) t := by
  unfold chrEndHandle
  cases rest with
  | nil => exact .ret stable_working fun _ ht => ⟨rfl, ht⟩
  | cons next rest =>
    rw [if_neg (by simp)]
    refine triple_collects ⟨⟨d, rfl⟩, rfl⟩ (fun _ _ => rfl)
      (fun _ _ => absorb_parserStatics fun _ => rfl) rfl
      fun ch t ht => ⟨?_, ?_⟩
    · have hlt : seen.length + 1 < items.length := by simp [hitems]
      have hnext : items[seen.length + 1] = next := by simp [hitems]
      have hslot := slot_eq_ok (ht.chrs.slot hlt)
      rw [hnext] at hslot
      rw [show slot t.nimble.charResult (seen.length + 1) = .ok next from hslot]
      rfl
    · rw [Op.exec, absorb_search fun _ => rfl]
      exact ht

/-- What the loops over characteristics and services leave behind. -/
abbrev Through (peers : DevId → Peer) (ph : Phase) (d : DevId) (P : Search → Prop) (x : Survey)
    (v? : Option DiscVars) (t : Sys) : Prop :=
  ∃ v, v? = some v ∧ Noted peers ph d P x v t

theorem triple_through (hv : v.Follows s) :
    Triple host (servedBy peers) (elsewhere peers) (Working peers ph d s.desk P) (.ret (some v))
      (Through peers ph d P s) :=
  .ret stable_working fun _ hs => ⟨v, rfl, hv, hs⟩

/-- **The loop over the characteristics.** -/
theorem triple_chrLoop_served (svc : GattSvc) {items : List GattChr} : ∀ (rest seen : List GattChr)
    (v : DiscVars) (s : Survey), items = seen ++ rest → v.Follows s →
      Triple host (servedBy peers) (elsewhere peers)
        (Working peers ph d s.desk (Search.All A (Collects items) Uncounted))
        (chrLoop d svc rest.length seen.length v)
        (Through peers ph d (Search.All A (Collects items) Uncounted)
          ((peers d).examineChrs svc rest s)) := by
  intro rest
  induction rest with
  | nil => exact fun _ v s _ hv => triple_through hv
  | cons chr rest ih =>
    intro seen v s hitems hv
    have hlt : seen.length < items.length := by simp [hitems]
    have hchr : items[seen.length] = chr := by simp [hitems]
    have hnext : ∀ (v' : DiscVars) (s' : Survey), v'.Follows s' →
        Triple host (servedBy peers) (elsewhere peers)
          (Working peers ph d s'.desk (Search.All A (Collects items) Uncounted))
          (chrLoop d svc rest.length (seen.length + 1) v')
          (Through peers ph d (Search.All A (Collects items) Uncounted)
            ((peers d).examineChrs svc rest s')) := by
      intro v' s' hv'
      have hrest := ih (seen ++ [chr]) v' s' (by simp [hitems]) hv'
      rwa [List.length_append] at hrest
    refine Triple.bind (triple_collects (p := (· = chr))
      (R := Search.All A (Collects items) Uncounted) ⟨⟨d, rfl⟩, rfl⟩ (fun _ _ => rfl)
      (fun _ _ => absorb_parserStatics fun _ => rfl) rfl fun ch t ht => ?_) fun chr' =>
        Triple.pure fun hchr' => ?_
    · have hslot := slot_eq_ok (ht.chrs.slot hlt)
      rw [hchr] at hslot
      refine ⟨by rw [show slot t.nimble.charResult seen.length = .ok chr from hslot]; rfl, ?_⟩
      rw [exec_readChr hslot]
      exact ⟨ht.svcs, ht.chrs.process, ht.dscs⟩
    subst hchr'
    rw [Peer.examineChrs]
    refine Triple.bind (triple_examineChr_served svc.uuid16 hv) fun next =>
      Triple.pure fun hfollows => ?_
    revert hfollows
    generalize (peers d).examineChr svc.uuid16 chr' s = r
    obtain ⟨s', descends⟩ := r
    intro hfollows
    cases next with
    | stop => exact hfollows.elim
    | skip v' =>
      obtain ⟨hv', rfl⟩ := hfollows
      exact hnext v' s' hv'
    | descriptors v' =>
      obtain ⟨hv', rfl⟩ := hfollows
      refine Triple.bind (triple_chrEndHandle_served svc hitems) fun endHandle =>
        Triple.pure fun hend => ?_
      subst hend
      exact Triple.bind (triple_chrDescriptors_served svc.uuid16 _ hv') fun v'' =>
        Triple.pure fun hv'' => hnext v'' _ hv''

/-! ### The services -/

theorem triple_examineSvc_served (svc : GattSvc) (hv : v.Follows s) :
    Triple host (servedBy peers) (elsewhere peers)
      (Working peers ph d s.desk (Search.All A Uncounted Uncounted)) (examineSvc d svc v)
      (Through peers ph d (Search.All A Uncounted Uncounted) ((peers d).examineSvc s svc)) := by
  unfold Peer.examineSvc
  refine .ite (fun hsvc => ?_) fun hother => ?_
  · rw [if_pos hsvc]
    refine triple_answered ((peers d).chrs svc.startHandle svc.endHandle) .chr
      (fun conn => .chrs conn svc.startHandle svc.endHandle)
      (fun l => Search.All A (Collects l) Uncounted) (fun _ => s.dev) (fun _ => rfl)
      (fun _ => rfl) ⟨rfl, rfl⟩ (fun _ _ hg => beq_iff_eq.mp hg) (fun _ _ _ => rfl) (fun _ _ => rfl)
      (fun _ _ => rfl) rfl (fun ch t _ ht => ⟨ht.svcs, .request (by decide) ht.chrs, ht.dscs⟩)
      (fun conn t l rsp ht hans => ?_) (fun conn t t' l a ht hlisted hgatt _ hstep hlive => ?_)
      (fun _ => rfl) ?_
    · rw [← ht.chrs.reported]
      exact beq_iff_eq.mp hans
    · obtain ⟨hroom, hsearch⟩ := answered_of_live hgatt hstep hlive
      rw [hsearch, eventStep_profiles (e := .gattCb 0 (.chr a)) hstep (by simp) (by simp)]
      exact ⟨⟨ht.svcs, ht.chrs.report hroom, ht.dscs⟩, hlisted⟩
    refine Triple.bind (triple_reads
      (p := (· % 65536 = ((peers d).chrs svc.startHandle svc.endHandle).length))
      fun t ht => ht.search.chrs.count_mod) fun ccount => Triple.pure fun hcount => ?_
    rw [if_pos rfl, hcount]
    refine Triple.bind (triple_chrLoop_served svc _ [] v s rfl hv) fun v? => Triple.of_exists fun v' =>
      Triple.pure fun hsome => Triple.pure fun hv' => ?_
    subst hsome
    refine Triple.bind (triple_collects (p := fun _ => True) (R := Search.All A Uncounted Uncounted)
      ⟨⟨d, rfl⟩, rfl⟩ (fun _ _ => rfl) (fun _ _ => rfl) rfl
      fun ch t ht => ⟨trivial, ht.svcs, rfl, ht.dscs⟩) fun _ => Triple.pure fun _ => ?_
    refine .ite (fun hhid => ?_) fun hhid => ?_
    · simp only [if_pos hhid.2]
      exact triple_through (s := { (peers d).examineChrs svc _ s with
        hidindex := ((peers d).examineChrs svc _ s).hidindex + 1 })
        ⟨hv'.report, congrArg (· + 1) hv'.hidindex⟩
    · simp only [if_neg fun h => hhid ⟨rfl, h⟩]
      exact triple_through hv'
  · rw [if_neg hother]
    exact triple_through hv

/-- **The loop over the services.** -/
theorem triple_svcLoop_served {items : List GattSvc} : ∀ (rest seen : List GattSvc) (v : DiscVars)
    (s : Survey), items = seen ++ rest → v.Follows s →
      Triple host (servedBy peers) (elsewhere peers)
        (Working peers ph d s.desk (Search.All (Collects items) Uncounted Uncounted))
        (svcLoop d rest.length seen.length v)
        (Through peers ph d (Search.All (Collects items) Uncounted Uncounted)
          (rest.foldl (peers d).examineSvc s)) := by
  intro rest
  induction rest with
  | nil => exact fun _ v s _ hv => triple_through hv
  | cons svc rest ih =>
    intro seen v s hitems hv
    have hlt : seen.length < items.length := by simp [hitems]
    have hsvc : items[seen.length] = svc := by simp [hitems]
    refine Triple.bind (triple_collects (p := (· = svc))
      (R := Search.All (Collects items) Uncounted Uncounted) ⟨⟨d, rfl⟩, rfl⟩ (fun _ _ => rfl)
      (fun _ _ => absorb_parserStatics fun _ => rfl) rfl fun ch t ht => ?_) fun svc' =>
        Triple.pure fun hsvc' => ?_
    · have hslot := slot_eq_ok (ht.svcs.slot hlt)
      rw [hsvc] at hslot
      refine ⟨by rw [show slot t.nimble.serviceResult seen.length = .ok svc from hslot]; rfl, ?_⟩
      rw [exec_readSvc hslot]
      exact ⟨ht.svcs.process, ht.chrs, ht.dscs⟩
    subst hsvc'
    refine Triple.bind (triple_examineSvc_served svc' hv) fun v? => Triple.of_exists fun v' =>
      Triple.pure fun hsome => Triple.pure fun hv' => ?_
    subst hsome
    have hrest := ih (seen ++ [svc']) v' _ (by simp [hitems]) hv'
    rwa [List.length_append] at hrest

/-! ### The report maps -/

/-- Parsing a raw map, as in `parsedMaps`. -/
theorem triple_parses {raw : RawReportMap} (hlen : raw.len ≠ 0) (raws : List RawReportMap) :
    Triple host (servedBy peers) (elsewhere peers) (Working peers ph d k P) (parseReportMap raw.data)
      fun map? s => ∃ q, parsedMaps k.parser (raw.plain :: raws) = map? :: parsedMaps q raws ∧
        Working peers ph d { k with parser := q } P s := by
  refine .op stable_working (fun s hs _ => hs.elsewhere) fun c s hs _ _ _ => ?_
  rcases raw with ⟨_ | buf, len⟩
  · exact wp_of_dead rfl _
  have hbasics : Basics ((Op.parseReportMap (some buf)).exec c s) :=
    hs.basics.exec rfl (hs.ctl ▸ ⟨⟨d, _, rfl⟩, rfl⟩)
  simp only [exec_host]
  revert hbasics
  simp only [Op.exec]
  by_cases hfreed : s.freed.contains buf.token = true
  · rw [if_pos hfreed]
    exact fun _ => wp_of_dead rfl _
  rw [if_neg hfreed, hs.parser]
  cases hparse : espHidParseReportMap k.parser buf.bytes with
  | error fault => exact fun _ => wp_of_dead rfl _
  | ok r =>
    obtain ⟨map?, q⟩ := r
    intro hbasics s' hrun _
    refine ⟨q, ?_, stable_working.interfere hrun ⟨hs.ctl, hbasics, rfl, hs.search, hs.listed, hs.id⟩⟩
    have hlen' : ¬len = 0 := hlen
    rw [parsedMaps.eq_def]
    simp [RawReportMap.plain, Buf.plain, hparse]

/-- The read of a raw map. -/
theorem triple_readsMap {before raws : List RawReportMap} {raw : RawReportMap}
    (hmaps : k.dev.reportMaps = some (before ++ raw :: raws)) :
    Triple host (servedBy peers) (elsewhere peers) (Working peers ph d k P)
      (readReportMap d before.length) fun raw' s => raw'.plain = raw ∧ Working peers ph d k P s := by
  have hat : (Op.readReportMap d before.length).At ⟨ph, .linked .open d k.step, false⟩ :=
    ⟨⟨_, rfl⟩, rfl⟩
  refine triple_steady hat (fun _ _ _ _ => rfl) (fun _ _ => absorb_parserStatics fun _ => rfl) rfl rfl
    fun ch s hs _ => ?_
  obtain ⟨dev, hdev, hprofile⟩ := dev?_of_listed hs.listed hs.id
  rw [← hprofile] at hmaps
  obtain ⟨maps, hdevmaps, hplain⟩ := Option.map_eq_some_iff.mp hmaps
  have hnext : (maps.map RawReportMap.plain)[before.length]? = some raw := by simp [hplain]
  rw [List.getElem?_map] at hnext
  obtain ⟨raw', hraw', rfl⟩ := Option.map_eq_some_iff.mp hnext
  simp [Sys.reportMap, hdev, hdevmaps, slot, hraw', Except.toOption]

/-- **The loop over the report maps.** -/
theorem triple_mapLoop_served : ∀ (raws before : List RawReportMap) (x : Dev) (q : ParserStatics),
    x.reportMaps = some (before ++ raws) → x.appearance ≠ 0 →
      Triple host (servedBy peers) (elsewhere peers) (Working peers ph d ⟨x, .discovered, q⟩ P)
        (mapLoop d raws.length before.length) fun _ s => ∃ q', (raws = [] → q' = q) ∧
          Working peers ph d ⟨{ x with
            reports := matchLoop before.length (parsedMaps q raws) x.reports }, .discovered, q'⟩ P s := by
  intro raws
  induction raws with
  | nil => exact fun before x q _ _ => .ret stable_working fun s hs => ⟨q, fun _ => rfl, hs⟩
  | cons raw raws ih =>
    intro before x q hmaps happearance
    have hnext : ∀ (q' : ParserStatics) (reports : List DevReport),
        Triple host (servedBy peers) (elsewhere peers)
          (Working peers ph d ⟨{ x with reports := reports }, .discovered, q'⟩ P)
          (mapLoop d raws.length (before.length + 1)) fun _ s => ∃ q'', (raw :: raws = [] → q'' = q) ∧
            Working peers ph d ⟨{ x with
              reports := matchLoop (before.length + 1) (parsedMaps q' raws) reports },
                .discovered, q''⟩ P s := by
      intro q' reports
      have hrest := ih (before ++ [raw]) { x with reports := reports } q' (by simp [hmaps]) happearance
      rw [List.length_append] at hrest
      exact hrest.weaken fun _ s ⟨q'', _, hs⟩ => ⟨q'', by simp, hs⟩
    refine Triple.bind (triple_looksDev (p := (· = x.reports)) fun dev hdev => ?_) fun reports =>
      Triple.pure fun hreports => ?_
    · exact (congrArg Dev.reports hdev :)
    subst hreports
    have hskip : x.reports = [] ∨ raw.len = 0 →
        Triple host (servedBy peers) (elsewhere peers) (Working peers ph d ⟨x, .discovered, q⟩ P)
          (mapLoop d raws.length (before.length + 1)) fun _ s => ∃ q', (raw :: raws = [] → q' = q) ∧
            Working peers ph d ⟨{ x with
              reports := matchLoop before.length (parsedMaps q (raw :: raws)) x.reports },
                .discovered, q'⟩ P s := by
      intro hnothing
      have hsame : matchLoop before.length (parsedMaps q (raw :: raws)) x.reports =
          matchLoop (before.length + 1) (parsedMaps q raws) x.reports := by
        rcases hnothing with hnone | hlen
        · rw [hnone, matchLoop_nil, matchLoop_nil]
        · rw [parsedMaps.eq_def]
          simp [hlen, matchLoop]
      rw [hsame]
      exact hnext q x.reports
    refine .ite (fun hempty => hskip (.inl (List.isEmpty_iff.mp hempty))) fun _ => ?_
    refine Triple.bind (triple_readsMap hmaps) fun raw' => Triple.pure fun hraw => ?_
    subst hraw
    refine .ite (fun hlen => hskip (.inr hlen)) fun hlen => ?_
    refine Triple.bind (triple_parses hlen raws) fun map? => Triple.of_exists fun q' =>
      Triple.pure fun hparsed => ?_
    rw [show parsedMaps q _ = _ from hparsed]
    cases map? with
    | none => exact hnext q' x.reports
    | some map =>
      refine Triple.bind (triple_looksDev (p := (· = x.appearance)) fun dev hdev => ?_)
        fun appearance => Triple.pure fun hsame => ?_
      · exact (congrArg Dev.appearance hdev :)
      refine Triple.bind (B := fun _ => Working peers ph d ⟨x, .discovered, q'⟩ P)
        (.ite (fun hzero => absurd (hsame.symm.trans hzero) happearance) fun _ =>
          .ret stable_working fun _ => id) fun _ => ?_
      exact Triple.bind (triple_writes (.reports _) (.inr rfl)) fun _ => hnext q' _

/-! ### `read_device_services` -/

/-- The allocation of the raw report maps. -/
theorem triple_mallocsMaps :
    Triple host (servedBy peers) (elsewhere peers) (Working peers ph d ⟨x, .secured, q⟩ P)
      (call (.mallocReportMaps d)) fun rc s => rc = 0 ∧ Working peers ph d
        ⟨{ x with reportMaps := some (List.replicate x.reportMapsLen.toNat {}) }, .secured, q⟩ P s := by
  have hzero : ∀ (ch : Choice) (s : Sys), (servedBy peers).main (.mallocReportMaps d) ch s = true →
      ch.rc = 0 := fun _ _ hg => beq_iff_eq.mp hg
  refine triple_working ⟨rfl, rfl⟩ (fun ch s hs hg => ?_) (fun ch s hs hg _ => ?_) rfl
  · simp only [View.exec, hzero ch s hg]
    exact hs
  · have hrc := hzero ch s hg
    refine ⟨hrc, ?_, ?_, ?_⟩
    · rw [Op.exec, if_pos hrc]
      exact hs.parser
    · rw [exec_search ch s rfl]
      exact hs.search
    · rw [profiles_mallocReportMaps hrc, ← hs.id]
      exact hs.listed.write (f := fun p =>
        { p with reportMaps := some (List.replicate p.reportMapsLen.toNat {}) }) rfl

/-- The allocation of the protocol modes, whose memory holds what it held. -/
theorem triple_mallocsModes :
    Triple host (servedBy peers) (elsewhere peers) (Working peers ph d ⟨x, .secured, q⟩ P)
      (call (.mallocProtocolMode d)) fun rc s => ∃ memory : List UInt8,
        memory.length = x.reportMapsLen.toNat ∧ rc = 0 ∧
          Working peers ph d ⟨{ x with protocolMode := some memory }, .secured, q⟩ P s := by
  refine triple_ask stable_working (fun _ => .exists fun _ => (Stable.const _).and
    ((Stable.const _).and stable_working)) (fun s hs _ => hs.elsewhere) fun ch s hs _ hready hg _ => ?_
  have hrc : ch.rc = 0 := beq_iff_eq.mp hg
  have hat : (Op.mallocProtocolMode d).At s.ctl := hs.ctl ▸ ⟨rfl, rfl⟩
  refine ⟨freshBytes ch x.reportMapsLen.toNat, by simp [freshBytes], hrc, ?_,
    hs.basics.exec hready hat, ?_, ?_, ?_, hs.id⟩
  · rw [exec_ctl]
    have hview : s.view.ctl = _ := hs.ctl
    simp [View.exec, hview, hrc]
  · rw [Op.exec, if_pos hrc]
    exact hs.parser
  · rw [exec_search ch s rfl]
    exact hs.search
  · rw [profiles_mallocProtocolMode hrc, ← hs.id]
    exact hs.listed.write (f := fun p =>
      { p with protocolMode := some (freshBytes ch p.reportMapsLen.toNat) }) rfl

/-- The device whose HID services are counted. -/
abbrev counting (x : Dev) (svcs : List GattSvc) : Dev := { x with reportMapsLen := Peer.hidCount svcs }

theorem hidCount_append (svcs : List GattSvc) (svc : GattSvc) : Peer.hidCount (svcs ++ [svc]) =
    if svc.uuid16 = Uuid.hid then Peer.hidCount svcs + 1 else Peer.hidCount svcs := by
  unfold Peer.hidCount
  rw [List.countP_append, List.countP_singleton]
  by_cases hhid : svc.uuid16 = Uuid.hid
  · simp [hhid]
  · simp [hhid]

/-- A service that is reported to the device is counted. -/
theorem listed_svc {s s' : Sys} {conn : UInt16} {svcs : List GattSvc} {svc : GattSvc}
    (hgatt : s.radio.gatt = [.services conn])
    (hlisted : Listed (Described peers) (counting x svcs) s.profiles)
    (hconn : (s.getByConnId conn).any (·.id == x.id) = true) (h : gattCb s 0 (.svc svc) = some s')
    (hlive : s'.fault = none) :
    Listed (Described peers) (counting x (svcs ++ [svc])) s'.profiles := by
  obtain ⟨dev, hdev, hid⟩ := (Option.any_eq_true ..).mp hconn
  cases gattCb_cases h with
  | written _ hterm => cases hterm
  | svc svc hreq =>
    obtain rfl : conn = _ := GattReq.services.inj
      (Option.some.inj ((congrArg (·[0]?) hgatt).symm.trans hreq))
    rcases svcDisced_cases s conn svc with ⟨-, hfail⟩ | ⟨-, -, -, -, hsame | hfound⟩
    · rw [hfail] at hlive
      cases hlive
    · have hother : svc.uuid16 ≠ Uuid.hid := hsame.1.resolve_left (by simp [hdev])
      rw [Sys.profiles, hsame.2, counting, hidCount_append, if_neg hother]
      exact hlisted
    · obtain ⟨dev', hdev', hhid, hdevices⟩ := hfound
      obtain rfl := Option.some.inj (hdev.symm.trans hdev')
      have hcount : Peer.hidCount (svcs ++ [svc]) = Peer.hidCount svcs + 1 :=
        (hidCount_append svcs svc).trans (if_pos hhid)
      let f : Dev → Dev := fun p => { p with reportMapsLen := p.reportMapsLen + 1 }
      rw [counting, hcount, profiles_setDev (g := f) (fun _ => rfl) hdevices, beq_iff_eq.mp hid]
      exact hlisted.write (f := f) rfl

/-- **Discovery makes of a blank device the one that its table describes.** -/
theorem triple_readDeviceServices_served (happearance : x.appearance ≠ 0) :
    Triple host (servedBy peers) (elsewhere peers)
      (Working peers ph d ⟨counting x [], .secured, q⟩
        (Search.All (fun c => Uncounted c → q = .init) Uncounted Uncounted))
      (readDeviceServices d) fun _ s => ∃ (memory : List UInt8) (q' : ParserStatics),
        ((peers d).services.length < 256 ∧
          memory.length = (Peer.hidCount (peers d).services).toNat) ∧
        Working peers ph d ⟨(peers d).device x memory, .discovered, q'⟩
          (Search.All (fun c => Uncounted c → q' = .init) Uncounted Uncounted) s := by
  intro s₀ hs₀
  have hid : x.id = d := hs₀.id
  revert s₀ hs₀
  refine triple_answered (peers d).services .svc .services
    (fun l => Search.All (fun c => Collects l c ∧ q = .init) Uncounted Uncounted) (counting x)
    (fun _ => rfl) (fun _ => rfl) ⟨rfl, rfl⟩ (fun _ _ hg => ?_)
    (fun ch v hrc => by simp [View.exec, hrc]) (fun _ _ => rfl) (fun _ _ => rfl) rfl
    (fun ch t hg ht => ?_) (fun conn t l rsp ht hans => ?_)
    (fun conn t t' l a ht hlisted hgatt hans hstep hlive => ?_) (fun _ => rfl) ?_
  · exact beq_iff_eq.mp (Bool.and_eq_true_iff.mp hg).1
  · have hcount : Uncounted t.search.svcs := beq_iff_eq.mp (Bool.and_eq_true_iff.mp hg).2
    exact ⟨⟨.request (by decide) hcount, ht.svcs hcount⟩, ht.chrs, ht.dscs⟩
  · rw [← ht.svcs.1.reported]
    exact beq_iff_eq.mp (Bool.and_eq_true_iff.mp hans).1
  · obtain ⟨hroom, hsearch⟩ := answered_of_live hgatt hstep hlive
    rw [hsearch]
    refine ⟨⟨⟨ht.svcs.1.report hroom, ht.svcs.2⟩, ht.chrs, ht.dscs⟩,
      listed_svc hgatt hlisted ?_ hstep hlive⟩
    rw [hid]
    exact (Bool.and_eq_true_iff.mp hans).2
  refine Triple.strengthen (Triple.pure fun hinit => ?_) fun s hs => ⟨hs.search.svcs.2,
    hs.weaken (R := Search.All (Collects (peers d).services) Uncounted Uncounted)
      fun h => ⟨h.svcs.1, h.chrs, h.dscs⟩⟩
  subst hinit
  refine Triple.bind (triple_reads
    (p := fun n => n % 65536 = (peers d).services.length ∧ (peers d).services.length < 256)
    fun t ht => ⟨ht.search.svcs.count_mod, ht.search.svcs.few⟩) fun dcount => Triple.pure fun hcount => ?_
  obtain ⟨hcount, hfew⟩ := hcount
  rw [if_pos rfl, hcount]
  refine Triple.bind triple_mallocsMaps fun mapsRc => Triple.pure fun hmapsRc => ?_
  rw [if_neg (not_not_intro hmapsRc)]
  refine Triple.bind triple_mallocsModes fun modeRc => Triple.of_exists fun memory =>
    Triple.pure fun hmemory => Triple.pure fun hmodeRc => ?_
  rw [if_neg (not_not_intro hmodeRc)]
  refine Triple.bind (triple_svcLoop_served (peers d).services [] {}
    { dev := (peers d).tables x memory } rfl ⟨rfl, rfl⟩) fun v? => Triple.of_exists fun v =>
      Triple.pure fun hsome => Triple.pure fun _ => ?_
  subst hsome
  let dev := (peers d).surveyed x memory
  have hframe : SameFrame ((peers d).tables x memory) dev := surveyed_frame ..
  refine Triple.bind (B := fun _ => Working peers ph d ⟨dev, .discovered, .init⟩
    (Search.All (·.count = (peers d).services.length) Uncounted Uncounted)) ?_ fun _ => ?_
  · have hat : Op.svcsDone.At ⟨ph, .linked .open d .secured, false⟩ := ⟨⟨d, rfl⟩, rfl⟩
    refine (triple_working (o := .svcsDone) (k := ⟨dev, .secured, .init⟩)
      (j := ⟨dev, .discovered, .init⟩) (p := fun _ => True) hat (fun ch s hs _ => ?_)
      (fun ch s hs _ _ => ⟨trivial, hs.parser, ?_, hs.listed⟩) rfl).weaken fun _ s hs => hs.2
    · have hview : s.view.ctl = _ := hs
      simp [View.exec, hview, Stage.advance]
    · exact ⟨hs.search.svcs.count, hs.search.chrs, hs.search.dscs⟩
  refine Triple.bind (triple_looksDev (p := (· = dev.reportMapsLen)) fun dev' hdev' => ?_) fun len =>
    Triple.pure fun hlen' => ?_
  · exact (congrArg Dev.reportMapsLen hdev' :)
  obtain ⟨maps, hmaps, hlength⟩ := Option.map_eq_some_iff.mp (hframe.maps.trans rfl)
  have hcounted : maps.length = len.toNat := by
    rw [hlength, List.length_replicate, hlen', hframe.reportMapsLen]
    rfl
  rw [← hcounted]
  have hnamed : dev.appearance ≠ 0 := by
    rw [hframe.appearance]
    exact happearance
  refine (triple_mapLoop_served maps [] dev .init hmaps hnamed).weaken fun _ s hs => ?_
  obtain ⟨q', hq', hs⟩ := hs
  refine ⟨memory, q', ⟨hfew, hmemory⟩, ?_⟩
  have hdevice : (peers d).device x memory =
      { dev with reports := matchLoop 0 (parsedMaps .init maps) dev.reports } := by
    rw [Peer.device, show ((peers d).surveyed x memory).reportMaps = some maps from hmaps]
    rfl
  rw [hdevice]
  refine hs.weaken fun h => ⟨fun hzero => hq' ?_, h.chrs, h.dscs⟩
  have hnone : (peers d).services = [] := List.length_eq_zero_iff.mp (h.svcs.symm.trans hzero)
  rw [← List.length_eq_zero_iff, hlength, List.length_replicate]
  simp [hnone, Peer.hidCount]

end Walk

/-! ## Discovery in a run -/

section Runs

variable {peers : DevId → Peer} {cfg : KbdConfig} {bonds : List (Bda × UInt8)} {c : HostConfig}

/-- **Discovery describes the device,** wherever a run comes to it. -/
theorem discovery_described (ph : Phase) (d : DevId) :
    Triple host (servedBy peers) (elsewhere peers) (Standing (Surveyed peers) (discovering ph d))
      (readDeviceServices d) fun _ => Discovered (Surveyed peers) ph d := by
  rintro s ⟨hctl, h⟩
  have hview : s.view.ctl = discovering ph d := hctl
  have hids : s.view.ids = s.profiles.map (·.id) := by
    simp [View.ids, Sys.view, Sys.profiles, Dev.key, Dev.profile, Function.comp_def]
  have hmem : d ∈ s.profiles.map (·.id) :=
    hids ▸ h.basics.list.attempted d (by rw [hview]; rfl)
  obtain ⟨p, hp, rfl⟩ := List.mem_map.mp hmem
  have hsame : ∀ p' ∈ s.profiles, p'.id = p.id → p' = p := fun p' hp' =>
    List.inj_on_of_nodup_map (hids ▸ h.basics.list.nodup) hp' hp
  have hblank : p = p.blank := h.blank p hp (by rw [hctl]; rfl)
  have hlisted : Listed (Described peers) p s.profiles := ⟨hp, hsame, fun p' hp' hne =>
    h.described p' hp' (by rw [hctl]; exact fun heq => hne (Option.some.inj heq).symm)⟩
  have hcounting : counting p [] = p := by
    rw [hblank]
    rfl
  have hworking : Working peers ph p.id ⟨counting p [], .secured, s.nimble.parser⟩
      (Search.All (fun c => Uncounted c → s.nimble.parser = .init) Uncounted Uncounted) s :=
    ⟨hctl, h.basics, rfl, ⟨h.parser, h.chrs, h.dscs⟩, hcounting.symm ▸ hlisted, rfl⟩
  have happearance : p.appearance ≠ 0 := by
    rw [hblank]
    exact (by decide : (0x03C0 : UInt16) ≠ 0)
  refine (triple_readDeviceServices_served happearance).weaken (fun _ s' hs' => ?_) s hworking
  obtain ⟨memory, q, hmemory, hs'⟩ := hs'
  have hself : ((peers p.id).device p memory).blank = p :=
    (surveyed_frame (peers p.id) p memory).blank.trans hblank.symm
  have hdescribed : Described peers ((peers p.id).device p memory) := by
    rw [Described, show ((peers p.id).device p memory).id = p.id from hs'.id]
    exact ⟨hmemory.1, memory, hmemory.2, by rw [hself]⟩
  have hgatt := (tokens_eq_zero hs'.basics.tokens (by rw [hs'.ctl])).2.1
  refine ⟨.discovered, .inl rfl, hs'.ctl, hs'.basics, ?_, hs'.search.chrs, hs'.search.dscs,
    fun hzero => hs'.parser.trans (hs'.search.svcs hzero), ?_, fun p' hp' _ => ?_⟩
  · rw [hgatt]
    exact fun req hreq => by cases hreq
  · rw [hs'.ctl]
    exact fun _ _ hid => by cases hid
  · by_cases hid : p'.id = ((peers p.id).device p memory).id
    · rw [hs'.listed.same p' hp' hid]
      exact hdescribed
    · exact hs'.listed.rest p' hp' hid

/-- Wherever a run stands, the devices on the list are described, apart from the one that is being
opened. -/
theorem elsewhere_of_reach (h : Reach host (servedBy peers) (boot cfg bonds) c)
    (hlive : c.state.fault = none) : Elsewhere peers c.state := by
  have hcarried : Carried Op.outside (servedBy peers) (elsewhere peers) (Surveyed peers) :=
    carried_surveyed
  have hwp := hcarried.reach (triple_espHidhDevOpen hcarried discovery_described) (.boot cfg bonds) h
  cases htask : c.task with
  | ret l =>
    rw [htask] at hwp
    obtain ⟨q, -, -, hs⟩ := hwp _ .refl (live_iff.mpr hlive)
    exact hs.elsewhere
  | op o k =>
    rw [htask] at hwp
    exact (hwp _ .refl (live_iff.mpr hlive)).1

/-- **A device on the list is the one that its peer's table describes,** once it is opened. -/
theorem devicesDescribed (h : Reach host (servedBy peers) (boot cfg bonds) c)
    (hlive : c.state.fault = none) {dev : Dev} (hdev : dev ∈ c.state.hidh.devices)
    (hpending : c.state.ctl.stage.pending? ≠ some dev.id) :
    (peers dev.id).Describes dev.profile :=
  elsewhere_of_reach h hlive dev.profile (List.mem_map_of_mem hdev) hpending

/-- The table of a keyboard. -/
def keyboardPeer : Peer where
  services := [⟨Uuid.hid, 1, 9⟩]
  chrs _ _ := [⟨Uuid.reportMap, 2, 3, 2⟩, ⟨Uuid.rpt, 4, 5, 0x12⟩]
  dscs _ _ := [⟨Uuid.cltCfg, 6⟩, ⟨Uuid.rptRef, 7⟩]
  value handle := if handle = 3 then keyboardMap else [0, ReportType.input]

/-- A keyboard is open. -/
theorem keyboardServed : ∃ c, Reach host (servedBy fun _ => keyboardPeer) (boot {} []) c ∧
    c.state.fault = none ∧ c.state.ctl.stage.pending? = none ∧
    ∃ dev ∈ c.state.hidh.devices, dev.reports ≠ [] := by
  let run := scanRun 7 ++ selectRun ++ linkRun 7 ++ keyboardRun [1]
  obtain ⟨c, hrun, hstate⟩ := exists_run (servedBy fun _ => keyboardPeer) run (boot {} []) (fun c =>
    decide (c.state.fault = none ∧ c.state.ctl.stage.pending? = none ∧
      ∃ dev ∈ c.state.hidh.devices, dev.reports ≠ [])) (by decide +kernel)
  exact ⟨c, .of_run hrun, of_decide_eq_true hstate⟩

/-- The device of a keyboard is what its table describes. -/
theorem devicesDescribed_keyboard : ∃ dev : Dev, dev.reports ≠ [] ∧
    keyboardPeer.Describes dev.profile := by
  obtain ⟨c, hreach, hlive, hpending, dev, hdev, hreports⟩ := keyboardServed
  exact ⟨dev, hreports, devicesDescribed hreach hlive hdev (by rw [hpending]; simp)⟩

/-- **It has one report for each report characteristic** of its peer's HID services: with the
characteristic's handle and flags, the client configuration and the report reference of its
descriptors, and the number of its service. -/
theorem reportsOfTable (h : Reach host (servedBy peers) (boot cfg bonds) c)
    (hlive : c.state.fault = none) {dev : Dev} (hdev : dev ∈ c.state.hidh.devices)
    (hpending : c.state.ctl.stage.pending? ≠ some dev.id) :
    dev.reports.map DevReport.bare =
      ((peers dev.id).hidReports 0 (peers dev.id).services).reverse.map DevReport.bare :=
  (elsewhere_of_reach h hlive dev.profile (List.mem_map_of_mem hdev) hpending).reports

/-- The report of the keyboard. -/
theorem reportsOfTable_keyboard : ∃ dev : Dev, dev.reports.map DevReport.bare =
    [{ mapIndex := 0, reportId := 0, reportType := ReportType.input
       protocolMode := ProtocolMode.report, valueLen := 0, usage := .generic
       handle := 5, cccHandle := 6, permissions := 0x12 }] := by
  obtain ⟨c, hreach, hlive, hpending, dev, hdev, -⟩ := keyboardServed
  exact ⟨dev, (reportsOfTable hreach hlive hdev (by rw [hpending]; simp)).trans (by decide)⟩

end Runs

end BleKbdHost.Host
