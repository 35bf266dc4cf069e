import BleKbdHost.Host.Connections
import BleKbdHost.Verify.Answers
import BleKbdHost.Verify.LinkEvents

/-!
# Recognising a device

A reconnect waits for the connection to its device. The handler of CONNECT looks the connection up by
the address used on air, and then by the identity address; the device is listed under the address it
was opened with. If that is neither of the two, the connection belongs to no device.
-/

namespace BleKbdHost.Host

open Hid Keys Conc

/-! ## The property -/

/-- The device of the reconnect in progress. -/
def reconnecting? (trace : List Obs) : Option DevId :=
  (trace.find? Obs.bounds).bind fun
    | .reconnectCall d => some d
    | _ => none

/-- The connection that comes up during a reconnect is that of its device, and unless it goes down
again the reconnect returns the device. -/
def RecognitionRule : Obs → List Obs → Prop
  | .linkUp _ d?, before => ∀ d, reconnecting? before = some d → d? = some d
  | .returned r, before => ∀ d link d?, reconnecting? before = some d →
      .linkUp link d? ∈ since Obs.bounds before → .linkDown link ∉ since Obs.bounds before →
        r = some d
  | _, _ => True

structure Recognised (c : HostConfig) : Prop where
  rule : Obeys RecognitionRule c.state.trace
  /-- A device whose connection is up has its handle. -/
  connId : ∀ d link dev, HasLink d link c.state.trace → c.state.dev? d = some dev →
    dev.connId = (link.handle.toNat : Int)

/-! ## The condition -/

/-- The device that is reconnected is listed under the address used on air, or under the identity
address while no device is listed under the address used on air. -/
def recognisable : Guard Op Choice Sys Event where
  main _ _ _ := true
  env e s :=
    match e with
    | .connected _ ota identity =>
      match s.ctl.stage with
      | .connecting .reconnect d => (s.dev? d).any fun dev =>
          dev.bda == ota || dev.bda == identity && (s.getByBda ota).isNone
      | _ => true
    | _ => true

/-! ## Looking a device up -/

section Lookup

variable {v : View} {key : DevKey} {ota identity : Bda}

theorem byBda_eq_some_iff (hlist : DeviceList v) (hkey : key ∈ v.keys) {bda : Bda} :
    v.byBda bda = some key ↔ key.bda = bda := by
  constructor
  · intro h
    simpa using List.find?_some h
  · rintro rfl
    cases hfind : v.byBda key.bda with
    | none =>
      have hnone := List.find?_eq_none.mp hfind key hkey
      simp at hnone
    | some key' =>
      have hbda : key'.bda = key.bda := by simpa using List.find?_some hfind
      rw [List.inj_on_of_nodup_map hlist.distinct (List.mem_of_find?_eq_some hfind) hkey hbda]

/-- **What the handler of CONNECT finds.** -/
theorem found_iff (hlist : DeviceList v) (hkey : key ∈ v.keys) :
    ((v.byBda ota).or (v.byBda identity)).map DevKey.id = some key.id ↔
      key.bda = ota ∨ key.bda = identity ∧ v.byBda ota = none := by
  have hid : ∀ bda key', v.byBda bda = some key' → key'.id = key.id → key.bda = bda := by
    intro bda key' hfind hid
    obtain rfl := List.inj_on_of_nodup_map hlist.nodup (List.mem_of_find?_eq_some hfind) hkey hid
    simpa using List.find?_some hfind
  cases hota : v.byBda ota with
  | some key' =>
    constructor
    · intro h
      exact .inl (hid ota key' hota (Option.some.inj h))
    · rintro (h | ⟨-, hnone⟩)
      · obtain rfl := Option.some.inj (hota.symm.trans ((byBda_eq_some_iff hlist hkey).mpr h))
        rfl
      · cases hnone
  | none =>
    rw [Option.none_or]
    constructor
    · intro h
      obtain ⟨key', hfind, hsame⟩ := Option.map_eq_some_iff.mp h
      exact .inr ⟨hid identity key' hfind hsame, rfl⟩
    · rintro (h | ⟨h, -⟩)
      · rw [(byBda_eq_some_iff hlist hkey).mpr h] at hota
        cases hota
      · rw [(byBda_eq_some_iff hlist hkey).mpr h]
        rfl

end Lookup

/-! ## The invariant -/

/-- The device that the call in progress reconnects. -/
def Stage.reconnects? : Stage → Option DevId
  | .begun .reconnect d | .failed .reconnect d | .connecting .reconnect d | .linked .reconnect d _
  | .marked .reconnect d | .opened .reconnect d => some d
  | _ => Option.none

theorem Stage.Within.reconnects? {st st' : Stage} (h : st'.Within st) :
    st'.reconnects? = st.reconnects? := by
  rcases h with rfl | ⟨step, rfl⟩
  · rfl
  · cases st with
    | linked kind d _ => cases kind <;> rfl
    | _ => rfl

theorem Stage.Within.eq_of_not_linked {st st' : Stage} (h : st'.Within st)
    (hne : ∀ kind d step, st' ≠ .linked kind d step) : st' = st := by
  rcases h with rfl | ⟨step, rfl⟩
  · rfl
  · cases st with
    | linked kind d _ => exact absurd rfl (hne kind d step)
    | _ => rfl

/-- A reconnect whose connection has not come up. -/
def View.Untried (v : View) (d : DevId) : Prop :=
  v.ctl.stage = .begun .reconnect d ∨
    v.ctl.stage = .connecting .reconnect d ∧ v.connecting.isSome = true

structure RecognitionInv (v : View) : Prop where
  call : v.ctl.stage.reconnects? = reconnecting? v.trace
  attempt : v.connecting.isSome = true → ∃ kind d, v.ctl.stage = .connecting kind d
  untried : ∀ d, v.Untried d → ∀ link d?, .linkUp link d? ∉ since Obs.bounds v.trace
  up : ∀ d, v.ctl.stage.reconnects? = some d → ∀ link d?,
    .linkUp link d? ∈ since Obs.bounds v.trace → d? = some d ∧ lastLink? d v.trace = some link
  failed : ∀ d, v.ctl.stage = .failed .reconnect d → ∀ link d?,
    .linkUp link d? ∈ since Obs.bounds v.trace → .linkDown link ∈ since Obs.bounds v.trace
  linked : ∀ key ∈ v.keys, ∀ link, HasLink key.id link v.trace →
    key.connId = (link.handle.toNat : Int) ∧ link ∈ v.links
  handles : (v.links.map Link.handle).Nodup
  born : ∀ d link, lastLink? d v.trace = some link → d < v.nextDev
  rule : Obeys RecognitionRule v.trace

/-- A connection of the device in a call is later than the beginning of the call. -/
theorem mem_since_of_since {α : Type} {p q : α → Bool} {a b : α} {trace : List α}
    (ha : a ∈ since p trace) (hq : q a = true) (hb : b ∈ since q trace) : b ∈ since p trace := by
  induction trace with
  | nil => cases hb
  | cons x trace ih =>
    unfold since at ha hb ih ⊢
    rw [List.takeWhile_cons] at ha hb ⊢
    split at ha
    · rename_i hp
      rw [if_pos hp]
      split at hb
      · rename_i hx
        rcases List.mem_cons.mp hb with rfl | hb
        · exact List.mem_cons_self
        · refine List.mem_cons_of_mem _ (ih ?_ hb)
          refine (List.mem_cons.mp ha).resolve_left fun heq => ?_
          rw [← heq, hq] at hx
          cases hx
      · cases hb
    · cases ha

namespace RecognitionInv

variable {v v' : View} {o : Op} {c : Choice}

/-- Neither the boundary of a call nor a new connection. -/
def apart : Obs → Bool
  | .linkUp _ _ => false
  | obs => !obs.bounds

section Apart

variable {l trace : List Obs} (hl : ∀ obs ∈ l, apart obs = true)
include hl

theorem bounds_of_apart : ∀ obs ∈ l, obs.bounds = false := by
  intro obs hobs
  have hapart := hl obs hobs
  cases obs <;> first | rfl | cases hapart

theorem linkTo?_of_apart (d : DevId) : ∀ obs ∈ l, obs.linkTo? d = none := by
  intro obs hobs
  have hapart := hl obs hobs
  cases obs <;> first | rfl | cases hapart

theorem reconnecting?_append : reconnecting? (l ++ trace) = reconnecting? trace := by
  have hnone : l.find? Obs.bounds = none :=
    List.find?_eq_none.mpr fun obs hobs => by simp [bounds_of_apart hl obs hobs]
  rw [reconnecting?, List.find?_append, hnone, Option.none_or, reconnecting?]

theorem linkUp_mem_append {link : Link} {d? : Option DevId} :
    .linkUp link d? ∈ since Obs.bounds (l ++ trace) ↔ .linkUp link d? ∈ since Obs.bounds trace := by
  rw [since_append (bounds_of_apart hl), List.mem_append]
  refine ⟨fun h => h.resolve_left fun hmem => ?_, .inr⟩
  cases hl _ hmem

theorem hasLink_of_append {d : DevId} {link : Link} (h : HasLink d link (l ++ trace)) :
    HasLink d link trace ∧ .linkDown link ∉ l := by
  have hlinks := linkTo?_of_apart hl d
  have hup := h.up
  rw [sinceLink_append hlinks, List.mem_append, not_or] at hup
  exact ⟨⟨(lastLink?_append hlinks).symm.trans h.last, hup.2⟩, hup.1⟩

end Apart

/-- A step at which no call begins or ends and no link changes. -/
theorem of_apart {l : List Obs} (h : RecognitionInv v) (htrace : v'.trace = l ++ v.trace)
    (hl : ∀ obs ∈ l, apart obs = true) (hlinks : v'.links = v.links)
    (hkeys : ∀ key ∈ v'.keys, (∃ old ∈ v.keys, old.id = key.id ∧ old.connId = key.connId) ∨
      key.id = v.nextDev)
    (hnext : v.nextDev ≤ v'.nextDev)
    (hcall : v'.ctl.stage.reconnects? = v.ctl.stage.reconnects?)
    (hattempt : v'.connecting.isSome = true → ∃ kind d, v'.ctl.stage = .connecting kind d)
    (huntried : ∀ d, v'.Untried d → v.Untried d)
    (hfailed : ∀ d, v'.ctl.stage = .failed .reconnect d → ∀ link d?,
      .linkUp link d? ∈ since Obs.bounds v.trace → .linkDown link ∈ since Obs.bounds v.trace) :
    RecognitionInv v' where
  call := by rw [hcall, h.call, htrace, reconnecting?_append hl]
  attempt := hattempt
  untried d hst link d? := by
    rw [htrace, linkUp_mem_append hl]
    exact h.untried d (huntried d hst) link d?
  up d hst link d? hup := by
    rw [htrace, linkUp_mem_append hl] at hup
    rw [htrace, lastLink?_append (linkTo?_of_apart hl d)]
    exact h.up d (hcall ▸ hst) link d? hup
  failed d hst link d? hup := by
    rw [htrace, linkUp_mem_append hl] at hup
    rw [htrace, since_append (bounds_of_apart hl)]
    exact List.mem_append_right _ (hfailed d hst link d? hup)
  linked key hkey link hhas := by
    rw [htrace] at hhas
    obtain ⟨hhas, -⟩ := hasLink_of_append hl hhas
    rw [hlinks]
    rcases hkeys key hkey with ⟨old, hold, hid, hconn⟩ | hnew
    · rw [← hconn]
      exact h.linked old hold link (hid ▸ hhas)
    · exact absurd (h.born key.id link hhas.last) (by rw [hnew]; exact Nat.lt_irrefl _)
  handles := by rw [hlinks]; exact h.handles
  born d link hlast := by
    rw [htrace, lastLink?_append (linkTo?_of_apart hl d)] at hlast
    exact Nat.lt_of_lt_of_le (h.born d link hlast) hnext
  rule := by
    rw [htrace]
    refine h.rule.append fun obs hobs before => ?_
    have hapart := hl obs hobs
    cases obs with
    | linkUp _ _ | returned _ => cases hapart
    | _ => trivial

/-! ### Operations -/

/-- The operations that begin or end a call. -/
def bounding : Op → Bool
  | .openCall _ _ | .reconnectCall _ | .openReturns _ | .reconnectReturns _ => true
  | _ => false

theorem apart_noted (h : bounding o = false) : ∀ obs ∈ (v.noted o c).toList, apart obs = true := by
  intro obs hobs
  have hnoted := View.noted_origin (Option.mem_toList.mp hobs)
  cases obs with
  | openCall site bda known =>
    obtain rfl := hnoted
    cases h
  | reconnectCall d =>
    obtain rfl := hnoted
    cases h
  | returned r => rcases hnoted with rfl | rfl <;> cases h
  | linkUp _ _ | linkDown _ => exact hnoted.elim
  | _ => rfl

/-- The devices after an operation. -/
theorem exec_keys_old (o : Op) (c : Choice) (v : View) : ∀ key ∈ (v.exec o c).keys,
    (∃ old ∈ v.keys, old.id = key.id ∧ old.connId = key.connId) ∨ key.id = v.nextDev := by
  intro key hkey
  rw [View.exec_keys] at hkey
  cases o with
  | devMalloc bda addrType =>
    simp only [View.nextKeys] at hkey
    split at hkey
    · rcases List.mem_append.mp hkey with hkey | hkey
      · exact .inl ⟨key, hkey, rfl, rfl⟩
      · rw [List.mem_singleton.mp hkey]
        exact .inr rfl
    · exact .inl ⟨key, hkey, rfl, rfl⟩
  | devFree d => exact .inl ⟨key, (List.mem_filter.mp hkey).1, rfl, rfl⟩
  | setConnected kind d =>
    obtain ⟨old, hold, rfl⟩ := List.mem_map.mp hkey
    exact .inl ⟨old, hold, by split <;> rfl, by split <;> rfl⟩
  | _ => exact .inl ⟨key, hkey, rfl, rfl⟩

/-- An operation within a call, or outside of one. -/
theorem exec_frame {t : Stage} (h : RecognitionInv v) (hbounding : bounding o = false)
    (hconnecting : v.nextConnecting o c = v.connecting) (hstage : v.nextStage o c = t)
    (hcall : t.reconnects? = v.ctl.stage.reconnects?)
    (hattempt : v.connecting = none ∨ t = v.ctl.stage)
    (hbegun : ∀ d, t = .begun .reconnect d → v.ctl.stage = .begun .reconnect d)
    (hfailed : ∀ d, t = .failed .reconnect d → ∀ link d?,
      .linkUp link d? ∈ since Obs.bounds v.trace → .linkDown link ∈ since Obs.bounds v.trace) :
    RecognitionInv (v.exec o c) := by
  have hstage' : (v.exec o c).ctl.stage = t := (View.exec_stage o c v).trans hstage
  have hconnecting' : (v.exec o c).connecting = v.connecting :=
    (View.exec_connecting o c v).trans hconnecting
  refine h.of_apart (View.exec_trace o c v) (apart_noted hbounding) (View.exec_links o c v)
    (exec_keys_old o c v) ?_ ?_ ?_ ?_ ?_
  · rw [View.exec_nextDev]
    split
    · split
      · exact Nat.le_succ _
      · exact Nat.le_refl _
    · exact Nat.le_refl _
  · rw [hstage', hcall]
  · rw [hconnecting', hstage']
    intro hsome
    rcases hattempt with hnone | rfl
    · rw [hnone] at hsome
      cases hsome
    · exact h.attempt hsome
  · rintro d (hst | ⟨hst, hsome⟩)
    · exact .inl (hbegun d (hstage'.symm.trans hst))
    · rw [hconnecting'] at hsome
      rcases hattempt with hnone | rfl
      · rw [hnone] at hsome
        cases hsome
      · exact .inr ⟨hstage'.symm.trans hst, hsome⟩
  · rw [hstage']
    exact hfailed

/-- A call begins or ends. -/
theorem bound {obs : Obs} (h : RecognitionInv v) (htrace : v'.trace = obs :: v.trace)
    (hbounds : obs.bounds = true) (hlinks : v'.links = v.links) (hkeys : v'.keys = v.keys)
    (hnext : v'.nextDev = v.nextDev) (hconnecting : v'.connecting = none)
    (hcall : v'.ctl.stage.reconnects? = reconnecting? [obs])
    (hrule : RecognitionRule obs v.trace) : RecognitionInv v' := by
  have hsince : since Obs.bounds v'.trace = [] := by
    rw [htrace]
    exact since_cons_of_pos hbounds
  have hquiet : ∀ d, ∀ o ∈ [obs], o.linkTo? d = none := by
    intro d o ho
    rw [List.mem_singleton.mp ho]
    cases obs <;> first | rfl | cases hbounds
  have hdown : ∀ link, .linkDown link ∉ [obs] := by
    intro link hmem
    rw [← List.mem_singleton.mp hmem] at hbounds
    cases hbounds
  constructor
  · rw [hcall, htrace, reconnecting?, reconnecting?, List.find?_cons_of_pos hbounds,
      List.find?_cons_of_pos hbounds]
  · rw [hconnecting]
    exact nofun
  · rw [hsince]
    exact fun _ _ _ _ => List.not_mem_nil
  · rw [hsince]
    exact fun _ _ _ _ hmem => absurd hmem List.not_mem_nil
  · rw [hsince]
    exact fun _ _ _ _ hmem => absurd hmem List.not_mem_nil
  · intro key hkey link hhas
    rw [hkeys] at hkey
    rw [hlinks]
    refine h.linked key hkey link ⟨?_, fun hmem => hhas.up ?_⟩
    · have hlast := hhas.last
      rwa [htrace, ← List.singleton_append, lastLink?_append (hquiet _)] at hlast
    · rw [htrace, ← List.singleton_append, sinceLink_append (hquiet _)]
      exact List.mem_append_right _ hmem
  · rw [hlinks]
    exact h.handles
  · intro d link hlast
    rw [htrace, ← List.singleton_append, lastLink?_append (hquiet _)] at hlast
    rw [hnext]
    exact h.born d link hlast
  · rw [htrace]
    exact obeys_cons.mpr ⟨hrule, h.rule⟩

/-- **An operation at its place.** -/
theorem exec {s : Sys} (h : RecognitionInv s.view)
    (hidle : o ≠ .waitCb → s.view.connecting = none) (hat : o.At s.ctl) :
    RecognitionInv (s.view.exec o c) := by
  have hmove : ∀ (o : Op) (t : Stage), bounding o = false → s.view.connecting = none →
      s.view.nextConnecting o c = s.view.connecting → s.view.nextStage o c = t →
      t.reconnects? = s.view.ctl.stage.reconnects? → (∀ d, t ≠ .begun .reconnect d) →
      (∀ d, t = .failed .reconnect d → ∀ link d?, .linkUp link d? ∈ since Obs.bounds s.view.trace →
        .linkDown link ∈ since Obs.bounds s.view.trace) → RecognitionInv (s.view.exec o c) :=
    fun o t hbounding hnone hconnecting hstage hcall hbegun hfailed =>
      h.exec_frame hbounding hconnecting hstage hcall (.inl hnone)
        (fun d hst => absurd hst (hbegun d)) hfailed
  have hstay : ∀ o : Op, bounding o = false → s.view.nextConnecting o c = s.view.connecting →
      s.view.nextStage o c = s.view.ctl.stage → RecognitionInv (s.view.exec o c) :=
    fun o hbounding hconnecting hstage => h.exec_frame hbounding hconnecting hstage rfl (.inr rfl)
      (fun _ => id) h.failed
  have hwithin : ∀ o : Op, bounding o = false → s.view.connecting = none →
      s.view.nextConnecting o c = s.view.connecting →
      (s.view.nextStage o c).Within s.view.ctl.stage → RecognitionInv (s.view.exec o c) :=
    fun o hbounding hnone hconnecting hw => h.exec_frame hbounding hconnecting rfl hw.reconnects?
      (.inl hnone) (fun d hst => (hw.eq_of_not_linked (by simp [hst])).symm.trans hst)
      fun d hst => h.failed d ((hw.eq_of_not_linked (by simp [hst])).symm.trans hst)
  cases o with
  | waitCb => exact hstay _ rfl rfl rfl
  | openCall site bda =>
    refine h.bound (View.exec_trace ..) rfl (View.exec_links ..) (View.exec_keys ..)
      (View.exec_nextDev ..) ((View.exec_connecting ..).trans (hidle (by simp))) ?_ trivial
    rw [View.exec_stage, View.nextStage]
    split <;> rfl
  | reconnectCall d =>
    exact h.bound (View.exec_trace ..) rfl (View.exec_links ..) (View.exec_keys ..)
      (View.exec_nextDev ..) ((View.exec_connecting ..).trans (hidle (by simp)))
      (congrArg Stage.reconnects? (View.exec_stage ..)) trivial
  | openReturns r =>
    have hstage : s.view.ctl.stage.reconnects? = none := by
      cases r with
      | none => rw [show s.view.ctl.stage = .none from hat.1]; rfl
      | some d => rw [show s.view.ctl.stage = .opened .open d from hat.1]; rfl
    refine h.bound (View.exec_trace ..) rfl (View.exec_links ..) (View.exec_keys ..)
      (View.exec_nextDev ..) ((View.exec_connecting ..).trans (hidle (by simp)))
      (congrArg Stage.reconnects? (View.exec_stage ..)) ?_
    intro d link d? hcall
    rw [← h.call, hstage] at hcall
    cases hcall
  | reconnectReturns r =>
    refine h.bound (View.exec_trace ..) rfl (View.exec_links ..) (View.exec_keys ..)
      (View.exec_nextDev ..) ((View.exec_connecting ..).trans (hidle (by simp)))
      (congrArg Stage.reconnects? (View.exec_stage ..)) ?_
    intro d link d? hcall hup hdown
    rw [← h.call] at hcall
    cases r with
    | none =>
      obtain ⟨d', hst | hst⟩ := hat.1
      · exact absurd hup (h.untried d' (.inl hst) link d?)
      · exact absurd (h.failed d' hst link d? hup) hdown
    | some d' =>
      rw [show s.view.ctl.stage = .opened .reconnect d' from hat.1] at hcall
      exact hcall
  | devMalloc bda addrType =>
    have hcalled : s.view.ctl.stage = .called bda := hat.2.1
    refine hmove _ _ rfl (hidle (by simp)) rfl rfl ?_ ?_ ?_
    · rw [hcalled, View.nextStage]
      split <;> rfl
    · intro d hst
      simp only [View.nextStage] at hst
      split at hst <;> cases hst
    · intro d hst
      simp only [View.nextStage] at hst
      split at hst <;> cases hst
  | devFree d =>
    have hfailed : s.view.ctl.stage = .failed .open d := hat.1
    exact hmove _ .none rfl (hidle (by simp)) rfl rfl (by rw [hfailed]; rfl) (by simp) (by simp)
  | gapConnect kind d =>
    have hbegun : s.view.ctl.stage = .begun kind d := hat.1
    cases hkey : s.view.key? d with
    | none =>
      exact hstay _ rfl (by simp [View.nextConnecting, hkey]) (by simp [View.nextStage, hkey])
    | some key =>
      by_cases haccept : s.view.accepts c key.bda = true
      · have hstage : (s.view.exec (.gapConnect kind d) c).ctl.stage = .connecting kind d := by
          rw [View.exec_stage]
          simp [View.nextStage, hkey, haccept]
        have hnext : (s.view.exec (.gapConnect kind d) c).nextDev = s.view.nextDev :=
          View.exec_nextDev ..
        refine h.of_apart (View.exec_trace ..) (apart_noted rfl) (View.exec_links ..)
          (exec_keys_old _ c _) (Nat.le_of_eq hnext.symm) ?_ ?_ ?_ ?_
        · rw [hstage, hbegun]
          cases kind <;> rfl
        · exact fun _ => ⟨kind, d, hstage⟩
        · rintro d' (hst | ⟨hst, -⟩)
          · cases hstage.symm.trans hst
          · cases hstage.symm.trans hst
            exact .inl hbegun
        · rw [hstage]
          simp
      · refine hmove _ (.failed kind d) rfl (hidle (by simp)) ?_ ?_ ?_ (by simp) ?_
        · simp [View.nextConnecting, hkey, haccept]
        · simp [View.nextStage, hkey, haccept]
        · rw [hbegun]
          cases kind <;> rfl
        · intro d' hst link d? hup
          cases hst
          exact absurd hup (h.untried d (.inl hbegun) link d?)
  | readConnId kind d =>
    have hconnecting : s.view.ctl.stage = .connecting kind d := hat.1
    cases hkey : s.view.key? d with
    | none => exact hstay _ rfl rfl (by simp [View.nextStage, hkey])
    | some key =>
      refine hmove _ (if 0 ≤ key.connId then .linked kind d .fresh else .failed kind d) rfl
        (hidle (by simp)) rfl (by simp [View.nextStage, hkey]) ?_ ?_ ?_
      · rw [hconnecting]
        split <;> cases kind <;> rfl
      · intro _ hst
        split at hst <;> cases hst
      · intro d' hst link d? hup
        split at hst
        · cases hst
        rename_i hneg
        cases hst
        -- without a handle its connection, if it had one, is down again
        apply Decidable.byContradiction
        intro hdown
        obtain ⟨rfl, hlast⟩ := h.up d (by rw [hconnecting]; rfl) link d? hup
        have hid : key.id = d := by simpa using List.find?_some hkey
        have hhas : HasLink key.id link s.view.trace := by
          rw [hid]
          refine ⟨hlast, fun hmem => hdown ?_⟩
          exact mem_since_of_since hup (by simp [Obs.linkTo?]) hmem
        have hconn := (h.linked key (List.mem_of_find?_eq_some hkey) link hhas).1
        omega
  | setConnected kind d =>
    obtain ⟨step, hlinked, -⟩ := hat.1
    have hlinked' : s.view.ctl.stage = .linked kind d step := hlinked
    refine hmove _ (.marked kind d) rfl (hidle (by simp)) rfl rfl ?_ (by simp) (by simp)
    rw [hlinked']
    cases kind <;> rfl
  | postOpen kind d =>
    have hmarked : s.view.ctl.stage = .marked kind d := hat.1
    refine hmove _ (.opened kind d) rfl (hidle (by simp)) rfl rfl ?_ (by simp) (by simp)
    rw [hmarked]
    cases kind <;> rfl
  | _ => exact hwithin _ rfl (hidle (by simp)) rfl (View.nextStage_within c _ rfl)

/-! ### Events -/

theorem lastLink?_linkUp {d : DevId} {link : Link} {d? : Option DevId} {trace : List Obs} :
    lastLink? d (.linkUp link d? :: trace) = if d? = some d then some link else lastLink? d trace := by
  rw [lastLink?, List.findSome?_cons]
  by_cases hd : d? = some d
  · simp [Obs.linkTo?, hd]
  · simp [Obs.linkTo?, hd, lastLink?]

/-- A link comes up: it is that of the device that is reconnected, if one is. -/
theorem linkUp {link : Link} (h : RecognitionInv v) (hlist : DeviceList v)
    (hconnecting : v.connecting = some link.peer) (hfresh : ∀ l ∈ v.links, l.handle ≠ link.handle)
    (hfound : ∀ d, v.ctl.stage = .connecting .reconnect d →
      ((v.byBda link.ota).or (v.byBda link.identity)).map DevKey.id = some d) :
    RecognitionInv (v.linkUp link) := by
  obtain ⟨kind, d₀, hstage⟩ := h.attempt (by rw [hconnecting]; rfl)
  have hcall : ∀ d, v.ctl.stage.reconnects? = some d →
      ((v.byBda link.ota).or (v.byBda link.identity)).map DevKey.id = some d ∧ v.Untried d := by
    intro d hd
    rw [hstage] at hd
    cases kind with
    | «open» => cases hd
    | reconnect =>
      obtain rfl : d₀ = d := Option.some.inj hd
      exact ⟨hfound d₀ hstage, .inr ⟨hstage, by rw [hconnecting]; rfl⟩⟩
  have htrace : (v.linkUp link).trace =
      .linkUp link (((v.byBda link.ota).or (v.byBda link.identity)).map DevKey.id) :: v.trace := rfl
  have hknown : ∀ d, ((v.byBda link.ota).or (v.byBda link.identity)).map DevKey.id = some d →
      d ∈ v.ids := by
    intro d hd
    obtain ⟨key, hkey, rfl⟩ := Option.map_eq_some_iff.mp hd
    rcases Option.or_eq_some_iff.mp hkey with hkey | ⟨-, hkey⟩ <;>
    exact List.mem_map_of_mem (List.mem_of_find?_eq_some hkey)
  have hkeys : (v.linkUp link).keys = v.keys.map fun k =>
      if ((v.byBda link.ota).or (v.byBda link.identity)).map DevKey.id = some k.id then
        { k with connId := (link.handle.toNat : Int) } else k := by
    unfold View.linkUp
    cases (v.byBda link.ota).or (v.byBda link.identity) with
    | none => simp
    | some key => simp [eq_comm]
  generalize ((v.byBda link.ota).or (v.byBda link.identity)).map DevKey.id = d? at *
  have hsince : since Obs.bounds (.linkUp link d? :: v.trace) =
      .linkUp link d? :: since Obs.bounds v.trace :=
    since_append (l := [_]) (by simp [Obs.bounds])
  constructor
  · change v.ctl.stage.reconnects? = _
    rw [h.call, htrace]
    rfl
  · exact nofun
  · rintro d (hst | ⟨-, hsome⟩)
    · cases hstage.symm.trans hst
    · cases hsome
  · intro d hd link' d?' hmem
    obtain ⟨hfound', huntried⟩ := hcall d hd
    rw [htrace, hsince] at hmem
    rcases List.mem_cons.mp hmem with heq | hmem
    · cases heq
      refine ⟨hfound', ?_⟩
      rw [htrace, lastLink?_linkUp, if_pos hfound']
    · exact absurd hmem (h.untried d huntried link' d?')
  · intro d hst
    cases hstage.symm.trans hst
  · intro key hkey link' hhas
    rw [hkeys] at hkey
    obtain ⟨old, hold, rfl⟩ := List.mem_map.mp hkey
    have hlinks : (v.linkUp link).links = v.links ++ [link] := rfl
    rw [htrace] at hhas
    rw [hlinks]
    by_cases hd : d? = some old.id
    · simp only [hd, ↓reduceIte] at hhas ⊢
      have hlast := hhas.last
      rw [lastLink?_linkUp, if_pos rfl] at hlast
      obtain rfl := Option.some.inj hlast
      exact ⟨rfl, List.mem_append_right _ List.mem_cons_self⟩
    · simp only [hd, ↓reduceIte] at hhas ⊢
      have hother : ∀ obs ∈ [Obs.linkUp link d?], obs.linkTo? old.id = none := by
        simp [Obs.linkTo?, hd]
      have hhas' : HasLink old.id link' v.trace := by
        refine ⟨(lastLink?_append hother).symm.trans hhas.last, fun hmem => hhas.up ?_⟩
        rw [← List.singleton_append, sinceLink_append hother]
        exact List.mem_append_right _ hmem
      obtain ⟨hconn, hmem⟩ := h.linked old hold link' hhas'
      exact ⟨hconn, List.mem_append_left _ hmem⟩
  · have hlinks : (v.linkUp link).links = v.links ++ [link] := rfl
    rw [hlinks, List.map_append]
    refine List.nodup_append.mpr ⟨h.handles, by simp, ?_⟩
    rintro a ha b hb rfl
    obtain ⟨l, hl, rfl⟩ := List.mem_map.mp ha
    exact hfresh l hl (by simpa using hb)
  · intro d link' hlast
    rw [htrace, lastLink?_linkUp] at hlast
    by_cases hd : d? = some d
    · exact hlist.fresh d (hknown d hd)
    · rw [if_neg hd] at hlast
      exact h.born d link' hlast
  · rw [htrace]
    refine obeys_cons.mpr ⟨fun d hd => ?_, h.rule⟩
    rw [← h.call] at hd
    exact (hcall d hd).1

/-- A link goes down. -/
theorem linkDown {link : Link} (h : RecognitionInv v) (hlist : DeviceList v)
    (hfind : v.links.find? (·.handle == link.handle) = some link) (reason : Int) :
    RecognitionInv (v.linkDown link reason) := by
  obtain ⟨l, htrace, hl, hdown⟩ : ∃ l, (v.linkDown link reason).trace = l ++ v.trace ∧
      (∀ obs ∈ l, apart obs = true) ∧ .linkDown link ∈ l := by
    rw [View.linkDown_trace]
    refine ⟨_ ++ [.linkDown link], by rw [List.append_assoc]; rfl, fun obs hobs => ?_,
      List.mem_append_right _ List.mem_cons_self⟩
    rcases List.mem_append.mp hobs with hobs | hobs
    · split at hobs
      · rw [List.mem_singleton.mp hobs]
        rfl
      · cases hobs
    · rw [List.mem_singleton.mp hobs]
      rfl
  obtain ⟨hlinks, hctl, hconnecting⟩ := View.linkDown_rest v link reason
  constructor
  · rw [hctl, h.call, htrace, reconnecting?_append hl]
  · rw [hctl, hconnecting]
    exact h.attempt
  · intro d hst link' d?
    rw [htrace, linkUp_mem_append hl]
    refine h.untried d ?_ link' d?
    rwa [View.Untried, hctl, hconnecting] at hst
  · intro d hst link' d? hup
    rw [htrace, linkUp_mem_append hl] at hup
    rw [htrace, lastLink?_append (linkTo?_of_apart hl d)]
    exact h.up d (hctl ▸ hst) link' d? hup
  · intro d hst link' d? hup
    rw [htrace, linkUp_mem_append hl] at hup
    rw [htrace, since_append (bounds_of_apart hl)]
    exact List.mem_append_right _ (h.failed d (hctl ▸ hst) link' d? hup)
  · intro key hkey link' hhas
    rw [htrace] at hhas
    obtain ⟨hhas, hnot⟩ := hasLink_of_append hl hhas
    obtain ⟨old, hold, hid, hsame⟩ : ∃ old ∈ v.keys, old.id = key.id ∧
        (old.connId = key.connId ∨ v.byConnId link.handle = some old) := by
      cases hdev : v.byConnId link.handle with
      | none => exact ⟨key, (View.linkDown_of_none hdev reason).1 ▸ hkey, rfl, .inl rfl⟩
      | some dev =>
        rw [(View.linkDown_of_found hlist hdev reason).1] at hkey
        obtain ⟨old, hold, rfl⟩ := List.mem_map.mp hkey
        by_cases hid : old.id = dev.id
        · obtain rfl := List.inj_on_of_nodup_map hlist.nodup hold (List.mem_of_find?_eq_some hdev) hid
          exact ⟨old, hold, by simp, .inr rfl⟩
        · exact ⟨old, hold, by simp [hid], .inl (by simp [hid])⟩
    obtain ⟨hconn, hmem⟩ := h.linked old hold link' (hid ▸ hhas)
    have hlink : link ∈ v.links := List.mem_of_find?_eq_some hfind
    have hne : link'.handle ≠ link.handle := by
      intro heq
      obtain rfl := List.inj_on_of_nodup_map h.handles hmem hlink heq
      exact hnot hdown
    rcases hsame with hsame | hdev
    · rw [← hsame, hlinks]
      exact ⟨hconn, List.mem_filter.mpr ⟨hmem, by simpa using hne⟩⟩
    · have hdevConn : old.connId = (link.handle.toNat : Int) := by simpa using List.find?_some hdev
      exact absurd (UInt16.toNat_inj.mp (by omega)) hne
  · rw [hlinks]
    exact h.handles.sublist (List.filter_sublist.map _)
  · intro d link' hlast
    rw [htrace, lastLink?_append (linkTo?_of_apart hl d)] at hlast
    have hnext : (v.linkDown link reason).nextDev = v.nextDev := by
      unfold View.linkDown
      split
      · rfl
      · split <;> rfl
    rw [hnext]
    exact h.born d link' hlast
  · rw [htrace]
    refine h.rule.append fun obs hobs before => ?_
    have hapart := hl obs hobs
    cases obs with
    | linkUp _ _ | returned _ => cases hapart
    | _ => trivial

/-- **An event, if the connections of reconnects are recognised.** -/
theorem effect {e : Event} (h : RecognitionInv v) (hlist : DeviceList v) (hwork : View.WorkOf v)
    (heff : View.Effect e v v') (hfound : ∀ handle ota identity, e = .connected handle ota identity →
      ∀ d, v.ctl.stage = .connecting .reconnect d →
        ((v.byBda ota).or (v.byBda identity)).map DevKey.id = some d) : RecognitionInv v' := by
  have hstay : v'.keys = v.keys → v'.links = v.links →
      (v'.connecting = v.connecting ∨ v'.connecting = none) →
      (∀ obs : Obs, obs.RecordedBy e v → apart obs = true) → RecognitionInv v' := by
    intro hkeys hlinks hconnecting hquiet
    obtain ⟨l, htrace, hby⟩ := heff.records
    have hsome : v'.connecting.isSome = true → v.connecting.isSome = true := by
      rcases hconnecting with hsame | hnone
      · rw [hsame]
        exact id
      · rw [hnone]
        exact nofun
    refine h.of_apart htrace (fun obs hobs => hquiet obs (hby obs hobs)) hlinks
      (fun key hkey => .inl ⟨key, hkeys ▸ hkey, rfl, rfl⟩) (Nat.le_of_eq heff.nextDev.symm)
      (congrArg (fun ctl => ctl.stage.reconnects?) heff.ctl) ?_ ?_ ?_
    · rw [heff.ctl]
      exact fun hsome' => h.attempt (hsome hsome')
    · intro d hst
      rw [View.Untried, heff.ctl] at hst
      exact hst.imp_right fun hst => ⟨hst.1, hsome hst.2⟩
    · rw [heff.ctl]
      exact h.failed
  have hrecorded : (∀ handle ota identity, e ≠ .connected handle ota identity) →
      ∀ obs : Obs, obs.RecordedBy e v → apart obs = true := by
    intro hup obs hobs
    cases obs with
    | linkUp link d => exact absurd hobs.1 (hup _ _ _)
    | openCall _ _ _ | reconnectCall _ | returned _ => exact hobs.elim
    | _ => rfl
  by_cases he : e = .dispatch
  · subst he
    exact hstay (hwork.keys heff) (Connections.dispatch_links heff) (.inl (heff.connecting nofun nofun))
      (hrecorded nofun)
  · cases heff with
    | connected _ link hconnecting hfresh =>
      exact h.linkUp hlist hconnecting hfresh (hfound _ _ _ rfl)
    | disconnected _ link reason hfind hroom => exact h.linkDown hlist hfind reason
    | connectFailed _ rc hsome => exact hstay rfl rfl (.inr rfl) (hrecorded nofun)
    | popped | stepped | settled => exact absurd rfl he
    | quiet _ hinner => exact hstay rfl rfl (.inl rfl) (hrecorded (by rintro _ _ _ rfl; cases hinner))
    | _ => exact hstay rfl rfl (.inl rfl) (hrecorded nofun)

end RecognitionInv

theorem recognitionInv {cfg : KbdConfig} {bonds : List (Bda × UInt8)} {c : HostConfig}
    (h : Reach host recognisable (boot cfg bonds) c) : RecognitionInv c.state.view := by
  refine reach_keeps_of_known
    (J := fun s => (DeviceList s.view ∧ View.WorkOf s.view) ∧ TokenBound s)
    (I := fun s => RecognitionInv s.view) h
    (fun _ hreach => ⟨⟨deviceList hreach, View.workOf hreach⟩, tokenBound hreach⟩) ?_ ?_ ?_
  · refine ⟨rfl, nofun, ?_, nofun, nofun, nofun, List.nodup_nil, nofun, obeys_nil⟩
    exact fun _ _ _ _ hmem => by cases hmem
  · rintro o ch s ⟨-, htokens⟩ hinv _ _ _ hat
    rw [exec_view]
    refine hinv.exec (fun hne => ?_) hat
    exact (tokens_eq_zero htokens (hat.awaiting_eq_false hne)).2.2
  · rintro e s s' ⟨⟨hlist, hwork⟩, -⟩ hinv _ hg hstep
    refine hinv.effect hlist hwork (eventStep_view hstep) ?_
    rintro handle ota identity rfl d hst
    have hst' : s.ctl.stage = .connecting .reconnect d := hst
    simp only [recognisable, hst'] at hg
    obtain ⟨dev, hdev, hknown⟩ := (Option.any_eq_true _ _).mp hg
    obtain rfl : dev.id = d := by simpa using List.find?_some hdev
    have hkey : dev.key ∈ s.view.keys := List.mem_map_of_mem (List.mem_of_find?_eq_some hdev)
    refine (found_iff hlist hkey).mpr ?_
    rw [byBda_view, Option.map_eq_none_iff]
    simpa [Dev.key] using hknown

/-! ## The result -/

/-- **A reconnect gets the connection of its device**, if the device is listed under an address that
the handler of CONNECT looks for. In every run in which each connection of a reconnect is so. -/
theorem recognised_of_recognisable {cfg : KbdConfig} {bonds : List (Bda × UInt8)} {c : HostConfig}
    (h : Reach host recognisable (boot cfg bonds) c) : Recognised c where
  rule := (recognitionInv h).rule
  connId d link dev hhas hdev := by
    obtain rfl : dev.id = d := by simpa using List.find?_some hdev
    have hkey : dev.key ∈ c.state.view.keys := List.mem_map_of_mem (List.mem_of_find?_eq_some hdev)
    exact ((recognitionInv h).linked dev.key hkey link hhas).1

/-! ## Runs -/

/-- A keyboard that advertises under a resolvable address is opened, bonded under its identity
address 9, lost, and tried again with another address on air. -/
def privateRun (identity : Bda) : List (Move Choice Event) :=
  scanRun 7 ++ selectRun ++ linkRun 7 ++ openRun ++ mains 7 ++
  [.env (.bonded 9 0), .env (.disconnected 5 0), .env .dispatch, .env .dispatch, .env .dispatch] ++
  mains 5 ++ [.env (.tick 30)] ++ mains 19 ++ [.env (.connected 6 8 identity)]

/-- Its identity address is the one it was opened with. -/
theorem recognised_identity : ∃ c, host.run recognisable
    (privateRun 7 ++ mains 2 ++ [.main { rc := 1 }] ++ mains 6) (boot {} []) = some c ∧
      c.state.trace.head? = some (.returned (some 0)) ∧ Recognised c := by
  obtain ⟨c, hrun, hreturned⟩ := exists_run recognisable
    (privateRun 7 ++ mains 2 ++ [.main { rc := 1 }] ++ mains 6) (boot {} [])
    (fun c => c.state.trace.head? == some (.returned (some 0))) (by decide +kernel)
  exact ⟨c, hrun, beq_iff_eq.mp hreturned, recognised_of_recognisable (.of_run hrun)⟩

/-- Its identity address is another one, and the connection belongs to no device. -/
theorem not_recognised_private : ∃ c, Reach host .free (boot {} []) c ∧ ¬Recognised c := by
  obtain ⟨c, hrun, hup⟩ := exists_run .free (privateRun 9) (boot {} [])
    (fun c => c.state.trace.head? == some (.linkUp ⟨6, 7, 8, 9⟩ none) &&
      reconnecting? c.state.trace.tail == some 0) (by decide +kernel)
  obtain ⟨hup, hcall⟩ := Bool.and_eq_true_iff.mp hup
  refine ⟨c, .of_run hrun, fun hrecognised => ?_⟩
  have htrace := List.cons_head?_tail (Option.mem_def.mpr (beq_iff_eq.mp hup))
  have hobeys := hrecognised.rule
  rw [← htrace] at hobeys
  have hfound : (none : Option DevId) = some 0 :=
    hobeys _ _ List.suffix_rfl 0 (beq_iff_eq.mp hcall)
  cases hfound

end BleKbdHost.Host
