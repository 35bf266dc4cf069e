import Mathlib.Data.List.Nodup
import BleKbdHost.Host.EventLog

/-!
# Open and close events

Whether the events posted for a device say what its link does: opened and closed in turn, and
between transport calls the last one is an open event exactly while the link is up. The disconnect
handler posts a close event only if `connected` is set, which the opener sets long after the link
came up; so a link that drops in between is reported as open. A connection attributed to another
device than the one being connected is lost to it.
-/

namespace BleKbdHost.Host

open Hid Keys Conc

/-! ## The property -/

def Obs.linkUp? (d : DevId) : Obs → Option Bool
  | .posted p => p.event.linkUp? d
  | _ => none

/-- The open and close events posted for a device, newest first. -/
def linkEvents (d : DevId) (trace : List Obs) : List Bool := trace.filterMap (Obs.linkUp? d)

/-- Open and close in turn, the oldest one open; newest first. -/
def Alternate : List Bool → Prop
  | [] => True
  | [b] => b = true
  | b :: b' :: l => b ≠ b' ∧ Alternate (b' :: l)

/-- The events posted for each device alternate, and between transport calls the last one tells
whether the link is up; there is no link beside those of the devices. -/
structure EventsTruthful (s : Sys) : Prop where
  alternate : ∀ d, Alternate (linkEvents d s.trace)
  covered : ∀ link ∈ s.radio.links, ∃ dev ∈ s.hidh.devices, link.peer = dev.bda
  truthful : s.ctl.stage = .none → ∀ dev ∈ s.hidh.devices,
    (linkEvents dev.id s.trace).head? = some true ↔ ∃ link ∈ s.radio.links, link.peer = dev.bda

/-! ## The condition -/

/-- The device whose link was found by the call in progress, up to its open event. -/
def Stage.settling? : Stage → Option DevId
  | .linked _ d _ | .marked _ d => some d
  | _ => Option.none

/-- A connection is attributed to the device being connected, and the link of a device does not drop
from the moment its caller finds it to the open event. -/
def linkKept : Guard Op Choice Sys Event where
  main _ _ _ := true
  env e s :=
    match e with
    | .connected _ ota identity =>
      ((s.getByBda ota).or (s.getByBda identity)).map (·.id) == s.ctl.stage.attempted?
    | .disconnected handle _ =>
      match s.getByConnId handle with
      | some dev => s.ctl.stage.settling? != some dev.id
      | none => true
    | _ => true

/-! ## The invariant -/

theorem Alternate.cons {l : List Bool} (h : Alternate l) {b : Bool}
    (hb : l.head? = some (!b) ∨ (l = [] ∧ b = true)) : Alternate (b :: l) := by
  cases l with
  | nil =>
    rcases hb with hb | ⟨-, rfl⟩
    · cases hb
    · rfl
  | cons b' l =>
    rcases hb with hb | ⟨hb, -⟩
    · refine ⟨?_, h⟩
      cases hb
      cases b <;> decide
    · cases hb

/-- What a device is to the call in progress. -/
inductive Role where
  | idle
  /-- Allocated, and without a connection. -/
  | fresh
  | connecting
  | linked
  | marked
  deriving DecidableEq

def Stage.role (d : DevId) : Stage → Role
  | .begun .open d' | .failed .open d' => if d' = d then .fresh else .idle
  | .connecting _ d' => if d' = d then .connecting else .idle
  | .linked _ d' _ => if d' = d then .linked else .idle
  | .marked _ d' => if d' = d then .marked else .idle
  | _ => .idle

theorem Stage.Within.role {st st' : Stage} (h : st'.Within st) (d : DevId) :
    st'.role d = st.role d := by
  rcases h with rfl | ⟨step, rfl⟩
  · rfl
  · cases st <;> rfl

theorem Stage.settling_of_role {st : Stage} {d : DevId}
    (h : st.role d = .linked ∨ st.role d = .marked) : st.settling? = some d := by
  unfold Stage.role at h
  split at h <;> first | (split at h <;> simp_all [Stage.settling?]) | simp_all

/-- How the connection, the flag and the last event of a device go together. -/
def Role.Fits (key : DevKey) (last : Option Bool) : Role → Prop
  | .idle => (key.connected = true ↔ 0 ≤ key.connId) ∧ (key.connected = true ↔ last = some true)
  | .fresh => key.connId < 0 ∧ key.connected = false ∧ last ≠ some true
  | .connecting => key.connected = false ∧ last ≠ some true
  | .linked => 0 ≤ key.connId ∧ key.connected = false ∧ last ≠ some true
  | .marked => 0 ≤ key.connId ∧ key.connected = true ∧ last ≠ some true

namespace View

/-- The last open or close event posted for a device. -/
def last (v : View) (d : DevId) : Option Bool := (linkEvents d v.trace).head?

end View

structure LinkInv (v : View) : Prop where
  handles : (v.links.map (·.handle)).Nodup
  covered : ∀ l ∈ v.links, ∃ key ∈ v.keys, key.bda = l.peer
  attached : ∀ key ∈ v.keys, ∀ l ∈ v.links,
    l.peer = key.bda ↔ key.connId = (l.handle.toNat : Int)
  backed : ∀ key ∈ v.keys, 0 ≤ key.connId → ∃ l ∈ v.links, key.connId = (l.handle.toNat : Int)
  attempt : ∀ peer, v.connecting = some peer → (∀ l ∈ v.links, l.peer ≠ peer) ∧
    ∃ kind, ∃ key ∈ v.keys, v.ctl.stage = .connecting kind key.id ∧ key.bda = peer
  fits : ∀ key ∈ v.keys, (v.ctl.stage.role key.id).Fits key (v.last key.id)
  alternate : ∀ d, Alternate (linkEvents d v.trace)

/-- A step that leaves the links and the devices alone only has to account for the stage. -/
theorem LinkInv.of_frame {v v' : View} (h : LinkInv v) (hkeys : v'.keys = v.keys)
    (hlinks : v'.links = v.links)
    (hevents : ∀ d, linkEvents d v'.trace = linkEvents d v.trace)
    (hattempt : ∀ peer, v'.connecting = some peer → (∀ l ∈ v.links, l.peer ≠ peer) ∧
      ∃ kind, ∃ key ∈ v.keys, v'.ctl.stage = .connecting kind key.id ∧ key.bda = peer)
    (hfits : ∀ key ∈ v.keys, (v.ctl.stage.role key.id).Fits key (v.last key.id) →
      (v'.ctl.stage.role key.id).Fits key (v.last key.id)) : LinkInv v' where
  handles := hlinks ▸ h.handles
  covered := by
    rw [hlinks, hkeys]
    exact h.covered
  attached := by
    rw [hlinks, hkeys]
    exact h.attached
  backed := by
    rw [hlinks, hkeys]
    exact h.backed
  attempt := by
    rw [hlinks, hkeys]
    exact hattempt
  fits := by
    rw [hkeys]
    intro key hkey
    rw [View.last, hevents]
    exact hfits key hkey (h.fits key hkey)
  alternate d := by
    rw [hevents]
    exact h.alternate d

/-! ### Operations -/

theorem linkEvents_append {l trace : List Obs} (d : DevId) (h : ∀ o ∈ l, o.linkUp? d = none) :
    linkEvents d (l ++ trace) = linkEvents d trace := by
  rw [linkEvents, List.filterMap_append, List.filterMap_eq_nil_iff.mpr h]
  rfl

/-- Nothing was posted for a device that was not allocated. -/
theorem EventLog.linkEvents_eq_nil {v : View} (h : EventLog v) {d : DevId} (hd : v.nextDev ≤ d) :
    linkEvents d v.trace = [] := by
  refine List.filterMap_eq_nil_iff.mpr fun o ho => ?_
  cases o with
  | posted p =>
    by_contra hne
    exact Nat.not_lt_of_le hd (h.allocated p d ho hne)
  | _ => rfl

/-- Only `postOpen` posts. -/
theorem linkEvents_exec {o : Op} {c : Choice} {v : View} (hpost : ∀ kind d, o ≠ .postOpen kind d)
    (d : DevId) : linkEvents d (v.exec o c).trace = linkEvents d v.trace := by
  rw [View.exec_trace]
  refine linkEvents_append d fun obs hobs => ?_
  have hnoted := View.noted_origin (Option.mem_toList.mp hobs)
  cases obs with
  | posted p =>
    obtain ⟨kind, d', rfl, -⟩ := hnoted
    exact absurd rfl (hpost kind d')
  | _ => rfl

theorem last_exec {o : Op} {c : Choice} {v : View} (hpost : ∀ kind d, o ≠ .postOpen kind d)
    (d : DevId) : (v.exec o c).last d = v.last d := by
  rw [View.last, linkEvents_exec hpost, View.last]

/-- An operation that leaves the list alone and starts no connection. -/
theorem LinkInv.exec_frame {v : View} {o : Op} {t : Stage} (c : Choice) (h : LinkInv v)
    (hpost : ∀ kind d, o ≠ .postOpen kind d)
    (hkeys : v.nextKeys o c = v.keys) (hattempt : v.nextConnecting o c = none) (hstage : v.nextStage o c = t)
    (hfits : ∀ key ∈ v.keys, (v.ctl.stage.role key.id).Fits key (v.last key.id) →
      (t.role key.id).Fits key (v.last key.id)) : LinkInv (v.exec o c) := by
  refine h.of_frame (by rw [View.exec_keys, hkeys]) (View.exec_links ..)
    (linkEvents_exec hpost) ?_ ?_
  · rw [View.exec_connecting, hattempt]
    exact nofun
  · rw [View.exec_stage, hstage]
    exact hfits

/-- Stages in which no device has a role. -/
theorem LinkInv.exec_idle {v : View} {o : Op} {t : Stage} (c : Choice) (h : LinkInv v)
    (hpost : ∀ kind d, o ≠ .postOpen kind d)
    (hkeys : v.nextKeys o c = v.keys) (hattempt : v.nextConnecting o c = none) (hstage : v.nextStage o c = t)
    (hbefore : ∀ d, v.ctl.stage.role d = .idle) (hafter : ∀ d, t.role d = .idle) :
    LinkInv (v.exec o c) := by
  refine h.exec_frame c hpost hkeys hattempt hstage fun key _ hfits => ?_
  rw [hafter]
  rwa [hbefore] at hfits

theorem LinkInv.devMalloc {v : View} {bda : Bda} (h : LinkInv v) (hlist : DeviceList v)
    (hlog : EventLog v) (hconnecting : v.connecting = none) (addrType : UInt8) (c : Choice)
    (hstage : v.ctl.stage = .called bda) : LinkInv (v.exec (.devMalloc bda addrType) c) := by
  have hevents := linkEvents_exec (o := .devMalloc bda addrType) (c := c) (v := v) (by simp)
  have hlinks := View.exec_links (.devMalloc bda addrType) c v
  by_cases hrc : c.rc = 0
  · have hkeys : (v.exec (.devMalloc bda addrType) c).keys =
        v.keys ++ [({ id := v.nextDev, bda := bda } : DevKey)] := by
      rw [View.exec_keys]
      simp [View.nextKeys, hrc]
    have hbegun : (v.exec (.devMalloc bda addrType) c).ctl.stage = .begun .open v.nextDev := by
      rw [View.exec_stage]
      simp [View.nextStage, hrc]
    have hnew : ∀ l ∈ v.links, l.peer ≠ bda := by
      rintro l hl rfl
      obtain ⟨key, hkey, hbda⟩ := h.covered l hl
      exact hlist.unknown _ hstage (List.mem_map.mpr ⟨key, hkey, hbda⟩)
    constructor
    · rw [hlinks]
      exact h.handles
    · intro l hl
      rw [hlinks] at hl
      rw [hkeys]
      obtain ⟨key, hkey, hbda⟩ := h.covered l hl
      exact ⟨key, List.mem_append_left _ hkey, hbda⟩
    · intro key hkey l hl
      rw [hkeys] at hkey
      rw [hlinks] at hl
      rcases List.mem_append.mp hkey with hkey | hkey
      · exact h.attached key hkey l hl
      · rw [List.mem_singleton.mp hkey]
        refine ⟨fun hpeer => absurd hpeer (hnew l hl), fun hconn => ?_⟩
        simp only at hconn
        omega
    · intro key hkey hconn
      rw [hkeys] at hkey
      rw [hlinks]
      rcases List.mem_append.mp hkey with hkey | hkey
      · exact h.backed key hkey hconn
      · rw [List.mem_singleton.mp hkey] at hconn
        cases hconn
    · rw [View.exec_connecting]
      simp only [View.nextConnecting, hconnecting]
      simp
    · intro key hkey
      rw [hkeys] at hkey
      rw [hbegun, last_exec (o := .devMalloc bda addrType) (by simp)]
      rcases List.mem_append.mp hkey with hkey | hkey
      · have hfits := h.fits key hkey
        rw [hstage] at hfits
        have hold : v.nextDev ≠ key.id := fun heq =>
          Nat.lt_irrefl _ (heq ▸ hlist.fresh key.id (List.mem_map.mpr ⟨key, hkey, rfl⟩))
        simpa [Stage.role, hold] using hfits
      · rw [List.mem_singleton.mp hkey]
        simp [Stage.role, Role.Fits, View.last, hlog.linkEvents_eq_nil (Nat.le_refl _)]
    · intro d
      rw [hevents]
      exact h.alternate d
  · refine h.exec_idle c (by simp) ?_ ?_ (t := .none) ?_ (fun d => by rw [hstage]; rfl) fun _ => rfl
    · simp [View.nextKeys, hrc]
    · exact hconnecting
    · simp [View.nextStage, hrc]

/-- A device that failed to open goes, and has no link. -/
theorem LinkInv.devFree {v : View} {d : DevId} (h : LinkInv v) (hconnecting : v.connecting = none)
    (c : Choice) (hstage : v.ctl.stage = .failed .open d) : LinkInv (v.exec (.devFree d) c) := by
  have hevents := linkEvents_exec (o := .devFree d) (c := c) (v := v) (by simp)
  have hlinks := View.exec_links (.devFree d) c v
  have hkeys : ∀ key, key ∈ (v.exec (.devFree d) c).keys ↔ key ∈ v.keys ∧ key.id ≠ d := by
    intro key
    rw [View.exec_keys]
    simp [View.nextKeys]
  constructor
  · rw [hlinks]
    exact h.handles
  · intro l hl
    rw [hlinks] at hl
    obtain ⟨key, hkey, hbda⟩ := h.covered l hl
    refine ⟨key, (hkeys key).mpr ⟨hkey, fun hid => ?_⟩, hbda⟩
    have hfits := h.fits key hkey
    have hconn := (h.attached key hkey l hl).mp hbda.symm
    simp only [hstage, Stage.role, hid, ↓reduceIte, Role.Fits] at hfits
    omega
  · intro key hkey l hl
    rw [hlinks] at hl
    exact h.attached key ((hkeys key).mp hkey).1 l hl
  · intro key hkey hconn
    rw [hlinks]
    exact h.backed key ((hkeys key).mp hkey).1 hconn
  · rw [View.exec_connecting]
    simp only [View.nextConnecting, hconnecting]
    simp
  · intro key hkey
    obtain ⟨hmem, hne⟩ := (hkeys key).mp hkey
    have hfits := h.fits key hmem
    rw [last_exec (o := .devFree d) (by simp)]
    rw [hstage] at hfits
    simpa [View.exec_stage, View.nextStage, Stage.role, Ne.symm hne] using hfits
  · intro d'
    rw [hevents]
    exact h.alternate d'

/-- The listed device that an operation looks up. -/
theorem key_unique {v : View} (hlist : DeviceList v) {d : DevId} {key key' : DevKey}
    (hkey : v.key? d = some key) (hmem : key' ∈ v.keys) (hid : key'.id = d) : key' = key := by
  have hid' : key.id = d := by simpa using List.find?_some hkey
  exact List.inj_on_of_nodup_map hlist.nodup hmem (List.mem_of_find?_eq_some hkey)
    (hid.trans hid'.symm)

/-- An accepted request finds its device without a link. -/
theorem LinkInv.gapConnect {v : View} {kind : CallKind} {d : DevId} (h : LinkInv v)
    (hlist : DeviceList v) (hconnecting : v.connecting = none) (c : Choice)
    (hstage : v.ctl.stage = .begun kind d) : LinkInv (v.exec (.gapConnect kind d) c) := by
  by_cases haccept : (v.key? d).any (v.accepts c ·.bda) = true
  · obtain ⟨key, hkey, haccepts⟩ : ∃ key, v.key? d = some key ∧ v.accepts c key.bda = true := by
      cases hkey : v.key? d with
      | none => simp [hkey] at haccept
      | some key => exact ⟨key, rfl, by simpa [hkey] using haccept⟩
    have hmem : key ∈ v.keys := List.mem_of_find?_eq_some hkey
    have hid : key.id = d := by simpa using List.find?_some hkey
    have hpeers : ∀ l ∈ v.links, l.peer ≠ key.bda := by
      have hall : v.links.all (·.peer != key.bda) = true := (Bool.and_eq_true_iff.mp haccepts).2
      simpa using hall
    have hdown : key.connId < 0 := by
      by_cases hconn : 0 ≤ key.connId
      · obtain ⟨l, hl, hhandle⟩ := h.backed key hmem hconn
        exact absurd ((h.attached key hmem l hl).mpr hhandle) (hpeers l hl)
      · omega
    refine h.of_frame (View.exec_keys ..) (View.exec_links ..) (linkEvents_exec nofun) ?_ ?_
    · have hpeer : v.nextConnecting (.gapConnect kind d) c = some key.bda := by
        rw [View.nextConnecting, if_pos haccept, hkey]
        rfl
      rw [View.exec_connecting, View.exec_stage, hpeer]
      simp only [View.nextStage, hkey, if_pos haccepts]
      rintro peer heq
      cases heq
      exact ⟨hpeers, kind, key, hmem, by rw [hid], rfl⟩
    · intro key' hmem' hfits
      rw [View.exec_stage]
      simp only [View.nextStage, hkey, haccepts, ↓reduceIte]
      by_cases hid' : d = key'.id
      · obtain rfl := key_unique hlist hkey hmem' hid'.symm
        have hidle : key'.connected = false ∧ v.last key'.id ≠ some true := by
          rw [hstage] at hfits
          cases kind with
          | «open» =>
            simp only [Stage.role, hid', ↓reduceIte, Role.Fits] at hfits
            exact ⟨hfits.2.1, hfits.2.2⟩
          | reconnect =>
            simp only [Stage.role, Role.Fits] at hfits
            have hclosed : key'.connected = false := by
              rw [Bool.eq_false_iff]
              intro hconn
              exact absurd (hfits.1.mp hconn) (by omega)
            exact ⟨hclosed, fun hlast => by rw [hfits.2.mpr hlast] at hclosed; cases hclosed⟩
        simpa [Stage.role, hid', Role.Fits] using hidle
      · rw [hstage] at hfits
        cases kind <;> simpa [Stage.role, hid'] using hfits
  · have hnone : v.nextConnecting (.gapConnect kind d) c = none := by
      rw [View.nextConnecting, if_neg haccept, hconnecting]
    cases hkey : v.key? d with
    | none =>
      exact h.exec_frame c nofun rfl hnone (by simp [View.nextStage, hkey]) fun _ _ hfits => hfits
    | some key =>
      have hrefused : ¬v.accepts c key.bda = true := by simpa [hkey] using haccept
      refine h.exec_frame c nofun rfl hnone (t := .failed kind d)
        (by simp [View.nextStage, hkey, hrefused]) fun key' _ hfits => ?_
      rw [hstage] at hfits
      cases kind <;> exact hfits

/-- The connection that the opener looks for is there, or the device has none. -/
theorem LinkInv.readConnId {v : View} {kind : CallKind} {d : DevId} (h : LinkInv v)
    (hlist : DeviceList v) (hconnecting : v.connecting = none) (c : Choice)
    (hstage : v.ctl.stage = .connecting kind d) : LinkInv (v.exec (.readConnId kind d) c) := by
  cases hkey : v.key? d with
  | none =>
    exact h.exec_frame c nofun rfl hconnecting (by simp [View.nextStage, hkey])
      fun _ _ hfits => hfits
  | some key =>
    refine h.exec_frame c nofun rfl hconnecting
      (t := if 0 ≤ key.connId then .linked kind d .fresh else .failed kind d)
      (by simp [View.nextStage, hkey]) fun key' hmem hfits => ?_
    rw [hstage] at hfits
    by_cases hid : d = key'.id
    · obtain rfl := key_unique hlist hkey hmem hid.symm
      simp only [Stage.role, hid, ↓reduceIte, Role.Fits] at hfits
      split
      · rename_i hconn
        simpa [Stage.role, hid, Role.Fits] using ⟨hconn, hfits⟩
      · rename_i hconn
        cases kind with
        | «open» => simpa [Stage.role, hid, Role.Fits] using ⟨Int.not_le.mp hconn, hfits⟩
        | reconnect =>
          simp only [Stage.role, Role.Fits]
          exact ⟨by simp [hfits.1, hconn], by simp [hfits.1, hfits.2]⟩
    · split <;> cases kind <;> simpa [Stage.role, hid] using hfits

theorem LinkInv.setConnected {v : View} {kind : CallKind} {d : DevId} (h : LinkInv v)
    (hconnecting : v.connecting = none) (c : Choice) {step : LinkStep}
    (hstage : v.ctl.stage = .linked kind d step) : LinkInv (v.exec (.setConnected kind d) c) := by
  have hevents := linkEvents_exec (o := .setConnected kind d) (c := c) (v := v) (by simp)
  have hkeys : ∀ key ∈ (v.exec (.setConnected kind d) c).keys, ∃ key₀ ∈ v.keys,
      key = if key₀.id = d then { key₀ with connected := true } else key₀ := by
    intro key hkey
    rw [View.exec_keys] at hkey
    obtain ⟨key₀, hkey₀, rfl⟩ := List.mem_map.mp hkey
    exact ⟨key₀, hkey₀, rfl⟩
  constructor
  · exact h.handles
  · intro l hl
    obtain ⟨key, hkey, hbda⟩ := h.covered l hl
    refine ⟨_, List.mem_map.mpr ⟨key, hkey, rfl⟩, ?_⟩
    simp only
    split <;> exact hbda
  · intro key hkey l hl
    obtain ⟨key₀, hkey₀, rfl⟩ := hkeys key hkey
    split <;> exact h.attached key₀ hkey₀ l hl
  · intro key hkey hconn
    obtain ⟨key₀, hkey₀, rfl⟩ := hkeys key hkey
    split at hconn <;> rename_i hid
    · rw [if_pos hid]
      exact h.backed key₀ hkey₀ hconn
    · rw [if_neg hid]
      exact h.backed key₀ hkey₀ hconn
  · rw [View.exec_connecting]
    simp only [View.nextConnecting, hconnecting]
    simp
  · intro key hkey
    obtain ⟨key₀, hkey₀, rfl⟩ := hkeys key hkey
    have hfits := h.fits key₀ hkey₀
    rw [hstage] at hfits
    rw [View.exec_stage, last_exec (o := .setConnected kind d) (by simp)]
    by_cases hid : key₀.id = d
    · simp only [Stage.role, hid, ↓reduceIte, Role.Fits] at hfits
      simpa [View.nextStage, Stage.role, hid, Role.Fits] using ⟨hfits.1, hfits.2.2⟩
    · simpa [View.nextStage, Stage.role, hid, Ne.symm hid] using hfits
  · intro d'
    rw [hevents]
    exact h.alternate d'

/-- The open event follows a close event, or is the first one. -/
theorem LinkInv.postOpen {v : View} {kind : CallKind} {d : DevId} (h : LinkInv v)
    (hlist : DeviceList v) (hconnecting : v.connecting = none) (c : Choice)
    (hstage : v.ctl.stage = .marked kind d) : LinkInv (v.exec (.postOpen kind d) c) := by
  have hd : d ∈ v.ids := hlist.attempted d (by rw [hstage]; rfl)
  have hevents : ∀ d', linkEvents d' (v.exec (.postOpen kind d) c).trace =
      if d = d' then true :: linkEvents d' v.trace else linkEvents d' v.trace := by
    intro d'
    rw [View.exec_trace]
    simp only [View.noted, Option.toList_some, List.cons_append, List.nil_append, linkEvents,
      List.filterMap_cons, Obs.linkUp?, HidhEvent.linkUp?]
    by_cases hid : d = d' <;> simp [hid]
  have hlast : v.last d ≠ some true := by
    obtain ⟨key, hkey, rfl⟩ := List.mem_map.mp hd
    have hfits := h.fits key hkey
    simp only [hstage, Stage.role, ↓reduceIte, Role.Fits] at hfits
    exact hfits.2.2
  constructor
  · exact h.handles
  · exact h.covered
  · exact h.attached
  · exact h.backed
  · rw [View.exec_connecting]
    simp only [View.nextConnecting, hconnecting]
    simp
  · intro key hkey
    have hfits := h.fits key hkey
    rw [hstage] at hfits
    rw [View.exec_stage, View.last, hevents]
    by_cases hid : d = key.id
    · simp only [Stage.role, hid, ↓reduceIte, Role.Fits] at hfits
      simp [View.nextStage, Stage.role, hid, Role.Fits, hfits]
    · simp only [Stage.role, hid, ↓reduceIte] at hfits
      simp only [View.nextStage, Stage.role, hid, ↓reduceIte]
      exact hfits
  · intro d'
    rw [hevents]
    split
    · rename_i hid
      subst hid
      refine (h.alternate d).cons ?_
      have hhead := hlast
      unfold View.last at hhead
      cases hl : linkEvents d v.trace with
      | nil => exact .inr ⟨rfl, rfl⟩
      | cons b l =>
        rw [hl] at hhead
        cases b with
        | true => exact absurd rfl hhead
        | false => exact .inl rfl
    · exact h.alternate d'

/-- **An operation keeps the events in line with the links.** -/
theorem LinkInv.exec {s : Sys} {o : Op} (h : LinkInv s.view) (hlist : DeviceList s.view)
    (hlog : EventLog s.view) (htokens : TokenBound s) (c : Choice) (hready : o.ready s = true)
    (hat : o.At s.ctl) : LinkInv (s.view.exec o c) := by
  have hconnecting : s.view.connecting = none := by
    by_cases hwait : o = .waitCb
    · subst hwait
      exact (htokens.of_given hready).2
    · exact (tokens_eq_zero htokens (hat.awaiting_eq_false hwait)).2.2
  have hstay : ∀ o : Op, (∀ kind d, o ≠ .postOpen kind d) → s.view.nextKeys o c = s.view.keys →
      s.view.nextConnecting o c = none → (s.view.nextStage o c).Within s.view.ctl.stage →
      LinkInv (s.view.exec o c) :=
    fun o hpost hkeys hattempt hstage =>
      h.exec_frame c hpost hkeys hattempt rfl fun key _ hfits => by rwa [hstage.role]
  cases o with
  | devMalloc bda addrType => exact h.devMalloc hlist hlog hconnecting addrType c hat.2.1
  | devFree d => exact h.devFree hconnecting c hat.1
  | gapConnect kind d => exact h.gapConnect hlist hconnecting c hat.1
  | readConnId kind d => exact h.readConnId hlist hconnecting c hat.1
  | setConnected kind d =>
    obtain ⟨⟨step, hstage, -⟩, -⟩ := hat
    exact h.setConnected hconnecting c hstage
  | postOpen kind d => exact h.postOpen hlist hconnecting c hat.1
  | openCall site bda =>
    have hrest : s.view.ctl.stage = .none := congrArg Ctl.stage hat
    refine h.exec_idle c nofun rfl hconnecting (t := if (s.view.byBda bda).isSome then .none
      else .called bda) rfl (fun d => by rw [hrest]; rfl) fun d => ?_
    split <;> rfl
  | reconnectCall d =>
    have hrest : s.view.ctl.stage = .none := congrArg Ctl.stage hat
    exact h.exec_idle c nofun rfl hconnecting rfl (fun d => by rw [hrest]; rfl) fun _ => rfl
  | openReturns r =>
    refine h.exec_idle c nofun rfl hconnecting rfl (fun d => ?_) fun _ => rfl
    have hidle : s.ctl.stage.role d = .idle := by
      cases r with
      | none =>
        rw [hat.1]
        rfl
      | some d' =>
        rw [hat.1]
        rfl
    exact hidle
  | reconnectReturns r =>
    refine h.exec_idle c nofun rfl hconnecting rfl (fun d => ?_) fun _ => rfl
    have hidle : s.ctl.stage.role d = .idle := by
      cases r with
      | none =>
        obtain ⟨d', hst | hst⟩ := hat.1 <;>
        · rw [hst]
          rfl
      | some d' =>
        rw [hat.1]
        rfl
    exact hidle
  | _ => exact hstay _ nofun rfl hconnecting (View.nextStage_within c _ rfl)

/-! ### Events -/

theorem linkEvents_setHandling (v : View) (p : Posted) (steps : List HidhStep) (d : DevId) :
    linkEvents d (v.setHandling p steps).trace = linkEvents d v.trace := by
  rw [View.setHandling_trace]
  refine linkEvents_append d fun o ho => ?_
  split at ho
  · rw [List.mem_singleton.mp ho]
    rfl
  · cases ho

theorem linkEvents_stepExec (v : View) (step : HidhStep) (d : DevId) :
    linkEvents d (v.stepExec step).trace = linkEvents d v.trace := by
  cases step with
  | emit ch =>
    simp only [View.stepExec]
    split <;> rfl
  | free d' =>
    simp only [View.stepExec, View.free]
    split
    · exact linkEvents_append (l := [.deviceFreed d']) d (by simp [Obs.linkUp?])
    · rfl
  | setHidhDev _ | take _ | give _ | compare _ _ | remember _ => rfl

/-- Only a disconnect posts such an event. -/
theorem linkEvents_effect {e : Event} {v v' : View} (heff : View.Effect e v v')
    (he : ∀ handle reason, e ≠ .disconnected handle reason) (d : DevId) :
    linkEvents d v'.trace = linkEvents d v.trace := by
  cases heff with
  | disconnected _ link reason hfind hroom => exact absurd rfl (he link.handle reason)
  | popped _ p ps hnone hitems => rw [linkEvents_setHandling]
  | stepped _ p step steps hsome => rw [linkEvents_setHandling, linkEvents_stepExec]
  | settled _ p hsome => rw [linkEvents_setHandling]
  | notified _ handle attr data event key hkey hdev hopen hclose hroom =>
    refine linkEvents_append (l := [.posted ⟨v.nextSeq, event⟩]) d fun o ho => ?_
    rw [List.mem_singleton.mp ho]
    cases event with
    | «open» d' status => exact absurd rfl (hopen d' status)
    | close d' reason => exact absurd rfl (hclose d' reason)
    | _ => rfl
  | _ => rfl

/-- An event beside the links. -/
theorem LinkInv.quiet {e : Event} {v v' : View} (h : LinkInv v) (heff : View.Effect e v v')
    (hdown : ∀ handle reason, e ≠ .disconnected handle reason) (hkeys : v'.keys = v.keys)
    (hlinks : v'.links = v.links) (hattempt : v'.connecting = v.connecting ∨ v'.connecting = none) :
    LinkInv v' := by
  have hctl := heff.ctl
  refine h.of_frame hkeys hlinks (linkEvents_effect heff hdown) ?_ ?_ <;> rw [hctl]
  · rcases hattempt with hattempt | hattempt <;> rw [hattempt]
    · exact h.attempt
    · exact nofun
  · exact fun _ _ hfits => hfits

theorem toNat_ne {a b : UInt16} (h : a ≠ b) : (a.toNat : Int) ≠ (b.toNat : Int) :=
  fun heq => h (UInt16.toNat_inj.mp (Int.ofNat_inj.mp heq))

/-- The new link is that of the device being connected. -/
theorem LinkInv.linkUp {v : View} {link : Link} (h : LinkInv v) (hlist : DeviceList v)
    (hconnecting : v.connecting = some link.peer) (hfresh : ∀ l ∈ v.links, l.handle ≠ link.handle)
    (hfound : ((v.byBda link.ota).or (v.byBda link.identity)).map (·.id) =
      v.ctl.stage.attempted?) : LinkInv (v.linkUp link) := by
  obtain ⟨hpeers, kind, key, hkey, hstage, hbda⟩ := h.attempt _ hconnecting
  have hkeys : (v.linkUp link).keys = v.keys.map fun k =>
      if k.id = key.id then { k with connId := (link.handle.toNat : Int) } else k := by
    rw [hstage] at hfound
    obtain ⟨found, hsome, hid⟩ := Option.map_eq_some_iff.mp hfound
    simp only [View.linkUp, hsome, hid]
  have hself : ∀ k ∈ v.keys, k.bda = link.peer → k = key := fun k hk hpeer =>
    List.inj_on_of_nodup_map hlist.distinct hk hkey (hpeer.trans hbda.symm)
  have hmem : ∀ k' ∈ (v.linkUp link).keys, ∃ k ∈ v.keys,
      k' = if k.id = key.id then { k with connId := (link.handle.toNat : Int) } else k := by
    intro k' hk'
    rw [hkeys] at hk'
    obtain ⟨k, hk, rfl⟩ := List.mem_map.mp hk'
    exact ⟨k, hk, rfl⟩
  have hlinks : (v.linkUp link).links = v.links ++ [link] := rfl
  constructor
  · rw [hlinks, List.map_append]
    refine List.nodup_append.mpr ⟨h.handles, by simp, ?_⟩
    rintro a ha a' ha' rfl
    obtain ⟨l, hl, rfl⟩ := List.mem_map.mp ha
    exact hfresh l hl (by simpa using ha')
  · intro l hl
    have hold : ∃ k ∈ v.keys, k.bda = l.peer := by
      rcases List.mem_append.mp hl with hl | hl
      · exact h.covered l hl
      · rw [List.mem_singleton.mp hl]
        exact ⟨key, hkey, hbda⟩
    obtain ⟨k, hk, hpeer⟩ := hold
    refine ⟨_, hkeys ▸ List.mem_map.mpr ⟨k, hk, rfl⟩, ?_⟩
    split <;> exact hpeer
  · intro k' hk' l hl
    obtain ⟨k, hk, rfl⟩ := hmem k' hk'
    by_cases hid : k.id = key.id
    · have hsame : k.bda = link.peer := by
        rw [List.inj_on_of_nodup_map hlist.nodup hk hkey hid, hbda]
      simp only [hid, ↓reduceIte, hsame]
      rcases List.mem_append.mp hl with hl | hl
      · exact iff_of_false (hpeers l hl) (toNat_ne (hfresh l hl)).symm
      · rw [List.mem_singleton.mp hl]
        exact iff_of_true rfl rfl
    · simp only [hid, ↓reduceIte]
      rcases List.mem_append.mp hl with hl | hl
      · exact h.attached k hk l hl
      · rw [List.mem_singleton.mp hl]
        refine iff_of_false (fun hpeer => hid ?_) fun hconn => ?_
        · rw [hself k hk hpeer.symm]
        · obtain ⟨l', hl', hhandle⟩ := h.backed k hk (by rw [hconn]; exact Int.natCast_nonneg _)
          exact toNat_ne (hfresh l' hl') (hhandle.symm.trans hconn)
  · intro k' hk' hconn
    obtain ⟨k, hk, rfl⟩ := hmem k' hk'
    by_cases hid : k.id = key.id
    · simp only [hid, ↓reduceIte]
      exact ⟨link, List.mem_append_right _ (List.mem_singleton.mpr rfl), rfl⟩
    · simp only [hid, ↓reduceIte] at hconn ⊢
      obtain ⟨l, hl, hhandle⟩ := h.backed k hk hconn
      exact ⟨l, List.mem_append_left _ hl, hhandle⟩
  · exact fun _ h => by cases h
  · intro k' hk'
    obtain ⟨k, hk, rfl⟩ := hmem k' hk'
    have hfits := h.fits k hk
    have hlast : ∀ d, (v.linkUp link).last d = v.last d := fun _ => rfl
    have hctl : (v.linkUp link).ctl = v.ctl := rfl
    rw [hlast, hctl]
    by_cases hid : k.id = key.id
    · simp only [hid, ↓reduceIte, hstage, Stage.role, Role.Fits] at hfits ⊢
      exact hfits
    · simpa only [hid, ↓reduceIte] using hfits
  · exact h.alternate

/-- The device of a link, and its fate when the link drops. -/
theorem View.linkDown_of_found {v : View} {link : Link} {key : DevKey} (hlist : DeviceList v)
    (hfound : v.byConnId link.handle = some key) (reason : Int) :
    (v.linkDown link reason).keys = (v.keys.map fun k =>
      if k.id = key.id then { k with connected := false, connId := -1 } else k) ∧
    ∀ d, linkEvents d (v.linkDown link reason).trace =
      if key.connected = true ∧ key.id = d then false :: linkEvents d v.trace
      else linkEvents d v.trace := by
  have hmem : key ∈ v.keys := List.mem_of_find?_eq_some hfound
  cases hconnected : key.connected with
  | true =>
    refine ⟨by simp [View.linkDown, hfound, hconnected], fun d => ?_⟩
    simp only [View.linkDown, hfound, hconnected, ↓reduceIte, View.post, View.setKey, linkEvents,
      List.filterMap_cons, Obs.linkUp?, HidhEvent.linkUp?, true_and]
    by_cases hid : key.id = d <;> simp [hid]
  | false =>
    refine ⟨?_, fun d => ?_⟩
    · simp only [View.linkDown, hfound, hconnected, Bool.false_eq_true, ↓reduceIte, View.setKey]
      refine List.map_congr_left fun k hk => ?_
      split
      · rename_i hid
        obtain rfl := List.inj_on_of_nodup_map hlist.nodup hk hmem hid
        simp [hconnected]
      · rfl
    · simp only [View.linkDown, hfound, hconnected, Bool.false_eq_true, ↓reduceIte, false_and]
      rfl

theorem View.linkDown_of_none {v : View} {link : Link} (hnone : v.byConnId link.handle = none)
    (reason : Int) : (v.linkDown link reason).keys = v.keys ∧
      ∀ d, linkEvents d (v.linkDown link reason).trace = linkEvents d v.trace := by
  unfold View.linkDown
  rw [hnone]
  exact ⟨rfl, fun _ => rfl⟩

theorem View.linkDown_rest (v : View) (link : Link) (reason : Int) :
    (v.linkDown link reason).links = v.links.filter (·.handle != link.handle) ∧
      (v.linkDown link reason).ctl = v.ctl ∧
      (v.linkDown link reason).connecting = v.connecting := by
  unfold View.linkDown
  split
  · exact ⟨rfl, rfl, rfl⟩
  · split <;> exact ⟨rfl, rfl, rfl⟩

/-- A link that drops before its open event was posted must not have been found by its opener yet;
after it, a close event is posted. -/
theorem LinkInv.linkDown {v : View} {link : Link} {reason : Int} (h : LinkInv v)
    (hlist : DeviceList v) (hlink : link ∈ v.links)
    (hsettled : ∀ key, v.byConnId link.handle = some key →
      v.ctl.stage.settling? ≠ some key.id) : LinkInv (v.linkDown link reason) := by
  obtain ⟨hlinks, hctl, hconnecting⟩ := View.linkDown_rest v link reason
  have hsub : ∀ l ∈ (v.linkDown link reason).links, l ∈ v.links ∧ l.handle ≠ link.handle := by
    intro l hl
    rw [hlinks] at hl
    simpa using hl
  have hhandles : ((v.linkDown link reason).links.map (·.handle)).Nodup := by
    rw [hlinks]
    exact h.handles.sublist (List.filter_sublist.map _)
  cases hfound : v.byConnId link.handle with
  | none =>
    obtain ⟨hkeys, hevents⟩ := View.linkDown_of_none hfound reason
    constructor
    · exact hhandles
    · intro l hl
      rw [hkeys]
      exact h.covered l (hsub l hl).1
    · rw [hkeys]
      exact fun key hkey l hl => h.attached key hkey l (hsub l hl).1
    · intro key hkey hconn
      rw [hkeys] at hkey
      obtain ⟨l, hl, hhandle⟩ := h.backed key hkey hconn
      refine ⟨l, ?_, hhandle⟩
      rw [hlinks]
      refine List.mem_filter.mpr ⟨hl, ?_⟩
      have hne := List.find?_eq_none.mp hfound key hkey
      simp only [hhandle, beq_iff_eq] at hne
      exact bne_iff_ne.mpr fun heq => hne (by rw [heq])
    · intro peer hpeer
      rw [hconnecting] at hpeer
      obtain ⟨hpeers, hkey⟩ := h.attempt peer hpeer
      rw [hctl, hkeys]
      exact ⟨fun l hl => hpeers l (hsub l hl).1, hkey⟩
    · intro key hkey
      rw [hkeys] at hkey
      rw [hctl, View.last, hevents]
      exact h.fits key hkey
    · intro d
      rw [hevents]
      exact h.alternate d
  | some key =>
    obtain ⟨hkeys, hevents⟩ := View.linkDown_of_found hlist hfound reason
    have hmem : key ∈ v.keys := List.mem_of_find?_eq_some hfound
    have hconn : key.connId = (link.handle.toNat : Int) := by simpa using List.find?_some hfound
    have hpeer : link.peer = key.bda := (h.attached key hmem link hlink).mpr hconn
    have hself : ∀ k ∈ v.keys, k.connId = (link.handle.toNat : Int) → k = key := by
      intro k hk hkconn
      have hkpeer := (h.attached k hk link hlink).mpr hkconn
      exact List.inj_on_of_nodup_map hlist.distinct hk hmem (hkpeer.symm.trans hpeer)
    have hkey' : ∀ k' ∈ (v.linkDown link reason).keys, ∃ k ∈ v.keys,
        k' = if k.id = key.id then { k with connected := false, connId := -1 } else k := by
      intro k' hk'
      rw [hkeys] at hk'
      obtain ⟨k, hk, rfl⟩ := List.mem_map.mp hk'
      exact ⟨k, hk, rfl⟩
    have hrole : (key.connected = true ↔ v.last key.id = some true) ∧
        (v.ctl.stage.role key.id = .idle ∨ v.ctl.stage.role key.id = .connecting) := by
      have hfits := h.fits key hmem
      have hstage := hsettled key hfound
      cases hrole : v.ctl.stage.role key.id with
      | idle =>
        rw [hrole] at hfits
        exact ⟨hfits.2, .inl rfl⟩
      | fresh =>
        rw [hrole] at hfits
        have hdown := hfits.1
        omega
      | connecting =>
        rw [hrole] at hfits
        exact ⟨by simp [hfits.1, hfits.2], .inr rfl⟩
      | linked => exact absurd (Stage.settling_of_role (.inl hrole)) hstage
      | marked => exact absurd (Stage.settling_of_role (.inr hrole)) hstage
    constructor
    · exact hhandles
    · intro l hl
      obtain ⟨k, hk, hbda⟩ := h.covered l (hsub l hl).1
      refine ⟨_, hkeys ▸ List.mem_map.mpr ⟨k, hk, rfl⟩, ?_⟩
      split <;> exact hbda
    · intro k' hk' l hl
      obtain ⟨k, hk, rfl⟩ := hkey' k' hk'
      obtain ⟨hl, hne⟩ := hsub l hl
      by_cases hid : k.id = key.id
      · obtain rfl := List.inj_on_of_nodup_map hlist.nodup hk hmem hid
        simp only [↓reduceIte]
        refine iff_of_false (fun hbda => ?_) (by omega)
        have hhandle := (h.attached k hk l hl).mp hbda
        exact toNat_ne hne (hhandle.symm.trans hconn)
      · simpa only [hid, ↓reduceIte] using h.attached k hk l hl
    · intro k' hk' hkconn
      obtain ⟨k, hk, rfl⟩ := hkey' k' hk'
      by_cases hid : k.id = key.id
      · simp only [hid, ↓reduceIte] at hkconn
        omega
      · simp only [hid, ↓reduceIte] at hkconn ⊢
        obtain ⟨l, hl, hhandle⟩ := h.backed k hk hkconn
        refine ⟨l, ?_, hhandle⟩
        rw [hlinks]
        refine List.mem_filter.mpr ⟨hl, bne_iff_ne.mpr fun heq => hid ?_⟩
        rw [hself k hk (by rw [hhandle, heq])]
    · intro peer hattempt
      rw [hconnecting] at hattempt
      obtain ⟨hpeers, kind, k, hk, hstage, hbda⟩ := h.attempt peer hattempt
      rw [hctl]
      refine ⟨fun l hl => hpeers l (hsub l hl).1, kind, ?_⟩
      refine ⟨_, hkeys ▸ List.mem_map.mpr ⟨k, hk, rfl⟩, ?_, ?_⟩
      · split <;> exact hstage
      · split <;> exact hbda
    · intro k' hk'
      obtain ⟨k, hk, rfl⟩ := hkey' k' hk'
      rw [hctl, View.last, hevents]
      by_cases hid : k.id = key.id
      · obtain rfl := List.inj_on_of_nodup_map hlist.nodup hk hmem hid
        simp only [↓reduceIte, and_true]
        have hlast : (if k.connected = true then false :: linkEvents k.id v.trace
            else linkEvents k.id v.trace).head? ≠ some true := by
          split
          · exact nofun
          · rename_i hclosed
            exact fun heq => hclosed (hrole.1.mpr heq)
        rcases hrole.2 with hrole | hrole <;> rw [hrole]
        · exact ⟨iff_of_false nofun (by simp), iff_of_false nofun hlast⟩
        · exact ⟨rfl, hlast⟩
      · simp only [hid, ↓reduceIte, Ne.symm hid, and_false]
        exact h.fits k hk
    · intro d
      rw [hevents]
      split
      · rename_i hand
        obtain ⟨hconnected, rfl⟩ := hand
        exact (h.alternate key.id).cons (.inl (hrole.1.mp hconnected))
      · exact h.alternate d

/-- **An event keeps the events in line with the links.** -/
theorem LinkInv.effect {e : Event} {v v' : View} (h : LinkInv v) (hlist : DeviceList v)
    (hwork : View.WorkOf v) (heff : View.Effect e v v')
    (hup : ∀ handle ota identity, e = .connected handle ota identity →
      ((v.byBda ota).or (v.byBda identity)).map (·.id) = v.ctl.stage.attempted?)
    (hdown : ∀ handle reason, e = .disconnected handle reason →
      ∀ key, v.byConnId handle = some key → v.ctl.stage.settling? ≠ some key.id) :
    LinkInv v' := by
  by_cases he : e = .dispatch
  · subst he
    have hlinks : v'.links = v.links ∧ v'.connecting = v.connecting := by
      rcases heff.dispatch with ⟨p, step, rest, -, -, rfl⟩ | ⟨-, p, queue, rest, rfl⟩
      · cases rest <;> cases step <;> exact ⟨rfl, rfl⟩
      · cases rest <;> exact ⟨rfl, rfl⟩
    exact h.quiet heff nofun (hwork.keys heff) hlinks.1 (.inl hlinks.2)
  · cases heff with
    | connected _ link hconnecting hfresh =>
      exact h.linkUp hlist hconnecting hfresh (hup _ _ _ rfl)
    | disconnected _ link reason hfind hroom =>
      exact h.linkDown hlist (List.mem_of_find?_eq_some hfind) (hdown _ _ rfl)
    | connectFailed _ status hsome =>
      exact h.quiet (.connectFailed v status hsome) nofun rfl rfl (.inr rfl)
    | quiet _ hinner =>
      exact h.quiet (.quiet v hinner) (fun _ _ heq => by subst heq; cases hinner) rfl rfl (.inl rfl)
    | ticked _ n => exact h.quiet (.ticked v n) nofun rfl rfl (.inl rfl)
    | startPairing => exact h.quiet (.startPairing v) nofun rfl rfl (.inl rfl)
    | selectDevice _ index => exact h.quiet (.selectDevice v index) nofun rfl rfl (.inl rfl)
    | advertised _ report => exact h.quiet (.advertised v report) nofun rfl rfl (.inl rfl)
    | encChange _ handle status =>
      exact h.quiet (.encChange v handle status) nofun rfl rfl (.inl rfl)
    | notified _ handle attr data event key hkey hdev hopen hclose hroom =>
      exact h.quiet (.notified v handle attr data event key hkey hdev hopen hclose hroom) nofun rfl rfl
        (.inl rfl)
    | popped | stepped | settled => exact absurd rfl he

theorem linkInv {cfg : KbdConfig} {bonds : List (Bda × UInt8)} {c : HostConfig}
    (h : Reach host linkKept (boot cfg bonds) c) : LinkInv c.state.view := by
  refine reach_keeps_of_known
    (J := fun s => TokenBound s ∧ View.WorkOf s.view ∧ DeviceList s.view ∧ EventLog s.view)
    (I := fun s => LinkInv s.view) h (fun _ hreach =>
      ⟨tokenBound hreach, View.workOf hreach, deviceList hreach, eventLog hreach⟩) ?_ ?_ ?_
  · constructor <;> simp [boot, Sys.view, linkEvents, Alternate]
  · rintro o ch s ⟨htokens, -, hlist, hlog⟩ hinv _ hready _ hat
    rw [exec_view]
    exact hinv.exec hlist hlog htokens ch hready hat
  · rintro e s s' ⟨-, hwork, hlist, -⟩ hinv _ hg hstep
    refine hinv.effect hlist hwork (eventStep_view hstep) ?_ ?_
    · rintro handle ota identity rfl
      have hfound : ((s.getByBda ota).or (s.getByBda identity)).map (·.id) =
          s.ctl.stage.attempted? := beq_iff_eq.mp hg
      rw [byBda_view, byBda_view, ← Option.map_or, Option.map_map]
      exact hfound
    · rintro handle reason rfl key hkey
      rw [byConnId_view] at hkey
      obtain ⟨dev, hdev, rfl⟩ := Option.map_eq_some_iff.mp hkey
      have hsettled : (s.ctl.stage.settling? != some dev.id) = true := by
        simpa [linkKept, hdev] using hg
      exact bne_iff_ne.mp hsettled

/-! ## The result -/

/-- **Events follow the links.** In every run in which each connection is attributed to the device
being connected, and no link drops between its opener finding it and the open event, the events
posted for each device alternate, and between transport calls the last one tells whether the link
is up. -/
theorem eventsTruthful_of_linkKept {cfg : KbdConfig} {bonds : List (Bda × UInt8)} {c : HostConfig}
    (h : Reach host linkKept (boot cfg bonds) c) : EventsTruthful c.state := by
  have hinv := linkInv h
  refine ⟨hinv.alternate, fun link hlink => ?_, fun hstage dev hdev => ?_⟩
  · obtain ⟨key, hkey, hbda⟩ := hinv.covered link hlink
    obtain ⟨dev, hdev, rfl⟩ := List.mem_map.mp hkey
    exact ⟨dev, hdev, hbda.symm⟩
  have hkey : dev.key ∈ c.state.view.keys := List.mem_map.mpr ⟨dev, hdev, rfl⟩
  have hidle : (c.state.view.ctl.stage.role dev.id).Fits dev.key (c.state.view.last dev.id) :=
    hinv.fits dev.key hkey
  have hrole : c.state.view.ctl.stage.role dev.id = .idle := by
    have hst : c.state.view.ctl.stage = .none := hstage
    rw [hst]
    rfl
  rw [hrole] at hidle
  have hlast : (linkEvents dev.id c.state.trace).head? = some true ↔ 0 ≤ dev.key.connId :=
    hidle.2.symm.trans hidle.1
  rw [hlast]
  constructor
  · intro hconn
    obtain ⟨link, hlink, hhandle⟩ := hinv.backed dev.key hkey hconn
    exact ⟨link, hlink, (hinv.attached dev.key hkey link hlink).mpr hhandle⟩
  · rintro ⟨link, hlink, hpeer⟩
    rw [(hinv.attached dev.key hkey link hlink).mp hpeer]
    exact Int.natCast_nonneg _

/-! ## Runs -/

/-- A device is opened, and its link drops after that. -/
theorem eventsTruthful_dropped : ∃ c, host.run linkKept
    (scanRun 7 ++ selectRun ++ linkRun 7 ++ openRun ++ [.env (.disconnected 5 0)]) (boot {} []) =
      some c ∧ linkEvents 0 c.state.trace = [false, true] ∧ EventsTruthful c.state := by
  obtain ⟨c, hrun, hevents⟩ := exists_run linkKept
    (scanRun 7 ++ selectRun ++ linkRun 7 ++ openRun ++ [.env (.disconnected 5 0)]) (boot {} [])
    (fun c => linkEvents 0 c.state.trace == [false, true]) (by decide +kernel)
  exact ⟨c, hrun, beq_iff_eq.mp hevents, eventsTruthful_of_linkKept (Reach.of_run hrun)⟩

/-- The link drops during discovery: the opener marks the device as connected and posts its open
event all the same. -/
theorem not_eventsTruthful_discovery :
    ∃ c, Reach host .free (boot {} []) c ∧ ¬EventsTruthful c.state := by
  let run := scanRun 7 ++ selectRun ++ linkRun 7 ++ mains 1 ++
    [.env (.gattCb 0 .done), .env (.disconnected 5 0)] ++ mains 11
  let reported := fun c : HostConfig =>
    c.state.ctl.stage == .none && c.state.radio.links.isEmpty &&
      c.state.hidh.devices.map (·.id) == [0] && linkEvents 0 c.state.trace == [true]
  obtain ⟨c, hrun, hreported⟩ := exists_run .free run (boot {} []) reported (by decide +kernel)
  refine ⟨c, .of_run hrun, fun htruthful => ?_⟩
  simp only [reported, Bool.and_eq_true, List.isEmpty_iff, beq_iff_eq] at hreported
  obtain ⟨⟨⟨hstage, hlinks⟩, hdevices⟩, hevents⟩ := hreported
  obtain ⟨dev, hdev, hid⟩ := List.mem_map.mp (hdevices ▸ List.mem_singleton.mpr rfl)
  have hopen : (linkEvents dev.id c.state.trace).head? = some true := by rw [hid, hevents]; rfl
  obtain ⟨link, hlink, -⟩ := (htruthful.truthful hstage dev hdev).mp hopen
  rw [hlinks] at hlink
  cases hlink

end BleKbdHost.Host
