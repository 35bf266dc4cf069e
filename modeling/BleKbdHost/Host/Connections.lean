import BleKbdHost.Conc.Trace
import BleKbdHost.Host.Devices

/-!
# The connections of a device

What a trace says about the latest connection of a device, and that `conn_id` is kept in step with
it: a device with a `conn_id` has the link with this handle, and no other device has it.
-/

namespace BleKbdHost.Host

open Hid Keys Conc

/-! ## In the trace -/

/-- The link that comes up for the device. -/
def Obs.linkTo? (d : DevId) : Obs → Option Link
  | .linkUp link d? => if d? = some d then some link else none
  | _ => none

/-- The latest link of the device. -/
def lastLink? (d : DevId) (trace : List Obs) : Option Link := trace.findSome? (Obs.linkTo? d)

/-- What has happened since that link came up, newest first. -/
def sinceLink (d : DevId) (trace : List Obs) : List Obs :=
  since (fun o => (o.linkTo? d).isSome) trace

/-- The link is the latest one of the device, and it is up. -/
structure HasLink (d : DevId) (link : Link) (trace : List Obs) : Prop where
  last : lastLink? d trace = some link
  up : .linkDown link ∉ sinceLink d trace

variable {d : DevId} {l trace : List Obs} {link : Link}

theorem lastLink?_append (h : ∀ o ∈ l, o.linkTo? d = none) :
    lastLink? d (l ++ trace) = lastLink? d trace := by
  rw [lastLink?, List.findSome?_append, List.findSome?_eq_none_iff.mpr h, Option.none_or, lastLink?]

theorem sinceLink_append (h : ∀ o ∈ l, o.linkTo? d = none) :
    sinceLink d (l ++ trace) = l ++ sinceLink d trace :=
  since_append fun o ho => by rw [h o ho]; rfl

theorem sinceLink_linkUp (link : Link) (trace : List Obs) :
    sinceLink d (.linkUp link (some d) :: trace) = [] :=
  since_cons_of_pos (by simp [Obs.linkTo?])

theorem HasLink.append (h : HasLink d link trace) (hl : ∀ o ∈ l, o.linkTo? d = none)
    (hdown : .linkDown link ∉ l) : HasLink d link (l ++ trace) where
  last := (lastLink?_append hl).trans h.last
  up := by
    rw [sinceLink_append hl, List.mem_append]
    exact fun hmem => hmem.elim hdown h.up

theorem hasLink_linkUp (link : Link) (trace : List Obs) :
    HasLink d link (.linkUp link (some d) :: trace) where
  last := by simp [lastLink?, Obs.linkTo?]
  up := by
    rw [sinceLink_linkUp]
    exact List.not_mem_nil

/-! ## In the state -/

/-- The handle of the device's link, where it has one. -/
structure Connections (v : View) : Prop where
  unique : ∀ key ∈ v.keys, ∀ key' ∈ v.keys, 0 ≤ key.connId → key.connId = key'.connId →
    key.id = key'.id
  linked : ∀ key ∈ v.keys, 0 ≤ key.connId → ∃ link ∈ v.links,
    key.connId = (link.handle.toNat : Int) ∧ HasLink key.id link v.trace

namespace Connections

variable {v v' : View}

/-- A step by which no device comes to a connection and no link changes. -/
theorem of_frame {l : List Obs} (h : Connections v)
    (hkeys : ∀ key ∈ v'.keys, 0 ≤ key.connId → ∃ old ∈ v.keys, old.id = key.id ∧
      old.connId = key.connId)
    (hlinks : v'.links = v.links) (htrace : v'.trace = l ++ v.trace)
    (hl : ∀ d, ∀ o ∈ l, o.linkTo? d = none) (hdown : ∀ link, .linkDown link ∉ l) :
    Connections v' where
  unique key hkey key' hkey' hconn heq := by
    obtain ⟨old, hold, hid, hsame⟩ := hkeys key hkey hconn
    obtain ⟨old', hold', hid', hsame'⟩ := hkeys key' hkey' (heq ▸ hconn)
    rw [← hid, ← hid']
    apply h.unique old hold old' hold'
    · rwa [hsame]
    · rw [hsame, hsame', heq]
  linked key hkey hconn := by
    obtain ⟨old, hold, hid, hsame⟩ := hkeys key hkey hconn
    obtain ⟨link, hlink, hhandle, hhas⟩ := h.linked old hold (by rwa [hsame])
    rw [hlinks, htrace, ← hid, ← hsame]
    exact ⟨link, hlink, hhandle, hhas.append (hl _) (hdown link)⟩

/-- An operation neither connects nor disconnects a device. -/
theorem exec (h : Connections v) (o : Op) (c : Choice) : Connections (v.exec o c) := by
  have hnoted : ∀ obs ∈ (v.noted o c).toList, (∀ d, obs.linkTo? d = none) ∧
      ∀ link, obs ≠ .linkDown link := by
    intro obs hobs
    have hby := View.noted_origin (Option.mem_toList.mp hobs)
    cases obs with
    | linkUp _ _ | linkDown _ => exact hby.elim
    | _ => exact ⟨fun _ => rfl, nofun⟩
  refine h.of_frame ?_ (View.exec_links o c v) (View.exec_trace o c v)
    (fun d obs hobs => (hnoted obs hobs).1 d) fun link hmem => (hnoted _ hmem).2 link rfl
  intro key hkey hconn
  rw [View.exec_keys] at hkey
  cases o with
  | devMalloc bda addrType =>
    simp only [View.nextKeys] at hkey
    split at hkey
    · rcases List.mem_append.mp hkey with hkey | hkey
      · exact ⟨key, hkey, rfl, rfl⟩
      · rw [List.mem_singleton.mp hkey] at hconn
        cases hconn
    · exact ⟨key, hkey, rfl, rfl⟩
  | devFree d => exact ⟨key, (List.mem_filter.mp hkey).1, rfl, rfl⟩
  | setConnected kind d =>
    obtain ⟨old, hold, rfl⟩ := List.mem_map.mp hkey
    exact ⟨old, hold, by split <;> rfl, by split <;> rfl⟩
  | _ => exact ⟨key, hkey, rfl, rfl⟩

/-- The device of a new link has its handle, which no device had. -/
theorem linkUp (h : Connections v) (link : Link) (hfresh : ∀ l ∈ v.links, l.handle ≠ link.handle) :
    Connections (v.linkUp link) := by
  have hunused : ∀ key ∈ v.keys, key.connId ≠ (link.handle.toNat : Int) := by
    intro key hkey heq
    obtain ⟨l, hl, hhandle, -⟩ := h.linked key hkey (by omega)
    apply hfresh l hl
    exact UInt16.toNat_inj.mp (by omega)
  have hold : ∀ (found : Option DevKey), ∀ key ∈ v.keys, found.map DevKey.id ≠ some key.id →
      0 ≤ key.connId → ∃ l ∈ v.links ++ [link], key.connId = (l.handle.toNat : Int) ∧
        HasLink key.id l (.linkUp link (found.map DevKey.id) :: v.trace) := by
    intro found key hkey hne hconn
    obtain ⟨l, hl, hhandle, hhas⟩ := h.linked key hkey hconn
    refine ⟨l, List.mem_append_left _ hl, hhandle, ?_⟩
    exact hhas.append (l := [_]) (by simp [Obs.linkTo?, hne]) (by simp)
  cases hfound : (v.byBda link.ota).or (v.byBda link.identity) with
  | none =>
    constructor
    · simp only [View.linkUp, hfound]
      exact h.unique
    · simp only [View.linkUp, hfound]
      exact fun key hkey => hold none key hkey (by simp)
  | some dev =>
    have hkeys : ∀ key ∈ (v.linkUp link).keys,
        (key.id = dev.id ∧ key.connId = (link.handle.toNat : Int)) ∨
          (key ∈ v.keys ∧ key.id ≠ dev.id) := by
      intro key hkey
      simp only [View.linkUp, hfound] at hkey
      obtain ⟨old, hmem, rfl⟩ := List.mem_map.mp hkey
      by_cases hid : old.id = dev.id
      · rw [if_pos hid]
        exact .inl ⟨hid, rfl⟩
      · rw [if_neg hid]
        exact .inr ⟨hmem, hid⟩
    constructor
    · intro key hkey key' hkey' hconn heq
      rcases hkeys key hkey with ⟨hid, hhandle⟩ | ⟨hmem, hid⟩ <;>
        rcases hkeys key' hkey' with ⟨hid', hhandle'⟩ | ⟨hmem', hid'⟩
      · rw [hid, hid']
      · exact absurd (heq.symm.trans hhandle) (hunused key' hmem')
      · exact absurd (heq.trans hhandle') (hunused key hmem)
      · exact h.unique key hmem key' hmem' hconn heq
    · intro key hkey hconn
      rcases hkeys key hkey with ⟨hid, hhandle⟩ | ⟨hmem, hid⟩
      · refine ⟨link, List.mem_append_right _ (List.mem_singleton.mpr rfl), hhandle, ?_⟩
        simp only [View.linkUp, hfound, hid]
        exact hasLink_linkUp link v.trace
      · simp only [View.linkUp, hfound]
        exact hold (some dev) key hmem (by simpa using Ne.symm hid) hconn

theorem mem_linkDown_keys {link : Link} {reason : Int} {key : DevKey}
    (hkey : key ∈ (v.linkDown link reason).keys) (hconn : 0 ≤ key.connId) :
    key ∈ v.keys ∧ ∀ dev, v.byConnId link.handle = some dev → key.id ≠ dev.id := by
  unfold View.linkDown at hkey
  cases hdev : v.byConnId link.handle with
  | none =>
    simp only [hdev] at hkey
    exact ⟨hkey, nofun⟩
  | some dev =>
    simp only [hdev] at hkey
    split at hkey <;>
    · obtain ⟨old, hold, rfl⟩ := List.mem_map.mp hkey
      by_cases hid : old.id = dev.id
      · rw [if_pos hid] at hconn
        cases hconn
      · rw [if_neg hid]
        refine ⟨hold, fun dev' hdev' => ?_⟩
        cases hdev'
        exact hid

/-- The device of a link that goes down is without a connection. -/
theorem linkDown (h : Connections v) (link : Link) (reason : Int) :
    Connections (v.linkDown link reason) := by
  have hlinks : (v.linkDown link reason).links = v.links.filter (·.handle != link.handle) := by
    simp only [View.linkDown]
    split
    · rfl
    · split <;> rfl
  constructor
  · intro key hkey key' hkey' hconn heq
    exact h.unique key (mem_linkDown_keys hkey hconn).1 key'
      (mem_linkDown_keys hkey' (heq ▸ hconn)).1 hconn heq
  · intro key hkey hconn
    obtain ⟨hmem, hother⟩ := mem_linkDown_keys hkey hconn
    obtain ⟨l, hl, hhandle, hhas⟩ := h.linked key hmem hconn
    -- a device with the handle is the one that loses its connection
    have hne : l.handle ≠ link.handle := by
      intro heq
      cases hdev : v.byConnId link.handle with
      | none =>
        have hall := List.find?_eq_none.mp hdev key hmem
        simp [hhandle, heq] at hall
      | some dev =>
        apply hother dev hdev
        have hdevConn : dev.connId = (link.handle.toNat : Int) := by
          simpa using List.find?_some hdev
        exact h.unique key hmem dev (List.mem_of_find?_eq_some hdev) hconn
          (by rw [hhandle, heq, hdevConn])
    refine ⟨l, ?_, hhandle, ?_⟩
    · rw [hlinks]
      exact List.mem_filter.mpr ⟨hl, by simpa using hne⟩
    · rw [View.linkDown_trace, List.append_cons]
      refine hhas.append (fun o ho => ?_) fun hdown => ?_
      · rcases List.mem_append.mp ho with ho | ho
        · split at ho
          · rw [List.mem_singleton.mp ho]
            rfl
          · cases ho
        · rw [List.mem_singleton.mp ho]
          rfl
      · rcases List.mem_append.mp hdown with hdown | hdown
        · split at hdown
          · cases List.mem_singleton.mp hdown
          · cases hdown
        · cases List.mem_singleton.mp hdown
          exact hne rfl

/-- The event task leaves the links alone. -/
theorem dispatch_links (heff : View.Effect .dispatch v v') : v'.links = v.links := by
  have hhandling : ∀ (w : View) (p : Posted) (steps : List HidhStep),
      (w.setHandling p steps).links = w.links := by
    intro w p steps
    cases steps <;> rfl
  rcases heff.dispatch with ⟨p, step, rest, -, -, rfl⟩ | ⟨-, p, queue, rest, rfl⟩
  · rw [hhandling]
    cases step <;> rfl
  · rw [hhandling]

/-- **An event keeps the connections in step with the links.** -/
theorem effect {e : Event} (h : Connections v) (hwork : View.WorkOf v) (heff : View.Effect e v v') :
    Connections v' := by
  have hstay : v'.keys = v.keys → v'.links = v.links →
      (∀ obs : Obs, obs.RecordedBy e v → (∀ d, obs.linkTo? d = none) ∧ ∀ link, obs ≠ .linkDown link) →
      Connections v' := by
    intro hkeys hlinks hquiet
    obtain ⟨l, htrace, hby⟩ := heff.records
    refine h.of_frame (fun key hkey _ => ⟨key, hkeys ▸ hkey, rfl, rfl⟩) hlinks htrace
      (fun d obs hobs => (hquiet obs (hby obs hobs)).1 d) fun link hmem => ?_
    exact (hquiet _ (hby _ hmem)).2 link rfl
  have hrecorded : (∀ handle ota identity, e ≠ .connected handle ota identity) →
      (∀ handle reason, e ≠ .disconnected handle reason) → ∀ obs : Obs, obs.RecordedBy e v →
      (∀ d, obs.linkTo? d = none) ∧ ∀ link, obs ≠ .linkDown link := by
    intro hup hdown obs hobs
    cases obs with
    | linkUp link d => exact absurd hobs.1 (hup _ _ _)
    | linkDown link =>
      obtain ⟨reason, he⟩ := hobs
      exact absurd he (hdown _ _)
    | _ => exact ⟨fun _ => rfl, nofun⟩
  by_cases he : e = .dispatch
  · subst he
    exact hstay (hwork.keys heff) (dispatch_links heff) (hrecorded nofun nofun)
  · cases heff with
    | connected _ link hconnecting hfresh => exact h.linkUp link hfresh
    | disconnected _ link reason hfind hroom => exact h.linkDown link reason
    | popped | stepped | settled => exact absurd rfl he
    | quiet _ hinner => exact hstay rfl rfl (hrecorded (by rintro _ _ _ rfl; cases hinner)
        (by rintro _ _ rfl; cases hinner))
    | _ => exact hstay rfl rfl (hrecorded nofun nofun)

end Connections

theorem connections {g : Guard Op Choice Sys Event} {cfg : KbdConfig}
    {bonds : List (Bda × UInt8)} {c : HostConfig} (h : Reach host g (boot cfg bonds) c) :
    Connections c.state.view := by
  refine reach_keeps_of_known (J := fun s => View.WorkOf s.view) (I := fun s => Connections s.view) h
    (fun _ => View.workOf) ⟨nofun, nofun⟩ ?_ ?_
  · intro o ch s _ hinv _ _ _ _
    rw [exec_view]
    exact hinv.exec o ch
  · exact fun e s s' hwork hinv _ _ hstep => hinv.effect hwork (eventStep_view hstep)

/-- The device that a handle belongs to has its link. -/
theorem Connections.byConnId {v : View} (h : Connections v) {handle : UInt16} {key : DevKey}
    (hkey : v.byConnId handle = some key) :
    ∃ link, link.handle = handle ∧ HasLink key.id link v.trace := by
  have hconn : key.connId = (handle.toNat : Int) := by simpa using List.find?_some hkey
  obtain ⟨link, -, hhandle, hhas⟩ := h.linked key (List.mem_of_find?_eq_some hkey) (by omega)
  exact ⟨link, UInt16.toNat_inj.mp (by omega), hhas⟩

end BleKbdHost.Host
