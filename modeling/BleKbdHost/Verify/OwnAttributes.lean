import BleKbdHost.Host.Sessions

/-!
# What a discovery session processes

`services_discovered` is never reset, so only the first discovery that finds a service goes through
what its peer reported; a later one starts behind the services of the first and reads slots that
nothing was written to.
-/

namespace BleKbdHost.Host

open Hid Keys Conc

/-- The index that the callback of the request writes lies inside its result array. -/
def Search.Within (r : Search) : GattReq → GattRsp → Prop
  | .services _, .svc _ => r.servicesDiscovered < 10
  | .chrs _ _ _, .chr _ => r.chrsDiscovered < 20
  | .dscs _ _ _, .dsc _ => r.dscsDiscovered < 20
  | _, _ => True

/-- The loops of discovery come to what the peer reported in this session, in order and without rest,
and a callback that may come next writes inside its array. -/
structure SeesOwn (g : Guard Op Choice Sys Event) (c : HostConfig) : Prop where
  sees : ∀ o k, c.task = .op o k → c.state.fault = none → o.Sees c.state
  within : ∀ i rsp c', g.env (.gattCb i rsp) c.state = true →
    host.step (.env (.gattCb i rsp)) c = some c' →
    ∀ req, c.state.radio.gatt[i]? = some req → c.state.search.Within req rsp

theorem Search.within_of_open {r : Search} {req : GattReq} {rsp : GattRsp} (h : r.Open req)
    (hadmits : r.admits rsp = true) : r.Within req rsp := by
  have hbelow : ∀ {α : Type} {c : Collection α} {n : Nat}, c.Holds n 0 →
      (reported c.log).length < n → c.count < n := by
    intro α c n h hroom
    rwa [h.count]
  cases req <;> cases rsp <;> first | trivial | exact hbelow h (of_decide_eq_true hadmits)

/-- **A discovery sees what its own peer reported**, in every run in which no discovery follows one to
which a service was reported, the peer's tables fit into the arrays, and no allocation fails. -/
theorem seesOwn_of_firstFound (cfg : KbdConfig) (bonds : List (Bda × UInt8)) (c : HostConfig)
    (h : Reach host firstFound (boot cfg bonds) c) : SeesOwn firstFound c where
  sees o k htask hlive := (reach_sessionReady h hlive htask).sees
  within i rsp c' hadmits hstep req hreq := by
    obtain ⟨hlive, -, -⟩ := System.step_env_cases hstep
    exact Search.within_of_open
      (reach_opened h (live_iff.mp hlive) req (List.mem_of_getElem? hreq)) hadmits

/-- A keyboard is discovered. -/
theorem seesOwn_keyboard : ∃ c, host.run firstFound
    (scanRun 7 ++ selectRun ++ linkRun 7 ++ keyboardRun [1]) (boot {} []) = some c ∧
      Completed c.state.discLog ∧ SeesOwn firstFound c := by
  obtain ⟨c, hrun, hcompleted⟩ := exists_run firstFound
    (scanRun 7 ++ selectRun ++ linkRun 7 ++ keyboardRun [1]) (boot {} [])
    (fun c => c.state.discLog.find? DiscObs.bounds == some .svcsDone) (by decide +kernel)
  exact ⟨c, hrun, beq_iff_eq.mp hcompleted, seesOwn_of_firstFound {} [] c (Reach.of_run hrun)⟩

/-- The service loop is about to read a slot that nothing was written to. -/
def readsUnwritten (c : HostConfig) : Bool :=
  match c.task with
  | .op (.readSvc i) _ => c.state.fault.isNone && !(slot c.state.nimble.serviceResult i).isOk
  | _ => false

/-- A keyboard is closed for pairing, and another one is opened. The callback stores its HID service
behind that of the first, and the loop reads slot 0. -/
theorem not_seesOwn_second : ∃ c, Reach host .free (boot {} []) c ∧ ¬SeesOwn .free c := by
  let run := scanRun 7 ++ selectRun ++ linkRun 7 ++ keyboardRun [1] ++ mains 1 ++
    repairRun ([.env (.disconnected 5 0)] ++ List.replicate 3 (.env .dispatch)) ++ rescanRun 8 ++
    selectRun ++ linkRun 8 ++ mains 1 ++ answers [.svc ⟨Uuid.hid, 1, 9⟩, .done] ++ mains 4 ++
    [.main { bytes := [1] }]
  obtain ⟨c, hrun, hreads⟩ := exists_run .free run (boot {} []) readsUnwritten (by decide +kernel)
  refine ⟨c, .of_run hrun, fun hown => ?_⟩
  unfold readsUnwritten at hreads
  split at hreads
  · rename_i i k htask
    obtain ⟨hlive, hslot⟩ := Bool.and_eq_true_iff.mp hreads
    obtain ⟨svc, hread, -⟩ := hown.sees _ k htask (Option.isNone_iff_eq_none.mp hlive)
    rw [hread] at hslot
    cases hslot
  · cases hreads

end BleKbdHost.Host
