import BleKbdHost.Keys.Edges
import BleKbdHost.Verify.KeyPresses

/-!
# The stream of characters

The decoder is edge-triggered over whole runs of reports, and what it emits is never NUL: a NUL is
what the main task emits when it has a connection.
-/

namespace BleKbdHost.Host

open Hid Keys Conc

/-- The decoder, from the cleared `s_prev_keys`, is edge-triggered on a run of reports. -/
structure EdgeTriggered (reports : List (List UInt8)) : Prop where
  ignored : ∀ report ∈ reports, tooShort report = true →
    ∀ prev, translateReport prev report = (prev, [])
  emitted : emissions .cleared reports = reports.mapIdx fun i report =>
    edges (lastKeys KeySlots.cleared.keys (reports.take i)) report
  texts : ∀ report ∈ reports, ∀ code ∈ keyBytes report,
    KeyText (report.getD 0 0) code (keyOutput (report.getD 0 0) code)
  visible : 0 ∉ (emissions .cleared reports).flatten

/-- The main task is at the wakeup of a connection. -/
def Wakeup (c : HostConfig) : Prop :=
  c.state.ctl = ⟨.connected, .none, false⟩ ∧ ∃ k, c.task = .op (.emitKey 0) k

theorem nul_not_mem_emissions (prev : KeySlots) (reports : List (List UInt8)) :
    0 ∉ (emissions prev reports).flatten := by
  induction reports generalizing prev with
  | nil => exact List.not_mem_nil
  | cons report reports ih =>
    rw [emissions, List.flatten_cons, List.mem_append]
    rintro (hmem | hmem)
    · exact nul_not_mem_translateReport prev report hmem
    · exact ih _ hmem

theorem edgeTriggered (reports : List (List UInt8)) : EdgeTriggered reports where
  ignored _ _ hshort := translateReport_of_short (of_decide_eq_true hshort)
  emitted := emissions_eq_edges .cleared reports
  texts report _ code _ := keyText_keyOutput (report.getD 0 0) code
  visible := nul_not_mem_emissions .cleared reports

/-! ## NUL -/

namespace View

/-- A step of the event task emits no NUL. -/
theorem count_nul_stepExec (v : View) {step : HidhStep} (hstep : step ≠ .emit 0) :
    (v.stepExec step).trace.count (.key 0) = v.trace.count (.key 0) := by
  cases step with
  | compare mod code => exact List.count_cons_of_ne Obs.noConfusion
  | emit ch =>
    simp only [stepExec]
    split
    · refine List.count_cons_of_ne fun heq => hstep ?_
      cases heq
      rfl
    · rfl
  | free d =>
    simp only [stepExec, free]
    split
    · exact List.count_cons_of_ne Obs.noConfusion
    · rfl
  | _ => rfl

theorem count_nul_setHandling (v : View) (p : Posted) (steps : List HidhStep) :
    (v.setHandling p steps).trace.count (.key 0) = v.trace.count (.key 0) := by
  rw [setHandling_trace, List.count_append]
  split
  · rw [List.count_eq_zero.mpr (by simp), Nat.zero_add]
  · rw [List.count_nil, Nat.zero_add]

/-- **No event brings a NUL.** -/
theorem Effect.count_nul {e : Event} {v v' : View} (heff : Effect e v v') (hlog : EventLog v) :
    v'.trace.count (.key 0) = v.trace.count (.key 0) := by
  by_cases he : e = .dispatch
  · subst he
    cases heff with
    | quiet _ hinner => cases hinner
    | popped _ p ps _ _ => exact count_nul_setHandling _ p _
    | stepped _ p step steps hsome =>
      have hmem := (hlog.steps p _ hsome).subset List.mem_cons_self
      rw [count_nul_setHandling, count_nul_stepExec v]
      rintro rfl
      exact ne_nul_of_emit hmem rfl
    | settled _ p _ => exact count_nul_setHandling _ p _
  · obtain ⟨l, htrace, hby⟩ := heff.records
    have hnone : l.count (.key 0) = 0 := List.count_eq_zero.mpr fun hmem => he (hby _ hmem)
    rw [htrace, List.count_append, hnone, Nat.zero_add]

/-- An operation that emits a NUL is the one that emits characters. -/
theorem noted_nul {o : Op} {c : Choice} {v : View} (h : v.noted o c = some (.key 0)) :
    o = .emitKey 0 := by
  cases o with
  | emitKey ch =>
    simp only [noted, Option.ite_none_right_eq_some, Option.some.injEq, Obs.key.injEq] at h
    rw [h.2]
  | receiveCmd _ _ =>
    obtain ⟨cmd, -, hcmd⟩ := Option.map_eq_some_iff.mp h
    cases cmd <;> cases hcmd
  | _ =>
    simp [noted] at h

end View

/-- **A NUL is a wakeup.** -/
theorem wakeup_of_nul {cfg : KbdConfig} {bonds : List (Bda × UInt8)} {c c' : HostConfig}
    {m : Move Choice Event} (h : Reach host .free (boot cfg bonds) c) (hstep : host.step m c = some c')
    (hnul : c'.state.trace.count (.key 0) ≠ c.state.trace.count (.key 0)) : Wakeup c := by
  cases m with
  | env e =>
    obtain ⟨-, -, henv⟩ := System.step_env_cases hstep
    exact absurd ((eventStep_view henv).count_nul (eventLog h)) hnul
  | main ch =>
    obtain ⟨l, -, -, rfl⟩ | ⟨o, k, htask, hlive, -, rfl⟩ := System.step_main_cases hstep
    · exact absurd rfl hnul
    · have hat := reach_op_at h (live_iff.mp hlive) htask
      by_cases hnoted : c.state.view.noted o ch = some (.key 0)
      · obtain rfl := View.noted_nul hnoted
        exact ⟨hat.2, k, htask⟩
      · refine absurd ?_ hnul
        have htrace : (o.exec ch c.state).trace =
            (c.state.view.noted o ch).toList ++ c.state.trace := by
          have hview := View.exec_trace o ch c.state.view
          rw [← exec_view] at hview
          exact hview
        have hnone : (c.state.view.noted o ch).toList.count (.key 0) = 0 :=
          List.count_eq_zero.mpr fun hmem => hnoted (Option.mem_toList.mp hmem)
        exact (congrArg (List.count (.key 0)) htrace).trans
          (by rw [List.count_append, hnone, Nat.zero_add])

/-- **The decoder is edge-triggered over whole runs**, and a NUL is emitted only as the wakeup of a
connection. -/
theorem edgeTriggered_and_wakeup : (∀ reports, EdgeTriggered reports) ∧
    ∀ cfg bonds c c' m, Reach host .free (boot cfg bonds) c → host.step m c = some c' →
      c'.state.trace.count (.key 0) ≠ c.state.trace.count (.key 0) → Wakeup c :=
  ⟨edgeTriggered, fun _ _ _ _ _ hreach hstep hnul => wakeup_of_nul hreach hstep hnul⟩

/-- The wakeup of a connection. -/
theorem wakeup_connected : ∃ c c', Reach host .free (boot {} []) c ∧
    host.step (.main {}) c = some c' ∧ c'.state.trace.count (.key 0) ≠ c.state.trace.count (.key 0) ∧
      Wakeup c := by
  let run := scanRun 7 ++ selectRun ++ linkRun 7 ++ keyboardRun [1] ++ mains 4
  obtain ⟨c, hrun, hstep⟩ := exists_run .free run (boot {} []) (fun c =>
    (host.step (.main {}) c).any fun c' =>
      !(c'.state.trace.count (.key 0) == c.state.trace.count (.key 0))) (by decide +kernel)
  obtain ⟨c', hstep, hnul⟩ := (Option.any_eq_true _ _).mp hstep
  have hne : c'.state.trace.count (.key 0) ≠ c.state.trace.count (.key 0) := by simpa using hnul
  have hreach : Reach host .free (boot {} []) c := .of_run hrun
  exact ⟨c, c', hreach, hstep, hne, edgeTriggered_and_wakeup.2 {} [] c c' _ hreach hstep hne⟩

end BleKbdHost.Host
