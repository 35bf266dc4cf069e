import BleKbdHost.Verify.Delivery
import BleKbdHost.Verify.KeyPresses

/-!
# The callback stream of a run

What the tasks do to the keyboard together is what one sequential decoder does: `on_key` gets the
characters that `keyDecoder` puts out on the keys of the reports that were handled, one after the
other, with the clearings of `s_prev_keys` where they fell, however the main task and the event task
interleave.
-/

namespace BleKbdHost.Host

open Hid Keys Conc

/-- The keys that an event leaves in `s_prev_keys`. -/
def Posted.kept? (p : Posted) : Option KeySlots :=
  p.report?.bind fun data => if data.length < 3 then none else some (curKeys data)

/-- The inputs are the keys that were looked up and those that were kept, at the end of a report;
the outputs are the calls of `on_key` but those with NUL, which are wakeups. -/
def keyPorts : Ports Obs KeyInput UInt8 where
  input?
    | .compared mod code => some (.key mod code)
    | .handled p => p.kept?.map .remember
    | .prevKeysCleared => some .clear
    | _ => none
  output? := Obs.char?

def KeyInput.isClear : KeyInput → Bool
  | .clear => true
  | _ => false

/-- What the decoder reads for some events. -/
def eventInputs (events : List Posted) : List KeyInput :=
  events.flatMap fun p => stepInputs (hidhSteps p.event)

/-- With the event under way, `now`: the calls of `on_key` are what the decoder puts out, whose state
is `s_prev_keys`; and it reads the events that were handled, and the one under way up to what is left
of it. -/
structure ReplayAt (v : View) (now : Option (Posted × List HidhStep)) : Prop where
  follows : v.kbd.cfg.onKey = true → keyPorts.Follows keyDecoder v.kbd.prevKeys
    (now.elim [] fun work => owed v.kbd.wasPressed work.2) v.trace
  inOrder : (keyPorts.inputs v.trace).filter (!·.isClear) ++
      now.elim [] (fun work => stepInputs work.2) =
    eventInputs (eventChannel.received v.trace ++ (now.map Prod.fst).toList)

def KeysReplayed (v : View) : Prop := ReplayAt v v.handling

theorem Posted.kept?_of_not_decodes {p : Posted} (h : p.decodes = false) : p.kept? = none := by
  unfold kept?
  unfold decodes at h
  cases hreport : p.report? with
  | none => rfl
  | some data =>
    rw [hreport] at h
    have hshort : data.length < 3 := by simpa using h
    exact if_pos hshort

/-! ## Steps -/

namespace ReplayAt

variable {v v' : View} {l : List Obs} {p : Posted} {steps : List HidhStep}
variable {now : Option (Posted × List HidhStep)}

/-- A step that the decoder has no part in. -/
theorem frame (h : ReplayAt v now) (htrace : v'.trace = l ++ v.trace)
    (hl : ∀ o ∈ l, keyPorts.input? o = none ∧ keyPorts.output? o = none)
    (hreceived : ∀ o ∈ l, eventChannel.received? o = none)
    (hcfg : v'.kbd.cfg.onKey = v.kbd.cfg.onKey) (hwas : v'.kbd.wasPressed = v.kbd.wasPressed)
    (hkeys : v'.kbd.prevKeys = v.kbd.prevKeys) : ReplayAt v' now := by
  constructor
  · rw [hcfg, hkeys, hwas, htrace]
    exact fun hon => (h.follows hon).quiet hl
  · rw [htrace, Ports.inputs_append, Ports.inputs_eq_nil fun o ho => (hl o ho).1, List.append_nil,
      Channel.received_append, Channel.received_eq_nil hreceived, List.append_nil]
    exact h.inOrder

/-- The main task clears `s_prev_keys`. -/
theorem clear (h : ReplayAt v now) (htrace : v'.trace = [.prevKeysCleared] ++ v.trace)
    (hcfg : v'.kbd.cfg.onKey = v.kbd.cfg.onKey) (hwas : v'.kbd.wasPressed = v.kbd.wasPressed)
    (hkeys : v'.kbd.prevKeys = .cleared) : ReplayAt v' now := by
  constructor
  · rw [hcfg, hkeys, hwas, htrace]
    intro hon
    refine (h.follows hon).append rfl ?_
    exact List.append_nil _
  · have hinputs : (keyPorts.inputs [Obs.prevKeysCleared]).filter (!·.isClear) = [] := rfl
    have hreceived : eventChannel.received [Obs.prevKeysCleared] = [] := rfl
    rw [htrace, Ports.inputs_append, List.filter_append, hinputs, List.append_nil,
      Channel.received_append, hreceived, List.append_nil]
    exact h.inOrder

/-- An event is taken from the queue. -/
theorem pop (h : ReplayAt v none) (p : Posted) : ReplayAt v (some (p, hidhSteps p.event)) := by
  constructor
  · intro hon
    have hnone : owed v.kbd.wasPressed (hidhSteps p.event) = [] := by
      rw [owed, emitted_hidhSteps, ite_self]
    exact (congrArg (keyPorts.Follows keyDecoder _ · _) hnone).mpr (h.follows hon)
  · have hbefore := h.inOrder
    simp only [Option.elim_none, Option.map_none, Option.toList_none, List.append_nil] at hbefore
    simp only [Option.elim_some, Option.map_some, Option.toList_some, hbefore, eventInputs,
      List.flatMap_append, List.flatMap_singleton]

/-- The step that was made was not the last one, or it was and nothing is kept. -/
theorem setHandling (h : ReplayAt v (some (p, steps))) (hend : steps = [] → p.decodes = false) :
    KeysReplayed (v.setHandling p steps) := by
  cases steps with
  | cons step steps => exact ⟨h.follows, h.inOrder⟩
  | nil =>
    have hkept : keyPorts.input? (.handled p) = none :=
      congrArg (Option.map KeyInput.remember) (Posted.kept?_of_not_decodes (hend rfl))
    have hquiet : ∀ o ∈ [Obs.handled p], keyPorts.input? o = none ∧ keyPorts.output? o = none := by
      intro o ho
      rw [List.mem_singleton.mp ho]
      exact ⟨hkept, rfl⟩
    have htrace : (v.setHandling p []).trace = [.handled p] ++ v.trace := rfl
    constructor
    · intro hon
      have hfollows := h.follows hon
      simp only [Option.elim_some, owed, emitted, ite_self] at hfollows
      exact hfollows.quiet hquiet
    · have hbefore := h.inOrder
      have hreceived : eventChannel.received [Obs.handled p] = [p] := rfl
      rw [htrace, Ports.inputs_append, Ports.inputs_eq_nil fun o ho => (hquiet o ho).1,
        Channel.received_append, hreceived]
      simpa [View.setHandling, stepInputs] using hbefore

/-- **A key is looked up.** -/
theorem compare {mod code : UInt8} (h : ReplayAt v (some (p, .compare mod code :: steps)))
    (hnext : emitted steps = keyOutput mod code) :
    ReplayAt (v.stepExec (.compare mod code)) (some (p, steps)) := by
  have htrace : (v.stepExec (.compare mod code)).trace = [.compared mod code] ++ v.trace := rfl
  have hinputs : keyPorts.inputs [Obs.compared mod code] = [.key mod code] := rfl
  constructor
  · intro hon
    have hfollows := h.follows hon
    simp only [Option.elim_some, owed, emitted, ite_self] at hfollows
    rw [htrace]
    refine hfollows.append (by rw [hinputs, Transducer.run_singleton]; rfl) ?_
    rw [hinputs, Transducer.run_singleton, keyDecoder_key]
    simp only [Option.elim_some, owed, hnext]
    rfl
  · have hreceived : eventChannel.received [Obs.compared mod code] = [] := rfl
    rw [htrace, Ports.inputs_append, hinputs, Channel.received_append, hreceived]
    simpa [KeyInput.isClear] using h.inOrder

/-- **A character is emitted, or held back.** -/
theorem emit {ch : UInt8} (h : ReplayAt v (some (p, .emit ch :: steps))) (hne : ch ≠ 0) :
    ReplayAt (v.stepExec (.emit ch)) (some (p, steps)) := by
  obtain ⟨l, htrace, hl⟩ : ∃ l, (v.stepExec (.emit ch)).trace = l ++ v.trace ∧
      l = if !v.kbd.wasPressed && v.kbd.cfg.onKey then [.key ch] else [] := by
    refine ⟨_, ?_, rfl⟩
    simp only [View.stepExec]
    split <;> rfl
  have hinputs : keyPorts.inputs l = [] ∧ eventChannel.received l = [] := by
    rw [hl]
    split <;> exact ⟨rfl, rfl⟩
  constructor
  · intro hon
    have hon' : v.kbd.cfg.onKey = true := hon
    rw [htrace]
    refine (h.follows hon').append (by rw [hinputs.1]; rfl) ?_
    have hwas : (v.stepExec (.emit ch)).kbd.wasPressed = v.kbd.wasPressed := rfl
    rw [hinputs.1, hl, hon', hwas]
    cases v.kbd.wasPressed <;> simp [owed, emitted, Ports.outputs, keyPorts, Obs.char?, hne]
  · rw [htrace, Ports.inputs_append, hinputs.1, Channel.received_append, hinputs.2]
    simpa using h.inOrder

/-- **The keys of a report are kept.** -/
theorem remember {keys : KeySlots} {data : List UInt8}
    (h : ReplayAt v (some (p, [.remember keys]))) (hreport : p.report? = some data)
    (hlong : ¬data.length < 3) (hkeys : keys = curKeys data) :
    KeysReplayed ((v.stepExec (.remember keys)).setHandling p []) := by
  have htrace : ((v.stepExec (.remember keys)).setHandling p []).trace = [.handled p] ++ v.trace := rfl
  have hinputs : keyPorts.inputs [Obs.handled p] = [.remember keys] := by
    have hkept : p.kept? = some keys := by
      rw [Posted.kept?, hreport, hkeys]
      exact if_neg hlong
    simp [Ports.inputs, keyPorts, hkept]
  constructor
  · intro hon
    have hfollows := h.follows hon
    simp only [Option.elim_some, owed, emitted, ite_self] at hfollows
    rw [htrace]
    refine hfollows.append (by rw [hinputs, Transducer.run_singleton]; rfl) ?_
    rw [hinputs, Transducer.run_singleton, keyDecoder_remember]
    rfl
  · have hreceived : eventChannel.received [Obs.handled p] = [p] := rfl
    rw [htrace, Ports.inputs_append, hinputs, Channel.received_append, hreceived]
    simpa [KeyInput.isClear, View.setHandling, stepInputs, HidhStep.input?] using h.inOrder

/-- A step that has nothing to do with keys. -/
theorem other {step : HidhStep} (h : ReplayAt v (some (p, step :: steps)))
    (hemit : ∀ ch, step ≠ .emit ch) (hinput : step.input? = none) (hnext : emitted steps = []) :
    ReplayAt (v.stepExec step) (some (p, steps)) := by
  obtain ⟨l, htrace, hl, hkeys, hwas, hcfg⟩ := View.stepExec_other v hemit hinput
  have hnow : ReplayAt v (some (p, steps)) := by
    have hfirst : emitted (step :: steps) = [] := by
      cases step with
      | emit ch => exact absurd rfl (hemit ch)
      | _ => rfl
    have hinputs : stepInputs (step :: steps) = stepInputs steps := by
      rw [stepInputs, List.filterMap_cons, hinput, stepInputs]
    obtain ⟨hfollows, horder⟩ := h
    simp only [Option.elim_some, owed, hfirst, hinputs] at hfollows horder
    refine ⟨?_, horder⟩
    simpa only [Option.elim_some, owed, hnext] using hfollows
  refine hnow.frame htrace (fun o ho => ?_) (fun o ho => ?_) (by rw [hcfg]) hwas hkeys
  · obtain ⟨d, rfl⟩ := hl o ho
    exact ⟨rfl, rfl⟩
  · obtain ⟨d, rfl⟩ := hl o ho
    rfl

theorem noted_key {o : Op} {c : Choice} {ch : UInt8} (h : v.noted o c = some (.key ch)) :
    o = .emitKey ch := by
  cases o with
  | emitKey ch' =>
    simp only [View.noted, Option.ite_none_right_eq_some, Option.some.injEq, Obs.key.injEq] at h
    rw [h.2]
  | receiveCmd _ _ =>
    obtain ⟨cmd, -, hcmd⟩ := Option.map_eq_some_iff.mp h
    cases cmd <;> cases hcmd
  | _ => simp [View.noted] at h

theorem exec {o : Op} {c : Choice} (h : ReplayAt v now) (hat : o.At v.ctl) :
    ReplayAt (v.exec o c) now := by
  have hcfg : (v.exec o c).kbd.cfg.onKey = v.kbd.cfg.onKey := by
    rw [View.exec_cfg]
    split <;> rfl
  have htrace := View.exec_trace o c v
  have hwas := View.exec_wasPressed o c v
  by_cases hclear : o = .clearPrevKeys
  · subst hclear
    exact h.clear htrace hcfg hwas (View.exec_prevKeys _ c v)
  · refine h.frame htrace (fun obs hobs => ?_) (fun obs hobs => ?_) hcfg hwas ?_
    · have hnoted := Option.mem_toList.mp hobs
      have horigin := View.noted_origin hnoted
      cases obs with
      | handled _ | compared _ _ => exact horigin.elim
      | prevKeysCleared => exact absurd horigin hclear
      | key ch =>
        obtain rfl := noted_key hnoted
        obtain ⟨rfl, -⟩ := hat
        exact ⟨rfl, rfl⟩
      | _ => exact ⟨rfl, rfl⟩
    · have horigin := View.noted_origin (Option.mem_toList.mp hobs)
      cases obs with
      | handled _ => exact horigin.elim
      | _ => rfl
    · rw [View.exec_prevKeys]
      cases o with
      | clearPrevKeys => exact absurd rfl hclear
      | _ => rfl

/-- **A step of the event task.** -/
theorem dispatch (h : KeysReplayed v) (hlog : EventLog v) (hbusy : Busy v)
    (heff : View.Effect .dispatch v v') : KeysReplayed v' := by
  cases heff with
  | quiet _ hinner => cases hinner
  | settled _ p hsome => exact absurd hsome (hbusy p)
  | popped _ p ps hnone hitems =>
    rw [KeysReplayed, hnone] at h
    have hpop := h.pop p
    exact ReplayAt.setHandling ⟨hpop.follows, hpop.inOrder⟩ decodes_of_nil
  | stepped _ p step steps hsome =>
    rw [KeysReplayed, hsome] at h
    have hsuffix := hlog.steps p _ hsome
    have hlast : steps = [] → (∀ keys, step ≠ .remember keys) → p.decodes = false := by
      rintro rfl hstep
      exact decodes_of_last hsuffix hstep
    cases step with
    | compare mod code =>
      exact (h.compare (emitted_of_compare hsuffix)).setHandling fun hnil => hlast hnil nofun
    | emit ch =>
      exact (h.emit (ne_nul_of_emit (hsuffix.subset List.mem_cons_self))).setHandling
        fun hnil => hlast hnil nofun
    | remember keys =>
      obtain ⟨rfl, data, hreport, hlong, hkeys⟩ := remember_of_suffix hsuffix
      exact h.remember hreport hlong hkeys
    | _ =>
      exact (h.other nofun rfl (emitted_of_other hsuffix nofun rfl)).setHandling
        fun hnil => hlast hnil nofun

theorem effect {e : Event} (h : KeysReplayed v) (hlog : EventLog v) (hbusy : Busy v)
    (heff : View.Effect e v v') : KeysReplayed v' := by
  by_cases he : e = .dispatch
  · subst he
    exact dispatch h hlog hbusy heff
  · obtain ⟨l, htrace, hby⟩ := heff.records
    obtain ⟨_, _, hlogs, -⟩ := heff.logs he
    rw [KeysReplayed, hlogs.handling]
    refine ReplayAt.frame h htrace (fun obs hobs => ?_) (fun obs hobs => ?_) (by rw [heff.cfg])
      (heff.wasPressed he) (heff.prevKeys he)
    · have hrec := hby obs hobs
      cases obs with
      | handled _ | key _ | compared _ _ => exact absurd hrec he
      | prevKeysCleared => exact hrec.elim
      | _ => exact ⟨rfl, rfl⟩
    · have hrec := hby obs hobs
      cases obs with
      | handled _ => exact absurd hrec he
      | _ => rfl

end ReplayAt

/-! ## Every run -/

section Runs

variable {g : Guard Op Choice Sys Event} {cfg : KbdConfig} {bonds : List (Bda × UInt8)}
variable {c : HostConfig}

/-- **The calls of `on_key` are those of one sequential decoder**, which reads the keys of the
events in the order in which they are handled. -/
theorem keysReplayed (h : Reach host g (boot cfg bonds) c) : KeysReplayed c.state.view := by
  refine reach_keeps_of_known (J := fun s => EventLog s.view ∧ Busy s.view)
    (I := fun s => KeysReplayed s.view) h (fun _ hreach => ⟨eventLog hreach, busy hreach⟩)
    ⟨fun _ => .nil, rfl⟩ ?_ ?_
  · intro o ch s hlog hinv _ hready _ hat
    have hlogs := View.exec_logs o ch s.view fun kind d ho => by
      subst ho
      exact hready
    rw [exec_view, KeysReplayed, hlogs.handling]
    exact ReplayAt.exec hinv hat
  · exact fun e s s' hlog hinv _ _ hstep =>
      ReplayAt.effect hinv hlog.1 hlog.2 (eventStep_view hstep)

/-- Two keys are held, the report comes again, and `s_prev_keys` is cleared when the first of them
was looked up: the second one is emitted again. -/
theorem keysReplayed_held : ∃ c, Reach host .free (boot {} []) c ∧
    keyPorts.outputs c.state.trace = [97, 98, 98] ∧ KeysReplayed c.state.view := by
  let run := scanRun 7 ++ selectRun ++ linkRun 7 ++ keyboardRun [1] ++
    notifyRun [0, 0, 4, 5, 0, 0, 0, 0] ++ [.env (.notifyRx 5 5 [0, 0, 4, 5, 0, 0, 0, 0])] ++
    List.replicate 2 (.env .dispatch) ++ mains 4 ++ List.replicate 4 (.env .dispatch)
  obtain ⟨c, hrun, hstate⟩ := exists_run .free run (boot {} []) (fun c =>
    keyPorts.outputs c.state.trace == [97, 98, 98]) (by decide +kernel)
  have hreach : Reach host .free (boot {} []) c := .of_run hrun
  exact ⟨c, hreach, by simpa using hstate, keysReplayed hreach⟩

end Runs

end BleKbdHost.Host
