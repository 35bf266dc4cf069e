import BleKbdHost.Conc.Transducer
import BleKbdHost.Host.EventLog

/-!
# Key by key

The main task may clear `s_prev_keys` between any two keys of a report. What is emitted then is said
by a decoder that reads one key at a time; on the keys of a report, with nothing in between, it does
what `translate_report` does.
-/

namespace BleKbdHost.Host

open Hid Keys Conc

/-- What the decoder reads. -/
inductive KeyInput where
  /-- A key is looked for in `s_prev_keys`. -/
  | key (mod code : UInt8)
  /-- The keys of a report are copied there. -/
  | remember (keys : KeySlots)
  /-- `s_prev_keys` is cleared. -/
  | clear

/-- The state is `s_prev_keys`. -/
def keyDecoder : Transducer KeySlots KeyInput UInt8 where
  start := .cleared
  step prev
    | .key mod code => (prev, if prev.keys.contains code then [] else keyOutput mod code)
    | .remember keys => (keys, [])
    | .clear => (.cleared, [])

@[simp] theorem keyDecoder_key (prev : KeySlots) (mod code : UInt8) :
    keyDecoder.step prev (.key mod code) =
      (prev, if prev.keys.contains code then [] else keyOutput mod code) := rfl

@[simp] theorem keyDecoder_remember (prev keys : KeySlots) :
    keyDecoder.step prev (.remember keys) = (keys, []) := rfl

def HidhStep.input? : HidhStep → Option KeyInput
  | .compare mod code => some (.key mod code)
  | .remember keys => some (.remember keys)
  | _ => none

/-- What the decoder reads while the steps are made. -/
def stepInputs (steps : List HidhStep) : List KeyInput := steps.filterMap HidhStep.input?

@[simp] theorem stepInputs_compare (mod code : UInt8) (steps : List HidhStep) :
    stepInputs (.compare mod code :: steps) = .key mod code :: stepInputs steps := rfl

@[simp] theorem stepInputs_emit (ch : UInt8) (steps : List HidhStep) :
    stepInputs (.emit ch :: steps) = stepInputs steps := rfl

/-- The characters that are emitted before anything else is done. -/
def emitted : List HidhStep → List UInt8
  | .emit ch :: steps => ch :: emitted steps
  | _ => []

/-- What is still to be emitted for the key under way, unless it was found. -/
def owed (found : Bool) (steps : List HidhStep) : List UInt8 := if found then [] else emitted steps

/-- The keyboard report that an event brings. -/
def Posted.report? (p : Posted) : Option (List UInt8) :=
  match p.event with
  | .input _ _ _ usage data => if usage = .keyboard then some data else none
  | _ => none

/-- The report is long enough to be translated. -/
def Posted.decodes (p : Posted) : Bool := p.report?.any fun data => !decide (data.length < 3)

/-- What the event emits where the keys are looked for in `prev`. -/
def Posted.output (p : Posted) (prev : KeySlots) : List UInt8 :=
  match p.report? with
  | some data => (translateReport prev data).2
  | none => []

/-! ## Reports -/

theorem run_keys (prev : KeySlots) (mod : UInt8) (codes : List UInt8) :
    keyDecoder.run prev (codes.map (.key mod)) =
      (prev, (codes.filter (· ∉ prev.keys)).flatMap (keyOutput mod)) := by
  induction codes with
  | nil => rfl
  | cons code codes ih =>
    rw [List.map_cons, Transducer.run, keyDecoder_key, ih]
    by_cases hfound : code ∈ prev.keys
    · simp [hfound]
    · simp [hfound]

theorem stepInputs_translateSteps {data : List UInt8} (hlong : ¬data.length < 3) :
    stepInputs (translateSteps data) =
      ((curKeys data).keys.filter (· != 0)).map (.key (data.getD 0 0)) ++
        [.remember (curKeys data)] := by
  unfold translateSteps stepInputs
  rw [if_neg hlong, List.filterMap_append]
  congr 1
  induction (curKeys data).keys.filter (· != 0) with
  | nil => rfl
  | cons code codes ih =>
    rw [List.flatMap_cons, List.filterMap_append, ih, List.map_cons, List.filterMap_cons]
    simp [HidhStep.input?]

/-- **The keys of a report, one after the other, are the report.** -/
theorem run_translateSteps (prev : KeySlots) (data : List UInt8) :
    keyDecoder.run prev (stepInputs (translateSteps data)) = translateReport prev data := by
  by_cases hshort : data.length < 3
  · rw [translateReport_of_short hshort, translateSteps, if_pos hshort]
    rfl
  · have hpressed : ((curKeys data).keys.filter (· != 0)).filter (· ∉ prev.keys) =
        pressed prev.keys (curKeys data).keys := by
      rw [List.filter_filter, pressed]
      apply List.filter_congr
      intro code _
      by_cases hzero : code = 0 <;> simp [hzero]
    rw [stepInputs_translateSteps hshort, Transducer.run_append, run_keys, hpressed,
      translateReport, if_neg hshort, Transducer.run_singleton, keyDecoder_remember,
      List.append_nil]

namespace Posted

variable {p : Posted} {data : List UInt8}

theorem hidhSteps_of_report (h : p.report? = some data) :
    hidhSteps p.event = translateSteps data := by
  unfold report? at h
  cases hevent : p.event with
  | input d mapIndex reportId usage data' =>
    simp only [hevent, Option.ite_none_right_eq_some, Option.some.injEq] at h
    obtain ⟨husage, rfl⟩ := h
    exact if_pos husage
  | _ =>
    rw [hevent] at h
    cases h

/-- Nothing is looked up for an event that brings no report. -/
theorem stepInputs_of_no_report (h : p.report? = none) : stepInputs (hidhSteps p.event) = [] := by
  unfold report? at h
  cases hevent : p.event with
  | input d mapIndex reportId usage data =>
    simp only [hevent, ite_eq_right_iff, reduceCtorEq, imp_false] at h
    rw [hidhSteps, if_neg h]
    rfl
  | «open» d rc =>
    rw [hidhSteps]
    split <;> rfl
  | _ => rfl

/-- What an event emits is what the decoder puts out on its steps. -/
theorem output_eq (p : Posted) (prev : KeySlots) :
    p.output prev = (keyDecoder.run prev (stepInputs (hidhSteps p.event))).2 := by
  unfold output
  cases hreport : p.report? with
  | none => rw [stepInputs_of_no_report hreport]; rfl
  | some data => rw [hidhSteps_of_report hreport, run_translateSteps]

end Posted

/-! ## What is left of a report -/

section

variable {mod mod' code : UInt8} {keys : KeySlots} {steps : List HidhStep} {p : Posted}

/-- The steps for one key. -/
def keySteps (mod code : UInt8) : List HidhStep :=
  .compare mod code :: (keyOutput mod code).map .emit

theorem emitted_map_emit {cs : List UInt8} (h : emitted steps = []) :
    emitted (cs.map .emit ++ steps) = cs := by
  induction cs with
  | nil => exact h
  | cons c cs ih => exact congrArg (c :: ·) ih

/-- What begins with a step that is not among the first ones comes after them. -/
theorem suffix_of_head_notMem {step : HidhStep} {first rest : List HidhStep}
    (h : step :: steps <:+ first ++ rest) (hstep : step ∉ first) : step :: steps <:+ rest := by
  induction first with
  | nil => exact h
  | cons next first ih =>
    rcases List.suffix_cons_iff.mp h with heq | h
    · cases heq
      exact absurd List.mem_cons_self hstep
    · exact ih h fun hmem => hstep (List.mem_cons_of_mem next hmem)

/-- The first step is no character. -/
theorem emitted_hidhSteps (e : HidhEvent) : emitted (hidhSteps e) = [] := by
  cases e with
  | input d mapIndex reportId usage data =>
    rw [hidhSteps]
    split
    · rw [translateSteps]
      split
      · rfl
      · cases (curKeys data).keys.filter (· != 0) <;> rfl
    · rfl
  | «open» d rc =>
    rw [hidhSteps]
    split <;> rfl
  | _ => rfl

/-- Once a key was looked for, its characters come next. -/
theorem emitted_of_suffix {codes : List UInt8}
    (h : .compare mod' code :: steps <:+ codes.flatMap (keySteps mod) ++ [.remember keys]) :
    emitted steps = keyOutput mod' code := by
  induction codes with
  | nil =>
    rcases List.suffix_cons_iff.mp h with heq | h
    · cases heq
    · cases List.suffix_nil.mp h
  | cons c codes ih =>
    have hnext : emitted (codes.flatMap (keySteps mod) ++ [.remember keys]) = [] := by
      cases codes <;> rfl
    rw [List.flatMap_cons, keySteps, List.cons_append, List.cons_append, List.append_assoc] at h
    rcases List.suffix_cons_iff.mp h with heq | h
    · cases heq
      exact emitted_map_emit hnext
    · exact ih (suffix_of_head_notMem h (by simp))

/-- A step that looks a key up, emits a character or keeps the keys is one for a report. -/
theorem report_of_step {step : HidhStep} (h : step ∈ hidhSteps p.event)
    (hstep : (∃ ch, step = .emit ch) ∨ step.input?.isSome = true) :
    ∃ data, p.report? = some data ∧ ¬data.length < 3 ∧ hidhSteps p.event = translateSteps data := by
  cases hreport : p.report? with
  | none =>
    unfold Posted.report? at hreport
    cases hevent : p.event with
    | input d mapIndex reportId usage data =>
      rw [hevent] at h
      simp only [hevent, ite_eq_right_iff, reduceCtorEq, imp_false] at hreport
      rw [hidhSteps, if_neg hreport] at h
      cases h
    | «open» d rc =>
      rw [hevent, hidhSteps] at h
      split at h <;> simp only [List.mem_cons, List.not_mem_nil, or_false] at h
      · obtain rfl | rfl | rfl := h <;> simp [HidhStep.input?] at hstep
      · obtain rfl | rfl := h <;> simp [HidhStep.input?] at hstep
    | close d reason =>
      rw [hevent, hidhSteps] at h
      simp only [List.mem_cons, List.not_mem_nil, or_false] at h
      obtain rfl | rfl := h <;> simp [HidhStep.input?] at hstep
    | feature _ _ _ _ _ | battery _ _ =>
      rw [hevent] at h
      cases h
  | some data =>
    have hsteps := Posted.hidhSteps_of_report hreport
    refine ⟨data, rfl, fun hshort => ?_, hsteps⟩
    rw [hsteps, translateSteps, if_pos hshort] at h
    cases h

theorem emitted_of_compare (h : .compare mod code :: steps <:+ hidhSteps p.event) :
    emitted steps = keyOutput mod code := by
  obtain ⟨data, -, hlong, hall⟩ := report_of_step (h.subset List.mem_cons_self) (.inr rfl)
  rw [hall, translateSteps, if_neg hlong] at h
  exact emitted_of_suffix h

/-- The keys are kept as the last step of a report that is long enough. -/
theorem remember_of_suffix (h : .remember keys :: steps <:+ hidhSteps p.event) :
    steps = [] ∧ ∃ data, p.report? = some data ∧ ¬data.length < 3 ∧ keys = curKeys data := by
  obtain ⟨data, hreport, hlong, hall⟩ := report_of_step (h.subset List.mem_cons_self) (.inr rfl)
  rw [hall, translateSteps, if_neg hlong] at h
  rcases List.suffix_cons_iff.mp (suffix_of_head_notMem h (by simp)) with heq | h
  · cases heq
    exact ⟨rfl, data, hreport, hlong, rfl⟩
  · cases List.suffix_nil.mp h

/-- The characters of a report are none of them NUL. -/
theorem ne_nul_of_emit {ch : UInt8} (h : .emit ch ∈ hidhSteps p.event) : ch ≠ 0 := by
  obtain ⟨data, -, hlong, hall⟩ := report_of_step h (.inl ⟨ch, rfl⟩)
  rw [hall, translateSteps, if_neg hlong] at h
  simp only [List.mem_append, List.mem_flatMap, List.mem_cons, List.mem_map, reduceCtorEq,
    HidhStep.emit.injEq, exists_eq_right, false_or, List.not_mem_nil, or_false] at h
  obtain ⟨code, -, hch⟩ := h
  rintro rfl
  exact nul_not_mem_keyOutput _ code hch

/-- Beside the steps for a report there are no characters. -/
theorem emitted_of_other {step : HidhStep} (h : step :: steps <:+ hidhSteps p.event)
    (hemit : ∀ ch, step ≠ .emit ch) (hinput : step.input? = none) : emitted steps = [] := by
  cases steps with
  | nil => rfl
  | cons next rest =>
    cases next with
    | emit ch =>
      have hnext : .emit ch ∈ hidhSteps p.event := h.subset (by simp)
      obtain ⟨data, -, -, hall⟩ := report_of_step hnext (.inl ⟨ch, rfl⟩)
      have hmem := h.subset List.mem_cons_self
      rw [hall] at hmem
      obtain ⟨mod, code, rfl⟩ | ⟨ch, rfl⟩ | rfl := mem_translateSteps hmem
      · cases hinput
      · exact absurd rfl (hemit ch)
      · cases hinput
    | _ => rfl

/-- A report that is long enough ends with the step that keeps its keys. -/
theorem ends_of_decodes (h : p.decodes = true) :
    ∃ first keys, hidhSteps p.event = first ++ [.remember keys] := by
  obtain ⟨data, hreport, hlong⟩ := (Option.any_eq_true _ _).mp h
  rw [Posted.hidhSteps_of_report hreport, translateSteps, if_neg (by simpa using hlong)]
  exact ⟨_, _, rfl⟩

theorem decodes_of_nil (h : hidhSteps p.event = []) : p.decodes = false := by
  by_contra hnot
  obtain ⟨first, keys, hends⟩ := ends_of_decodes (eq_true_of_ne_false hnot)
  rw [h] at hends
  cases (List.append_eq_nil_iff.mp hends.symm).2

theorem decodes_of_last {step : HidhStep} (h : [step] <:+ hidhSteps p.event)
    (hstep : ∀ keys, step ≠ .remember keys) : p.decodes = false := by
  by_contra hnot
  obtain ⟨first, keys, hends⟩ := ends_of_decodes (eq_true_of_ne_false hnot)
  obtain ⟨before, heq⟩ := h
  rw [hends] at heq
  cases (List.append_inj' heq rfl).2
  exact hstep keys rfl

end

/-! ## The event under way -/

/-- The event task has something left to do for the event that it handles. -/
def Busy (v : View) : Prop := ∀ p, v.handling ≠ some (p, [])

theorem Busy.setHandling (v : View) (p : Posted) (steps : List HidhStep) :
    Busy (v.setHandling p steps) := by
  intro q h
  cases steps <;> cases h

theorem busy {g : Guard Op Choice Sys Event} {cfg : KbdConfig} {bonds : List (Bda × UInt8)}
    {c : HostConfig} (h : Reach host g (boot cfg bonds) c) : Busy c.state.view := by
  refine reach_keeps (I := fun s => Busy s.view) h (fun _ hboot => (by cases hboot)) ?_ ?_
  · intro o ch s hinv _ hready _ _
    have hlogs := View.exec_logs o ch s.view fun kind d ho => by
      subst ho
      exact hready
    rw [exec_view, Busy, hlogs.handling]
    exact hinv
  · intro e s s' hinv _ _ hstep
    have heff := eventStep_view hstep
    by_cases he : e = .dispatch
    · subst he
      generalize s'.view = v' at heff
      cases heff with
      | quiet _ hinner => cases hinner
      | popped _ p _ _ _ | stepped _ p _ _ _ | settled _ p _ => exact .setHandling _ p _
    · obtain ⟨l, event?, hlogs, -, -⟩ := heff.logs he
      rw [Busy, hlogs.handling]
      exact hinv

/-! ## The decoder's state -/

namespace View

/-- Only clearing them and translating a report change `s_prev_keys`. -/
theorem exec_prevKeys (o : Op) (c : Choice) (v : View) :
    (v.exec o c).kbd.prevKeys =
      match o with
      | .clearPrevKeys => .cleared
      | _ => v.kbd.prevKeys := by
  cases o with
  | awaitDisconnect _ _ | peekCmd _ | emitKey _ | devMalloc _ _ | reconnectReturns _ =>
    simp only [View.exec]
    split <;> rfl
  | gapConnect kind d =>
    simp only [View.exec]
    split
    · rfl
    · split <;> rfl
  | readConnId kind d =>
    simp only [View.exec]
    split <;> rfl
  | _ => rfl

theorem exec_wasPressed (o : Op) (c : Choice) (v : View) :
    (v.exec o c).kbd.wasPressed = v.kbd.wasPressed := by
  cases o with
  | awaitDisconnect _ _ | peekCmd _ | emitKey _ | devMalloc _ _ | reconnectReturns _ =>
    simp only [View.exec]
    split <;> rfl
  | gapConnect kind d =>
    simp only [View.exec]
    split
    · rfl
    · split <;> rfl
  | readConnId kind d =>
    simp only [View.exec]
    split <;> rfl
  | _ => rfl

/-- A step that has nothing to do with keys. -/
theorem stepExec_other (v : View) {step : HidhStep} (hemit : ∀ ch, step ≠ .emit ch)
    (hinput : step.input? = none) : ∃ l, (v.stepExec step).trace = l ++ v.trace ∧
      (∀ o ∈ l, ∃ d, o = .deviceFreed d) ∧ (v.stepExec step).kbd.prevKeys = v.kbd.prevKeys ∧
      (v.stepExec step).kbd.wasPressed = v.kbd.wasPressed ∧
      (v.stepExec step).kbd.cfg = v.kbd.cfg := by
  cases step with
  | emit ch => exact absurd rfl (hemit ch)
  | compare _ _ | remember _ => cases hinput
  | free d =>
    refine ⟨if (v.key? d).isSome then [.deviceFreed d] else [], ?_, fun o ho => ?_, rfl, rfl, rfl⟩
    · simp only [stepExec, free]
      split <;> rfl
    · split at ho
      · exact ⟨d, List.mem_singleton.mp ho⟩
      · cases ho
  | _ => exact ⟨[], rfl, by simp, rfl, rfl, rfl⟩

variable {v v' : View} {e : Event}

/-- Only the event task translates reports. -/
theorem Effect.prevKeys (heff : Effect e v v') (he : e ≠ .dispatch) :
    v'.kbd.prevKeys = v.kbd.prevKeys := by
  cases heff with
  | disconnected _ link reason hfind hroom => rw [linkDown_kbd]
  | popped | stepped | settled => exact absurd rfl he
  | _ => rfl

theorem Effect.wasPressed (heff : Effect e v v') (he : e ≠ .dispatch) :
    v'.kbd.wasPressed = v.kbd.wasPressed := by
  cases heff with
  | disconnected _ link reason hfind hroom => rw [linkDown_kbd]
  | popped | stepped | settled => exact absurd rfl he
  | _ => rfl

end View

end BleKbdHost.Host
