/-!
# Transducers

A trace, newest first, in which some happenings are inputs and some are outputs. It follows a
transducer if its outputs, with those that are still to come, are what the transducer puts out on
its inputs, each input before those that come after it.
-/

namespace Conc

/-- Reads inputs `ι` in states `σ`, and puts out any number of outputs `ω` for each. -/
structure Transducer (σ ι ω : Type) where
  start : σ
  step : σ → ι → σ × List ω

namespace Transducer

variable {σ ι ω α : Type} (T : Transducer σ ι ω)

/-- The state after some inputs, and what is put out on them. -/
def run (st : σ) : List ι → σ × List ω
  | [] => (st, [])
  | i :: is => ((run (T.step st i).1 is).1, (T.step st i).2 ++ (run (T.step st i).1 is).2)

@[simp] theorem run_nil (st : σ) : T.run st [] = (st, []) := rfl

@[simp] theorem run_singleton (st : σ) (i : ι) : T.run st [i] = T.step st i := by
  rw [run, run_nil, List.append_nil]

theorem run_append (is is' : List ι) (st : σ) : T.run st (is ++ is') =
    ((T.run (T.run st is).1 is').1, (T.run st is).2 ++ (T.run (T.run st is).1 is').2) := by
  induction is generalizing st with
  | nil => rfl
  | cons i is ih => simp only [List.cons_append, run, ih, List.append_assoc]

end Transducer

/-- Which happenings are inputs, and which are outputs. -/
structure Ports (α ι ω : Type) where
  input? : α → Option ι
  output? : α → Option ω

namespace Ports

variable {σ ι ω α : Type} (P : Ports α ι ω) {T : Transducer σ ι ω} {st st' : σ} {l trace : List α}
variable {late late' : List ω}

/-- The inputs, oldest first. -/
def inputs (trace : List α) : List ι := (trace.filterMap P.input?).reverse

/-- The outputs, oldest first. -/
def outputs (trace : List α) : List ω := (trace.filterMap P.output?).reverse

/-- The trace follows the transducer, and takes it to `st`; the outputs `late` are still to come. -/
def Follows (T : Transducer σ ι ω) (st : σ) (late : List ω) (trace : List α) : Prop :=
  T.run T.start (P.inputs trace) = (st, P.outputs trace ++ late)

variable {P}

theorem inputs_append (l trace : List α) : P.inputs (l ++ trace) = P.inputs trace ++ P.inputs l := by
  rw [inputs, List.filterMap_append, List.reverse_append, inputs, inputs]

theorem outputs_append (l trace : List α) :
    P.outputs (l ++ trace) = P.outputs trace ++ P.outputs l := by
  rw [outputs, List.filterMap_append, List.reverse_append, outputs, outputs]

theorem inputs_eq_nil (h : ∀ a ∈ l, P.input? a = none) : P.inputs l = [] := by
  rw [inputs, List.filterMap_eq_nil_iff.mpr h]
  rfl

theorem outputs_eq_nil (h : ∀ a ∈ l, P.output? a = none) : P.outputs l = [] := by
  rw [outputs, List.filterMap_eq_nil_iff.mpr h]
  rfl

namespace Follows

theorem nil : P.Follows T T.start [] [] := rfl

/-- **Step rule.** The transducer does what the step does. -/
theorem append (h : P.Follows T st late trace) (hstate : (T.run st (P.inputs l)).1 = st')
    (hout : late ++ (T.run st (P.inputs l)).2 = P.outputs l ++ late') :
    P.Follows T st' late' (l ++ trace) := by
  rw [Follows, inputs_append, outputs_append, Transducer.run_append, h, hstate]
  simp only [List.append_assoc, hout]

/-- A step without inputs and outputs. -/
theorem quiet (h : P.Follows T st late trace)
    (hl : ∀ a ∈ l, P.input? a = none ∧ P.output? a = none) : P.Follows T st late (l ++ trace) := by
  have hin : P.inputs l = [] := inputs_eq_nil fun a ha => (hl a ha).1
  refine h.append (by rw [hin]; rfl) ?_
  rw [hin, outputs_eq_nil fun a ha => (hl a ha).2]
  exact List.append_nil late

end Follows

end Ports

end Conc
