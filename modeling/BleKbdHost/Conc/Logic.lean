import Mathlib.Logic.Relation
import BleKbdHost.Conc.Task

/-!
# Reasoning about a task under interference

`wp pre Q t s`: started in `s` with the environment interfering, every operation that `t` comes to
finds a state satisfying `pre`, and a result it returns satisfies `Q`. States that are not live
carry no obligation. `Triple` is the usual packaging; its rules ask for assertions that the
environment preserves.
-/

namespace Conc

section

variable {O C S E L α β : Type} (M : System O C S E L) (g : Guard O C S E)

/-- One admitted environment step. -/
def EnvStep (s s' : S) : Prop := ∃ e, M.live s = true ∧ g.env e s = true ∧ M.env e s = some s'

/-- Any number of them. -/
def Interfere : S → S → Prop := Relation.ReflTransGen (EnvStep M g)

/-- The environment preserves `A`. -/
def Stable (A : S → Prop) : Prop := ∀ s s', EnvStep M g s s' → A s → A s'

variable (pre : O → S → Prop)

def wp (Q : α → S → Prop) : Task O C S α → S → Prop
  | .ret a, s => ∀ s', Interfere M g s s' → M.live s' = true → Q a s'
  | .op o k, s => ∀ s', Interfere M g s s' → M.live s' = true →
    pre o s' ∧ (M.ready o s' = true → ∀ c, g.main o c s' = true →
      wp Q (k c s') (M.exec o c s'))

/-- From a live state in `A`, the task meets `pre` at each operation and ends in `Q`. -/
def Triple (A : S → Prop) (t : Task O C S α) (Q : α → S → Prop) : Prop :=
  ∀ s, A s → M.live s = true → wp M g pre Q t s

variable {M g pre}

theorem Stable.interfere {A : S → Prop} (hA : Stable M g A) {s s' : S} (h : Interfere M g s s')
    (hs : A s) : A s' := by
  induction h with
  | refl => exact hs
  | tail _ hstep ih => exact hA _ _ hstep ih

theorem Stable.and {A B : S → Prop} (hA : Stable M g A) (hB : Stable M g B) :
    Stable M g fun s => A s ∧ B s :=
  fun s s' hstep h => ⟨hA s s' hstep h.1, hB s s' hstep h.2⟩

theorem Stable.const (p : Prop) : Stable M g fun _ => p := fun _ _ _ h => h

theorem Stable.exists {ι : Type} {A : ι → S → Prop} (h : ∀ i, Stable M g (A i)) :
    Stable M g fun s => ∃ i, A i s :=
  fun s s' hstep ⟨i, hi⟩ => ⟨i, h i s s' hstep hi⟩

/-! ## Weakest preconditions -/

/-- Nothing happens in a state that is not live. -/
theorem Interfere.eq_of_dead {s s' : S} (hdead : M.live s = false) (h : Interfere M g s s') :
    s' = s := by
  induction h with
  | refl => rfl
  | tail _ hstep ih =>
    obtain ⟨e, hlive, -, -⟩ := hstep
    rw [ih, hdead] at hlive
    cases hlive

theorem wp_of_dead {s : S} (hdead : M.live s = false) {Q : α → S → Prop} (t : Task O C S α) :
    wp M g pre Q t s := by
  cases t <;>
  · intro s' h hlive
    rw [h.eq_of_dead hdead, hdead] at hlive
    cases hlive

/-- More of the environment is admitted. -/
theorem Interfere.mono {g' : Guard O C S E} (henv : ∀ e s, g.env e s = true → g'.env e s = true)
    {s s' : S} (h : Interfere M g s s') : Interfere M g' s s' := by
  induction h with
  | refl => exact .refl
  | tail _ hstep ih =>
    obtain ⟨e, hlive, hadm, hnext⟩ := hstep
    exact ih.tail ⟨e, hlive, henv e _ hadm, hnext⟩

/-- A task's obligations cover interference before its first operation. -/
theorem wp.interfere {Q : α → S → Prop} {t : Task O C S α} {s s' : S}
    (h : wp M g pre Q t s) (hs : Interfere M g s s') : wp M g pre Q t s' := by
  cases t <;> exact fun s'' h'' => h s'' (hs.trans h'')

theorem wp_bind {Q : β → S → Prop} {f : α → Task O C S β} : ∀ {t : Task O C S α} {s : S},
    wp M g pre (fun a s => wp M g pre Q (f a) s) t s → wp M g pre Q (t.bind f) s := by
  intro t
  induction t with
  | ret a =>
    intro s h
    cases hlive : M.live s with
    | false => exact wp_of_dead hlive _
    | true => exact h s .refl hlive
  | op o k ih =>
    intro s h s' hs hlive
    obtain ⟨hpre, hnext⟩ := h s' hs hlive
    exact ⟨hpre, fun hready c hc => ih c s' (hnext hready c hc)⟩

theorem wp.mono {Q Q' : α → S → Prop} (hQ : ∀ a s, Q a s → Q' a s) :
    ∀ {t : Task O C S α} {s : S}, wp M g pre Q t s → wp M g pre Q' t s := by
  intro t
  induction t with
  | ret a => exact fun h s' hs hlive => hQ a s' (h s' hs hlive)
  | op o k ih =>
    intro s h s' hs hlive
    obtain ⟨hpre, hnext⟩ := h s' hs hlive
    exact ⟨hpre, fun hready c hc => ih c s' (hnext hready c hc)⟩

/-! ## Rules -/

namespace Triple

variable {A A' : S → Prop} {Q Q' : α → S → Prop}

theorem wp {t : Task O C S α} (h : Triple M g pre A t Q) {s : S} (hs : A s) :
    Conc.wp M g pre Q t s := by
  cases hlive : M.live s with
  | false => exact wp_of_dead hlive _
  | true => exact h s hs hlive

theorem ret {a : α} (hA : Stable M g A) (h : ∀ s, A s → Q a s) :
    Triple M g pre A (.ret a) Q :=
  fun _ hs _ _ hrun _ => h _ (hA.interfere hrun hs)

/-- An operation: its precondition, and the rest of the task from the state it leaves. -/
theorem op {o : O} {k : C → S → Task O C S α} (hA : Stable M g A)
    (hpre : ∀ s, A s → M.live s = true → pre o s)
    (hexec : ∀ c s, A s → M.live s = true → M.ready o s = true → g.main o c s = true →
      Conc.wp M g pre Q (k c s) (M.exec o c s)) : Triple M g pre A (.op o k) Q := by
  intro s hs _ s' hrun hlive
  have hs' := hA.interfere hrun hs
  exact ⟨hpre s' hs' hlive, fun hready c hc => hexec c s' hs' hlive hready hc⟩

theorem ask {o : O} {r : C → S → α} (hA : Stable M g A) (hQ : ∀ a, Stable M g (Q a))
    (hpre : ∀ s, A s → M.live s = true → pre o s)
    (hexec : ∀ c s, A s → M.live s = true → M.ready o s = true → g.main o c s = true →
      Q (r c s) (M.exec o c s)) : Triple M g pre A (.ask o r) Q :=
  op hA hpre fun c s hs hlive hready hc _ hrun _ =>
    (hQ _).interfere hrun (hexec c s hs hlive hready hc)

theorem perform {o : O} {B : S → Prop} (hA : Stable M g A) (hB : Stable M g B)
    (hpre : ∀ s, A s → M.live s = true → pre o s)
    (hexec : ∀ c s, A s → M.live s = true → M.ready o s = true → g.main o c s = true →
      B (M.exec o c s)) : Triple M g pre A (.perform o) fun _ => B :=
  ask hA (fun _ => hB) hpre hexec

theorem bind {t : Task O C S α} {f : α → Task O C S β} {B : α → S → Prop} {Q : β → S → Prop}
    (ht : Triple M g pre A t B) (hf : ∀ a, Triple M g pre (B a) (f a) Q) :
    Triple M g pre A (t.bind f) Q :=
  fun _ hs hlive => wp_bind ((ht _ hs hlive).mono fun a _ ha => (hf a).wp ha)

theorem conseq {t : Task O C S α} (h : Triple M g pre A' t Q') (hA : ∀ s, A s → A' s)
    (hQ : ∀ a s, Q' a s → Q a s) : Triple M g pre A t Q :=
  fun s hs hlive => (h s (hA s hs) hlive).mono hQ

theorem strengthen {t : Task O C S α} (h : Triple M g pre A' t Q) (hA : ∀ s, A s → A' s) :
    Triple M g pre A t Q :=
  h.conseq hA fun _ _ => id

theorem weaken {t : Task O C S α} (h : Triple M g pre A t Q') (hQ : ∀ a s, Q' a s → Q a s) :
    Triple M g pre A t Q :=
  h.conseq (fun _ => id) hQ

/-- An assumption that does not speak about the state. -/
theorem pure {p : Prop} {t : Task O C S α} (h : p → Triple M g pre A t Q) :
    Triple M g pre (fun s => p ∧ A s) t Q :=
  fun s hs hlive => h hs.1 s hs.2 hlive

theorem of_exists {ι : Type} {B : ι → S → Prop} {t : Task O C S α}
    (h : ∀ i, Triple M g pre (B i) t Q) : Triple M g pre (fun s => ∃ i, B i s) t Q :=
  fun s ⟨i, hi⟩ hlive => h i s hi hlive

theorem ite {p : Prop} [Decidable p] {t u : Task O C S α}
    (ht : p → Triple M g pre A t Q) (hu : ¬p → Triple M g pre A u Q) :
    Triple M g pre A (if p then t else u) Q := by
  split
  · exact ht ‹_›
  · exact hu ‹_›

end Triple

/-! ## Soundness -/

/-- **Runs of a program whose blocks are proved.** If each block, started in the invariant of its
label, returns the invariant of the next label, then wherever a run stands the rest of the current
block still meets its obligations. -/
theorem Reach.wp {c₀ : Config O C S L} {I : L → S → Prop}
    (hstart : Conc.wp M g pre I c₀.task c₀.state)
    (hprog : ∀ l, Triple M g pre (I l) (M.prog l) I) {c : Config O C S L}
    (h : Reach M g c₀ c) : Conc.wp M g pre I c.task c.state := by
  induction h with
  | start => exact hstart
  | @step m c c' _ hadm hstep ih =>
    rcases m with ch | e
    · rcases System.step_main_cases hstep with ⟨l, htask, hlive, rfl⟩ | ⟨o, k, htask, hlive, hready, rfl⟩
      · rw [htask] at ih
        exact hprog l _ (ih _ .refl hlive) hlive
      · rcases c with ⟨t, s⟩
        cases htask
        exact (ih s .refl hlive).2 hready ch hadm
    · obtain ⟨hlive, htask, henv⟩ := System.step_env_cases hstep
      rw [htask]
      rcases c with ⟨t, s⟩
      exact ih.interfere (.single ⟨e, hlive, hadm, henv⟩)

end

end Conc
