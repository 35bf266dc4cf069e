import BleKbdHost.Conc.Logic

/-!
# Progress

Whether a task can go on is a question about its environment: its operation has to become ready.
`CanMove` says that the environment can bring that about; a condition that the environment preserves
and under which the operation is not ready rules it out (`Stable.blocked`), and a measure that the
environment can lower brings it about (`Interfere.exhaust`).
-/

namespace Conc

variable {O C S E L : Type} (M : System O C S E L) (g : Guard O C S E)

/-- The task's next step needs nothing more. -/
def System.enabled : Task O C S L → S → Bool
  | .ret _, s => M.live s
  | .op o _, s => M.live s && M.ready o s

/-- The environment can bring the task to where its next step needs nothing more. -/
def CanMove (c : Config O C S L) : Prop :=
  ∃ s, Interfere M g c.state s ∧ M.enabled c.task s = true

variable {M g}

theorem System.step_main_isSome (c : Config O C S L) (ch : C) :
    (M.step (.main ch) c).isSome = M.enabled c.task c.state := by
  rcases c with ⟨_ | ⟨o, k⟩, s⟩ <;> simp only [System.step, System.enabled] <;> split <;> simp_all

theorem CanMove.of_enabled {c : Config O C S L} (h : M.enabled c.task c.state = true) :
    CanMove M g c :=
  ⟨c.state, .refl, h⟩

/-- A run with what the environment does after it. -/
theorem Reach.interfere {c₀ c : Config O C S L} (h : Reach M g c₀ c) {s : S}
    (hs : Interfere M g c.state s) : Reach M g c₀ ⟨c.task, s⟩ := by
  induction hs with
  | refl => exact h
  | tail _ hstep ih =>
    obtain ⟨e, hlive, hadm, henv⟩ := hstep
    refine .step (m := .env e) ih hadm ?_
    simp only [System.step, hlive, henv, if_true, Option.map_some]

/-- An operation that is not ready, as long as a condition holds that the environment preserves. -/
theorem Stable.not_canMove {A : S → Prop} (hA : Stable M g A) {o : O} {k : C → S → Task O C S L}
    {s : S} (hs : A s) (hwait : ∀ s, A s → M.ready o s = false) : ¬CanMove M g ⟨.op o k, s⟩ := by
  rintro ⟨s', hrun, henabled⟩
  simp only [System.enabled, hwait s' (hA.interfere hrun hs), Bool.and_false] at henabled
  cases henabled

/-- Such an operation is never performed. -/
theorem Stable.blocked {A : S → Prop} (hA : Stable M g A) {o : O} {k : C → S → Task O C S L} {s : S}
    (hs : A s) (hwait : ∀ s, A s → M.ready o s = false) {c : Config O C S L}
    (h : Reach M g ⟨.op o k, s⟩ c) : c.task = .op o k ∧ A c.state := by
  induction h with
  | start => exact ⟨rfl, hs⟩
  | @step m c c' _ hadm hstep ih =>
    obtain ⟨htask, hstate⟩ := ih
    rcases m with ch | e
    · exfalso
      have hsome : M.enabled c.task c.state = true := by
        rw [← System.step_main_isSome c ch, hstep]
        rfl
      simp only [htask, System.enabled, hwait c.state hstate, Bool.and_false] at hsome
      cases hsome
    · obtain ⟨hlive, htask', henv⟩ := System.step_env_cases hstep
      rcases c with ⟨t, s⟩
      exact ⟨htask'.trans htask, hA s c'.state ⟨e, hlive, hadm, henv⟩ hstate⟩

/-- What the environment can keep up until it has lowered a measure far enough, it can bring to
where `P` holds. -/
theorem Interfere.exhaust {I P : S → Prop} (measure : S → Nat)
    (hlower : ∀ s, I s → ¬P s → ∃ s', EnvStep M g s s' ∧ I s' ∧ measure s' < measure s) :
    ∀ {s : S}, I s → ∃ s', Interfere M g s s' ∧ I s' ∧ P s' := by
  intro s
  induction hn : measure s using Nat.strongRecOn generalizing s with
  | ind n ih =>
    intro hs
    by_cases hP : P s
    · exact ⟨s, .refl, hs, hP⟩
    · obtain ⟨s₁, hstep, hs₁, hlt⟩ := hlower s hs hP
      obtain ⟨s', hrun, hs', hP'⟩ := ih (measure s₁) (hn ▸ hlt) rfl hs₁
      exact ⟨s', .head hstep hrun, hs', hP'⟩

end Conc
