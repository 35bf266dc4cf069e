/-!
# One task against an environment

A task is a tree of operations on a shared state. Between two of its operations anything that the
environment can do may happen. An operation may have to wait until it is ready; its outcome may
depend on a choice that the task does not make, and what the task does next may depend on that
choice and on the state the operation found.

Task trees are finite. A loop returns the label of the block it goes on with, and the system jumps
there by a step of its own.
-/

namespace Conc

/-- A task over operations `O`, choices `C` and states `S`. -/
inductive Task (O C S : Type) (α : Type) where
  | ret (a : α)
  | op (o : O) (k : C → S → Task O C S α)

namespace Task

variable {O C S α β γ : Type}

/-- `t`, then `f` on its result. -/
def bind : Task O C S α → (α → Task O C S β) → Task O C S β
  | ret a, f => f a
  | op o k, f => op o fun c s => (k c s).bind f

instance : Monad (Task O C S) where
  pure := ret
  bind := bind

/-- One operation whose result is read off the choice and the state it found. -/
def ask (o : O) (r : C → S → α) : Task O C S α := op o fun c s => ret (r c s)

/-- One operation without a result. -/
def perform (o : O) : Task O C S Unit := ask o fun _ _ => ()

/-- `t`, if `p` holds. -/
def when (p : Prop) [Decidable p] (t : Task O C S Unit) : Task O C S Unit :=
  if p then t else ret ()

theorem bind_eq (t : Task O C S α) (f : α → Task O C S β) : t >>= f = t.bind f := rfl

theorem pure_eq (a : α) : (pure a : Task O C S α) = ret a := rfl

@[simp] theorem ret_bind (a : α) (f : α → Task O C S β) : (ret a).bind f = f a := rfl

@[simp] theorem op_bind (o : O) (k : C → S → Task O C S α) (f : α → Task O C S β) :
    (op o k).bind f = op o fun c s => (k c s).bind f := rfl

@[simp] theorem bind_ret (t : Task O C S α) : t.bind ret = t := by
  induction t with
  | ret a => rfl
  | op o k ih => simp only [op_bind, ih]

theorem bind_assoc (t : Task O C S α) (f : α → Task O C S β) (g : β → Task O C S γ) :
    (t.bind f).bind g = t.bind fun a => (f a).bind g := by
  induction t with
  | ret a => rfl
  | op o k ih => simp only [op_bind, ih]

end Task

/-- What the operations do to the state, what the environment can do, and the blocks of the
program. Nothing moves in a state that is not live. -/
structure System (O C S E L : Type) where
  live : S → Bool
  ready : O → S → Bool
  exec : O → C → S → S
  env : E → S → Option S
  prog : L → Task O C S L

/-- A task and the state it runs on. -/
structure Config (O C S L : Type) where
  task : Task O C S L
  state : S

/-- A step of the task with its choice, or a step of the environment. -/
inductive Move (C E : Type) where
  | main (c : C)
  | env (e : E)

/-- Which operations and which environment steps a run may take. -/
structure Guard (O C S E : Type) where
  main : O → C → S → Bool
  env : E → S → Bool

/-- No restriction. -/
def Guard.free {O C S E : Type} : Guard O C S E := ⟨fun _ _ _ => true, fun _ _ => true⟩

section

variable {O C S E L : Type} (M : System O C S E L) (g : Guard O C S E)

/-- One move. -/
def System.step : Move C E → Config O C S L → Option (Config O C S L)
  | .main _, ⟨.ret l, s⟩ => if M.live s then some ⟨M.prog l, s⟩ else none
  | .main c, ⟨.op o k, s⟩ =>
    if M.live s && M.ready o s then some ⟨k c s, M.exec o c s⟩ else none
  | .env e, ⟨t, s⟩ => if M.live s then (M.env e s).map fun s => ⟨t, s⟩ else none

/-- The guard admits the move. -/
def Guard.admits : Move C E → Config O C S L → Bool
  | .main _, ⟨.ret _, _⟩ => true
  | .main c, ⟨.op o _, s⟩ => g.main o c s
  | .env e, ⟨_, s⟩ => g.env e s

/-- Runs a list of moves, all of them admitted. -/
def System.run : List (Move C E) → Config O C S L → Option (Config O C S L)
  | [], c => some c
  | m :: ms, c => if g.admits m c then (M.step m c).bind (run ms) else none

/-- What an admitted run can reach. -/
inductive Reach (c₀ : Config O C S L) : Config O C S L → Prop
  | start : Reach c₀ c₀
  | step {m : Move C E} {c c' : Config O C S L} :
    Reach c₀ c → g.admits m c = true → M.step m c = some c' → Reach c₀ c'

variable {M g}

theorem Reach.trans {c₀ c₁ c₂ : Config O C S L} (h : Reach M g c₀ c₁) (h' : Reach M g c₁ c₂) :
    Reach M g c₀ c₂ := by
  induction h' with
  | start => exact h
  | step _ hadm hstep ih => exact .step ih hadm hstep

theorem Reach.of_run : ∀ {ms : List (Move C E)} {c₀ c : Config O C S L},
    M.run g ms c₀ = some c → Reach M g c₀ c := by
  intro ms
  induction ms with
  | nil =>
    intro c₀ c h
    cases h
    exact .start
  | cons m ms ih =>
    intro c₀ c h
    simp only [System.run] at h
    split at h
    · rename_i hadm
      obtain ⟨c₁, hstep, hrest⟩ := Option.bind_eq_some_iff.mp h
      exact (Reach.step .start hadm hstep).trans (ih hrest)
    · cases h

/-- A run under a guard is a run under a weaker one. -/
theorem Reach.mono {g' : Guard O C S E} (hmain : ∀ o c s, g.main o c s = true → g'.main o c s = true)
    (henv : ∀ e s, g.env e s = true → g'.env e s = true) {c₀ c : Config O C S L}
    (h : Reach M g c₀ c) : Reach M g' c₀ c := by
  induction h with
  | start => exact .start
  | @step m c c' _ hadm hstep ih =>
    refine .step ih ?_ hstep
    rcases m with ch | e
    · rcases c with ⟨_ | _, _⟩
      · rfl
      · exact hmain _ _ _ hadm
    · exact henv _ _ hadm

/-- A restricted run is a run. -/
theorem Reach.free {c₀ c : Config O C S L} (h : Reach M g c₀ c) : Reach M .free c₀ c :=
  h.mono (fun _ _ _ _ => rfl) fun _ _ _ => rfl

/-- A task's move: it jumps to a block, or performs its first operation. -/
theorem System.step_main_cases {ch : C} {c c' : Config O C S L}
    (h : M.step (.main ch) c = some c') :
    (∃ l, c.task = .ret l ∧ M.live c.state = true ∧ c' = ⟨M.prog l, c.state⟩) ∨
    ∃ o k, c.task = .op o k ∧ M.live c.state = true ∧ M.ready o c.state = true ∧
      c' = ⟨k ch c.state, M.exec o ch c.state⟩ := by
  rcases c with ⟨t, s⟩
  cases t with
  | ret l =>
    simp only [System.step, Option.ite_none_right_eq_some, Option.some.injEq] at h
    exact .inl ⟨l, rfl, h.1, h.2.symm⟩
  | op o k =>
    simp only [System.step, Option.ite_none_right_eq_some, Option.some.injEq,
      Bool.and_eq_true] at h
    exact .inr ⟨o, k, rfl, h.1.1, h.1.2, h.2.symm⟩

/-- An environment's move leaves the task alone. -/
theorem System.step_env_cases {e : E} {c c' : Config O C S L}
    (h : M.step (.env e) c = some c') :
    M.live c.state = true ∧ c'.task = c.task ∧ M.env e c.state = some c'.state := by
  rcases c with ⟨t, s⟩
  simp only [System.step, Option.ite_none_right_eq_some, Option.map_eq_some_iff] at h
  obtain ⟨hlive, s', henv, rfl⟩ := h
  exact ⟨hlive, rfl, henv⟩

/-- **Invariant rule.** What every admitted operation and environment step preserves holds of every
state reached. The operations may rely on a precondition that is known to hold where they occur, and
all steps on what is known of every state reached. -/
theorem Reach.invariant {c₀ : Config O C S L} (pre : O → S → Prop) (J I : S → Prop)
    (hpre : ∀ c o k, Reach M g c₀ c → M.live c.state = true → c.task = .op o k → pre o c.state)
    (hknown : ∀ c, Reach M g c₀ c → J c.state) (hstart : I c₀.state)
    (hmain : ∀ o c s, J s → I s → M.live s = true → M.ready o s = true → g.main o c s = true →
      pre o s → I (M.exec o c s))
    (henv : ∀ e s s', J s → I s → M.live s = true → g.env e s = true → M.env e s = some s' → I s')
    {c : Config O C S L} (h : Reach M g c₀ c) : I c.state := by
  induction h with
  | start => exact hstart
  | @step m c c' hreach hadm hstep ih =>
    have hJ := hknown c hreach
    rcases m with ch | e
    · rcases System.step_main_cases hstep with ⟨l, -, -, rfl⟩ | ⟨o, k, htask, hlive, hready, rfl⟩
      · exact ih
      · have hp := hpre c o k hreach hlive htask
        rcases c with ⟨t, s⟩
        cases htask
        exact hmain o ch s hJ ih hlive hready hadm hp
    · obtain ⟨hlive, -, henv'⟩ := System.step_env_cases hstep
      exact henv e _ _ hJ ih hlive hadm henv'

end

end Conc
