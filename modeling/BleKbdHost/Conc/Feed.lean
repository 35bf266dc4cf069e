import BleKbdHost.Conc.Task

/-!
# What a task returns for what it finds

A task does not see the environment, only the states its operations find and the choices they are
answered with. Fed with these, it has a result of its own, whatever led to them; a run feeds each
block with what its operations found in it.
-/

namespace Conc

variable {O C S E L α β : Type}

namespace Task

/-- The rest of a task, after its first operations found these states with these choices. -/
def after : Task O C S α → List (C × S) → Option (Task O C S α)
  | t, [] => some t
  | ret _, _ :: _ => none
  | op _ k, (c, s) :: found => (k c s).after found

/-- The result of a task. -/
def result? : Task O C S α → Option α
  | ret a => some a
  | op _ _ => none

/-- What the task returns if its operations find these states with these choices. -/
def feed (t : Task O C S α) (found : List (C × S)) : Option α := (t.after found).bind result?

@[simp] theorem feed_ret_nil (a : α) : (ret a : Task O C S α).feed [] = some a := rfl

@[simp] theorem feed_ret_cons (a : α) (x : C × S) (found : List (C × S)) :
    (ret a : Task O C S α).feed (x :: found) = none := rfl

@[simp] theorem feed_op_nil (o : O) (k : C → S → Task O C S α) : (op o k).feed [] = none := rfl

@[simp] theorem feed_op_cons (o : O) (k : C → S → Task O C S α) (c : C) (s : S)
    (found : List (C × S)) : (op o k).feed ((c, s) :: found) = (k c s).feed found := rfl

theorem feed_ret_iff {a b : α} {found : List (C × S)} :
    (ret a : Task O C S α).feed found = some b ↔ found = [] ∧ a = b := by
  cases found <;> simp

/-- The first operation takes the first state. -/
theorem feed_op {o : O} {k : C → S → Task O C S α} {found : List (C × S)} {a : α}
    (h : (op o k).feed found = some a) :
    ∃ x rest, found = x :: rest ∧ (k x.1 x.2).feed rest = some a := by
  cases found with
  | nil => cases h
  | cons x rest => exact ⟨x, rest, rfl, h⟩

/-- A sequence splits what is found. -/
theorem feed_bind_iff {f : α → Task O C S β} {b : β} : ∀ {t : Task O C S α} {found : List (C × S)},
    (t.bind f).feed found = some b ↔ ∃ before rest a, found = before ++ rest ∧
      t.feed before = some a ∧ (f a).feed rest = some b := by
  intro t
  induction t with
  | ret a =>
    intro found
    constructor
    · exact fun h => ⟨[], found, a, rfl, rfl, h⟩
    · rintro ⟨before, rest, a', rfl, hret, hrest⟩
      obtain ⟨rfl, rfl⟩ := feed_ret_iff.mp hret
      exact hrest
  | op o k ih =>
    intro found
    rcases found with _ | ⟨⟨c, s⟩, found⟩
    · constructor
      · exact fun h => nomatch h
      · rintro ⟨before, rest, a, hsplit, hop, -⟩
        obtain ⟨rfl, rfl⟩ := List.append_eq_nil_iff.mp hsplit.symm
        cases hop
    · rw [op_bind, feed_op_cons, ih]
      constructor
      · rintro ⟨before, rest, a, rfl, hop, hrest⟩
        exact ⟨(c, s) :: before, rest, a, rfl, hop, hrest⟩
      · rintro ⟨before, rest, a, hsplit, hop, hrest⟩
        rcases before with _ | ⟨x, before⟩
        · cases hop
        · obtain ⟨rfl, rfl⟩ := List.cons_eq_cons.mp hsplit
          exact ⟨before, rest, a, rfl, hop, hrest⟩

/-- What a sequence returns comes from its second part. -/
theorem feed_bind_result {t : Task O C S α} {f : α → Task O C S β} {found : List (C × S)} {b : β}
    {p : β → Prop} (h : (t.bind f).feed found = some b)
    (hf : ∀ a rest, (f a).feed rest = some b → p b) : p b := by
  obtain ⟨-, rest, a, -, -, hrest⟩ := feed_bind_iff.mp h
  exact hf a rest hrest

end Task

variable {M : System O C S E L} {g : Guard O C S E}

/-- **Runs feed the blocks.** A run from inside a block is still there, or the block has returned the
label whose block the run went on with. -/
theorem System.run_feed : ∀ (ms : List (Move C E)) {t : Task O C S L} {s : S} {c' : Config O C S L},
    M.run g ms ⟨t, s⟩ = some c' → (∃ found, t.after found = some c'.task) ∨
      ∃ found l ms' s', t.feed found = some l ∧ M.run g ms' ⟨M.prog l, s'⟩ = some c' := by
  intro ms
  induction ms with
  | nil =>
    intro t s c' h
    cases h
    exact .inl ⟨[], by cases t <;> rfl⟩
  | cons m ms ih =>
    intro t s c' h
    simp only [System.run, Option.ite_none_right_eq_some] at h
    obtain ⟨-, c₁, hstep, hrest⟩ := h.imp_right Option.bind_eq_some_iff.mp
    rcases m with ch | e
    · rcases System.step_main_cases hstep with ⟨l, htask, -, rfl⟩ | ⟨o, k, htask, -, -, rfl⟩
      · obtain rfl : t = .ret l := htask
        exact .inr ⟨[], l, ms, s, rfl, hrest⟩
      · obtain rfl : t = .op o k := htask
        rcases ih hrest with ⟨found, hafter⟩ | ⟨found, l, ms', s', hfeed, hrun⟩
        · exact .inl ⟨(ch, s) :: found, hafter⟩
        · exact .inr ⟨(ch, s) :: found, l, ms', s', hfeed, hrun⟩
    · obtain ⟨-, htask, -⟩ := System.step_env_cases hstep
      rcases c₁ with ⟨t₁, s₁⟩
      obtain rfl : t₁ = t := htask
      exact ih hrest

end Conc
