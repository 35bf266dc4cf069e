import BleKbdHost.Conc.Logic

/-!
# Conditions on operations, results and moves

`Task.Only p`: whatever its operations find, the task performs only operations with `p`.
`Task.Returns p`: whatever they find, what it returns satisfies `p`. `Along A`:
what is reached by moves that satisfy `A` in the configurations in which they are made; unlike a
guard, `A` sees what the task still has to do.
-/

namespace Conc

variable {O C S E L α β : Type}

namespace Task

def Only (p : O → Prop) : Task O C S α → Prop
  | ret _ => True
  | op o k => p o ∧ ∀ c s, (k c s).Only p

variable {p : O → Prop}

@[simp] theorem only_pure (a : α) : (pure a : Task O C S α).Only p := trivial

@[simp] theorem only_ret (a : α) : (ret a : Task O C S α).Only p := trivial

@[simp] theorem only_ask {o : O} {r : C → S → α} : (ask o r).Only p ↔ p o :=
  ⟨And.left, fun h => ⟨h, fun _ _ => trivial⟩⟩

@[simp] theorem only_perform {o : O} : (perform o : Task O C S Unit).Only p ↔ p o := only_ask

theorem Only.bind {t : Task O C S α} {f : α → Task O C S β} (ht : t.Only p)
    (hf : ∀ a, (f a).Only p) : (t.bind f).Only p := by
  induction t with
  | ret a => exact hf a
  | op o k ih => exact ⟨ht.1, fun c s => ih c s (ht.2 c s)⟩

theorem Only.when {q : Prop} [Decidable q] {t : Task O C S Unit} (ht : t.Only p) :
    (when q t).Only p := by
  unfold Task.when
  split
  · exact ht
  · trivial

theorem Only.ite {q : Prop} [Decidable q] {t u : Task O C S α} (ht : t.Only p) (hu : u.Only p) :
    (if q then t else u).Only p := by
  split
  · exact ht
  · exact hu

theorem Only.mono {p' : O → Prop} {t : Task O C S α} (ht : t.Only p) (h : ∀ o, p o → p' o) :
    t.Only p' := by
  induction t with
  | ret a => trivial
  | op o k ih => exact ⟨h o ht.1, fun c s => ih c s (ht.2 c s)⟩

def Returns (q : α → Prop) : Task O C S α → Prop
  | ret a => q a
  | op _ k => ∀ c s, (k c s).Returns q

variable {q : α → Prop}

theorem Returns.bind {t : Task O C S α} {f : α → Task O C S β} {r : β → Prop} (ht : t.Returns q)
    (hf : ∀ a, q a → (f a).Returns r) : (t.bind f).Returns r := by
  induction t with
  | ret a => exact hf a ht
  | op o k ih => exact fun c s => ih c s (ht c s)

theorem Returns.mono {q' : α → Prop} {t : Task O C S α} (ht : t.Returns q) (h : ∀ a, q a → q' a) :
    t.Returns q' := by
  induction t with
  | ret a => exact h a ht
  | op o k ih => exact fun c s => ih c s (ht c s)

/-- A sequence returns what its second part returns. -/
theorem Returns.seq {f : α → Task O C S β} {r : β → Prop} (t : Task O C S α)
    (hf : ∀ a, (f a).Returns r) : (t.bind f).Returns r := by
  induction t with
  | ret a => exact hf a
  | op o k ih => exact fun c s => ih c s

theorem Returns.ite {p : Prop} [Decidable p] {t u : Task O C S α} (ht : t.Returns q)
    (hu : u.Returns q) : (if p then t else u).Returns q := by
  split
  · exact ht
  · exact hu

end Task

section Logic

variable {M : System O C S E L} {g : Guard O C S E} {pre pre' : O → S → Prop} {p : O → Prop}
variable {q : α → Prop} {A : S → Prop} {Q : α → S → Prop} {t : Task O C S α}

/-- A precondition may depend on which operations the task performs at all. -/
theorem wp.only {s : S} (h : wp M g pre Q t s) (ht : t.Only p)
    (hpre : ∀ o s, p o → pre o s → pre' o s) : wp M g pre' Q t s := by
  induction t generalizing s with
  | ret a => exact h
  | op o k ih =>
    intro s' hrun hlive
    obtain ⟨ho, hnext⟩ := h s' hrun hlive
    exact ⟨hpre o s' ht.1 ho, fun hready c hc => ih c s' (hnext hready c hc) (ht.2 c s')⟩

theorem Triple.only (h : Triple M g pre A t Q) (ht : t.Only p)
    (hpre : ∀ o s, p o → pre o s → pre' o s) : Triple M g pre' A t Q :=
  fun s hs hlive => (h s hs hlive).only ht hpre

/-- What a task returns in any case may be assumed of its result. -/
theorem wp.returns {s : S} (h : wp M g pre Q t s) (ht : t.Returns q) :
    wp M g pre (fun a s => q a ∧ Q a s) t s := by
  induction t generalizing s with
  | ret a => exact fun s' hrun hlive => ⟨ht, h s' hrun hlive⟩
  | op o k ih =>
    intro s' hrun hlive
    obtain ⟨ho, hnext⟩ := h s' hrun hlive
    exact ⟨ho, fun hready c hc => ih c s' (hnext hready c hc) (ht c s')⟩

theorem Triple.returns (h : Triple M g pre A t Q) (ht : t.Returns q) :
    Triple M g pre A t fun a s => q a ∧ Q a s :=
  fun s hs hlive => (h s hs hlive).returns ht

end Logic

variable {M : System O C S E L} {g : Guard O C S E} {A : Move C E → Config O C S L → Prop}
variable {c₀ c : Config O C S L}

/-- What moves with `A` can reach. -/
inductive Along (M : System O C S E L) (A : Move C E → Config O C S L → Prop)
    (c₀ : Config O C S L) : Config O C S L → Prop
  | start : Along M A c₀ c₀
  | step {m : Move C E} {c c' : Config O C S L} :
    Along M A c₀ c → A m c → M.step m c = some c' → Along M A c₀ c'

/-- Makes a list of moves, all of them with `p`. -/
def System.follow (M : System O C S E L) (p : Move C E → Config O C S L → Bool) :
    List (Move C E) → Config O C S L → Option (Config O C S L)
  | [], c => some c
  | m :: ms, c => if p m c then (M.step m c).bind (follow M p ms) else none

theorem Along.cons {m : Move C E} {c₁ : Config O C S L} (hm : A m c₀)
    (hstep : M.step m c₀ = some c₁) (h : Along M A c₁ c) : Along M A c₀ c := by
  induction h with
  | start => exact .step .start hm hstep
  | step _ hm' hstep' ih => exact .step ih hm' hstep'

theorem Along.of_follow {p : Move C E → Config O C S L → Bool} (hA : ∀ m c, p m c = true → A m c) :
    ∀ {ms : List (Move C E)} {c₀ : Config O C S L}, M.follow p ms c₀ = some c → Along M A c₀ c := by
  intro ms
  induction ms with
  | nil =>
    intro c₀ h
    cases h
    exact .start
  | cons m ms ih =>
    intro c₀ h
    simp only [System.follow, Option.ite_none_right_eq_some] at h
    obtain ⟨hm, hrest⟩ := h
    obtain ⟨c₁, hstep, hrest⟩ := Option.bind_eq_some_iff.mp hrest
    exact .cons (hA m c₀ hm) hstep (ih hrest)

/-- A run may be continued along moves with `A`. -/
theorem Reach.trans_along {c₁ : Config O C S L} (h₀ : Reach M .free c₁ c₀) (h : Along M A c₀ c) :
    Reach M .free c₁ c := by
  induction h with
  | start => exact h₀
  | @step m c c' _ _ hstep ih =>
    refine .step ih ?_ hstep
    rcases m with ch | e
    · rcases c with ⟨_ | _, _⟩ <;> rfl
    · rfl

/-- **Invariant rule.** The moves may rely on what is known of all configurations reached. -/
theorem Along.invariant {J P : Config O C S L → Prop} (h : Along M A c₀ c)
    (hknown : ∀ c, Along M A c₀ c → J c) (hstart : P c₀)
    (hstep : ∀ m c c', J c → P c → A m c → M.step m c = some c' → P c') : P c := by
  induction h with
  | start => exact hstart
  | step hrun hm hmove ih => exact hstep _ _ _ (hknown _ hrun) ih hm hmove

end Conc
