import Mathlib.Data.List.Destutter
import Mathlib.Data.List.Infix

/-!
# Traces

A trace is the list of what has happened, newest first.
-/

namespace Conc

variable {α : Type} {trace l : List α} {a : α}

/-- Every event of the trace obeys a rule about what came before it. -/
def Obeys (rule : α → List α → Prop) (trace : List α) : Prop :=
  ∀ a before, a :: before <:+ trace → rule a before

variable {rule : α → List α → Prop}

theorem obeys_nil : Obeys rule [] := fun a before h => by cases List.suffix_nil.mp h

theorem obeys_cons : Obeys rule (a :: trace) ↔ rule a trace ∧ Obeys rule trace := by
  constructor
  · exact fun h => ⟨h a trace List.suffix_rfl, fun b before hb => h b before
      (hb.trans (List.suffix_cons a trace))⟩
  · rintro ⟨hrule, h⟩ b before hb
    rcases List.suffix_cons_iff.mp hb with heq | hb
    · cases heq
      exact hrule
    · exact h b before hb

/-- Events that the rule does not concern. -/
theorem Obeys.append (h : Obeys rule trace) (hl : ∀ a ∈ l, ∀ before, rule a before) :
    Obeys rule (l ++ trace) := by
  induction l with
  | nil => exact h
  | cons a l ih =>
    refine obeys_cons.mpr ⟨hl a List.mem_cons_self _, ih fun b hb => ?_⟩
    exact hl b (List.mem_cons_of_mem a hb)

theorem Obeys.of_suffix (h : Obeys rule trace) (hl : l <:+ trace) : Obeys rule l :=
  fun a before hbefore => h a before (hbefore.trans hl)

variable {p : α → Bool}

/-- What has happened since the last event with `p`. -/
def since (p : α → Bool) (trace : List α) : List α := trace.takeWhile (!p ·)

theorem since_append (h : ∀ a ∈ l, p a = false) : since p (l ++ trace) = l ++ since p trace :=
  List.takeWhile_append_of_pos fun a ha => by rw [h a ha]; rfl

theorem since_cons_of_pos (h : p a = true) : since p (a :: trace) = [] := by
  rw [since, List.takeWhile_cons, h]
  rfl

theorem mem_of_mem_since (h : a ∈ since p trace) : a ∈ trace :=
  (List.takeWhile_prefix _).subset h

/-- What had happened when the last event with `p` came, with that event. -/
def upTo (p : α → Bool) (trace : List α) : List α := trace.dropWhile (!p ·)

theorem upTo_append (h : ∀ a ∈ l, p a = false) : upTo p (l ++ trace) = upTo p trace :=
  List.dropWhile_append_of_pos fun a ha => by rw [h a ha]; rfl

theorem upTo_cons_of_pos (h : p a = true) : upTo p (a :: trace) = a :: trace := by
  rw [upTo, List.dropWhile_cons, h]
  rfl

/-! ## Repetitions -/

variable [DecidableEq α] {R : α → α → Prop}

theorem head?_destutter' (a : α) (l : List α) : (l.destutter' (· ≠ ·) a).head? = some a := by
  induction l with
  | nil => rfl
  | cons b l ih =>
    by_cases h : a ≠ b
    · rw [List.destutter'_cons_pos _ h]
      rfl
    · rw [List.destutter'_cons_neg _ h]
      exact ih

/-- Without its repetitions, a sequence that goes on by `R` or repeats itself goes on by `R`. -/
theorem isChain_destutter'_of_eq_or (l : List α) (a : α)
    (h : (a :: l).IsChain fun a b => a = b ∨ R a b) : (l.destutter' (· ≠ ·) a).IsChain R := by
  induction l generalizing a with
  | nil => exact List.isChain_singleton a
  | cons b l ih =>
    obtain ⟨hstep, hrest⟩ := List.isChain_cons_cons.mp h
    by_cases hab : a ≠ b
    · rw [List.destutter'_cons_pos _ hab]
      refine List.isChain_cons.mpr ⟨fun c hc => ?_, ih b hrest⟩
      rw [head?_destutter', Option.mem_some_iff] at hc
      exact hc ▸ hstep.resolve_left hab
    · obtain rfl := Decidable.not_not.mp hab
      rw [List.destutter'_cons_neg _ hab]
      exact ih a hrest

theorem isChain_destutter_of_eq_or {l : List α} (h : l.IsChain fun a b => a = b ∨ R a b) :
    (l.destutter (· ≠ ·)).IsChain R := by
  cases l with
  | nil => exact List.isChain_nil
  | cons a l => exact isChain_destutter'_of_eq_or l a h

end Conc
