import Mathlib.Data.Multiset.AddSub

/-!
# Resource ledgers

Computations that take resources and give them back, with a ledger of those that are out. A request
may be refused: `grants` says which ones are granted. Giving back or using what is not out stops the
computation; so does a fault of the program.

`Spec` is a triple about what a computation owns. Whatever else is out (`frame`) it leaves alone, so
that triples compose without saying what they do not touch.
-/

namespace Mem

/-- A resource, numbered by the request that took it. -/
structure Handle (κ : Type) where
  kind : κ
  id : ℕ
  deriving DecidableEq

/-- What is out, each resource once, and the number of the next request. -/
structure Ledger (κ : Type) where
  out : Multiset (Handle κ)
  next : ℕ
  nodup : out.Nodup
  old : ∀ r ∈ out, r.id < next

/-- Why a computation stops: it gave back or used what is not out, or the program faulted. -/
inductive Stop (ε : Type) where
  | misuse
  | fault (e : ε)

namespace Ledger

variable {κ : Type}

def empty : Ledger κ := ⟨0, 0, Multiset.nodup_zero, fun r h => absurd h (Multiset.notMem_zero r)⟩

/-- The next request, if it is granted. -/
def take (l : Ledger κ) (kind : κ) : Ledger κ where
  out := ⟨kind, l.next⟩ ::ₘ l.out
  next := l.next + 1
  nodup := Multiset.nodup_cons.mpr ⟨fun h => Nat.lt_irrefl _ (l.old _ h), l.nodup⟩
  old r h := by
    rcases Multiset.mem_cons.mp h with rfl | h
    · exact Nat.lt_succ_self _
    · exact Nat.lt_succ_of_lt (l.old r h)

/-- The next request, if it is refused. -/
def skip (l : Ledger κ) : Ledger κ where
  out := l.out
  next := l.next + 1
  nodup := l.nodup
  old r h := Nat.lt_succ_of_lt (l.old r h)

def drop [DecidableEq κ] (l : Ledger κ) (r : Handle κ) : Ledger κ where
  out := l.out.erase r
  next := l.next
  nodup := l.nodup.erase r
  old s h := l.old s (Multiset.mem_of_mem_erase h)

end Ledger

/-- A computation over a ledger. -/
def Script (κ ε α : Type) := (ℕ → Bool) → Ledger κ → Except (Stop ε) (α × Ledger κ)

namespace Script

variable {κ ε α β : Type}

instance : Monad (Script κ ε) where
  pure a := fun _ l => .ok (a, l)
  bind x f := fun grants l =>
    match x grants l with
    | .ok (a, l) => f a grants l
    | .error e => .error e

def fault (e : ε) : Script κ ε α := fun _ _ => .error (.fault e)

/-- Requests a resource; `none` where the request is refused. -/
def take (kind : κ) : Script κ ε (Option (Handle κ)) := fun grants l =>
  if grants l.next then .ok (some ⟨kind, l.next⟩, l.take kind) else .ok (none, l.skip)

/-- A request that takes nothing; it may be refused. -/
def ask : Script κ ε Bool := fun grants l => .ok (grants l.next, l.skip)

variable [DecidableEq κ]

/-- Gives a resource back; without one, nothing happens. -/
def drop : Option (Handle κ) → Script κ ε Unit
  | none => fun _ l => .ok ((), l)
  | some r => fun _ l => if r ∈ l.out then .ok ((), l.drop r) else .error .misuse

/-- Uses a resource. -/
def use (r : Handle κ) : Script κ ε Unit := fun _ l =>
  if r ∈ l.out then .ok ((), l) else .error .misuse

end Script

/-! ## Triples -/

/-- The resource, if there is one. -/
def held {κ : Type} : Option (Handle κ) → Multiset (Handle κ)
  | none => 0
  | some r => {r}

section

variable {κ ε α β : Type}

/-- Where the requests are granted as `G` says, a computation that owns `own` misuses nothing. What it
returns and then owns satisfies `Q`, and the fault that stops it, if any, `E`. -/
def Spec (G : (ℕ → Bool) → Prop) (own : Multiset (Handle κ)) (t : Script κ ε α)
    (Q : α → Multiset (Handle κ) → Prop) (E : ε → Prop) : Prop :=
  ∀ grants, G grants → ∀ l frame, l.out = own + frame →
    match t grants l with
    | .ok (a, l') => ∃ own', l'.out = own' + frame ∧ Q a own'
    | .error .misuse => False
    | .error (.fault e) => E e

/-- Some request may be refused. -/
def MayRefuse (G : (ℕ → Bool) → Prop) : Prop := ∃ grants n, G grants ∧ grants n = false

variable {G : (ℕ → Bool) → Prop} {own own₁ : Multiset (Handle κ)} {t : Script κ ε α}
variable {Q Q' : α → Multiset (Handle κ) → Prop} {E E' : ε → Prop}

namespace Spec

theorem pure {a : α} (h : Q a own) : Spec G own (Pure.pure a : Script κ ε α) Q E :=
  fun _ _ _ _ hl => ⟨own, hl, h⟩

theorem fault {e : ε} (h : E e) : Spec G own (.fault e : Script κ ε α) Q E := fun _ _ _ _ _ => h

theorem bind {f : α → Script κ ε β} {R : β → Multiset (Handle κ) → Prop} (ht : Spec G own t Q E)
    (hf : ∀ a own', Q a own' → Spec G own' (f a) R E) : Spec G own (t >>= f) R E := by
  intro grants hg l frame hl
  have hrun := ht grants hg l frame hl
  change match (match t grants l with
    | .ok (a, l) => f a grants l
    | .error e => .error e : Except (Stop ε) (β × Ledger κ)) with
    | .ok (a, l') => ∃ own', l'.out = own' + frame ∧ R a own'
    | .error .misuse => False
    | .error (.fault e) => E e
  split at hrun
  · rename_i a l' heq
    obtain ⟨own', hl', hQ⟩ := hrun
    simp only [heq]
    exact hf a own' hQ grants hg l' frame hl'
  · exact hrun.elim
  · rename_i e heq
    simp only [heq]
    exact hrun

theorem mono (h : Spec G own t Q E) (hQ : ∀ a own', Q a own' → Q' a own') (hE : ∀ e, E e → E' e) :
    Spec G own t Q' E' := by
  intro grants hg l frame hl
  have hrun := h grants hg l frame hl
  split at hrun
  · obtain ⟨own', hl', hpost⟩ := hrun
    exact ⟨own', hl', hQ _ own' hpost⟩
  · exact hrun.elim
  · exact hE _ hrun

/-- **Frame rule.** What is owned besides is owned afterwards. -/
theorem frame (h : Spec G own t Q E) (rest : Multiset (Handle κ)) :
    Spec G (own + rest) t (fun a own' => ∃ part, own' = part + rest ∧ Q a part) E := by
  intro grants hg l outer hl
  have hrun := h grants hg l (rest + outer) (by rw [hl, Multiset.add_assoc])
  split at hrun
  · obtain ⟨part, hl', hpost⟩ := hrun
    exact ⟨part + rest, by rw [hl', Multiset.add_assoc], part, rfl, hpost⟩
  · exact hrun.elim
  · exact hrun

/-- A request: what is taken is owned, and a refusal is one that `G` allows. -/
theorem take {kind : κ} {Q : Option (Handle κ) → Multiset (Handle κ) → Prop}
    (hsome : ∀ r, r.kind = kind → Q (some r) (r ::ₘ own)) (hnone : MayRefuse G → Q none own) :
    Spec G own (.take kind : Script κ ε (Option (Handle κ))) Q E := by
  intro grants hg l frame hl
  cases hgrant : grants l.next with
  | true =>
    simp only [Script.take, hgrant, if_true]
    exact ⟨⟨kind, l.next⟩ ::ₘ own, by rw [Multiset.cons_add, ← hl]; rfl, hsome _ rfl⟩
  | false =>
    simp only [Script.take, hgrant, Bool.false_eq_true, if_false]
    exact ⟨own, hl, hnone ⟨grants, l.next, hg, hgrant⟩⟩

theorem ask {Q : Bool → Multiset (Handle κ) → Prop} (htrue : Q true own)
    (hfalse : MayRefuse G → Q false own) : Spec G own (.ask : Script κ ε Bool) Q E := by
  intro grants hg l frame hl
  refine ⟨own, hl, ?_⟩
  cases hgrant : grants l.next with
  | true => exact htrue
  | false => exact hfalse ⟨grants, l.next, hg, hgrant⟩

theorem ite {p : Prop} [Decidable p] {u : Script κ ε α} (ht : p → Spec G own t Q E)
    (hu : ¬p → Spec G own u Q E) : Spec G own (if p then t else u) Q E := by
  split
  · exact ht ‹_›
  · exact hu ‹_›

variable [DecidableEq κ]

/-- What is owned may be given back. -/
theorem drop {r? : Option (Handle κ)} {rest : Multiset (Handle κ)}
    {Q : Unit → Multiset (Handle κ) → Prop} (hown : own = held r? + rest) (hQ : Q () rest) :
    Spec G own (.drop r? : Script κ ε Unit) Q E := by
  subst hown
  intro grants hg l frame hl
  cases r? with
  | none => exact ⟨rest, hl.trans (by rw [held, Multiset.zero_add]), hQ⟩
  | some r =>
    have hcons : l.out = r ::ₘ (rest + frame) := by
      rw [hl, held, Multiset.add_assoc, Multiset.singleton_add]
    have hmem : r ∈ l.out := hcons ▸ Multiset.mem_cons_self r _
    simp only [Script.drop, if_pos hmem]
    refine ⟨rest, ?_, hQ⟩
    change l.out.erase r = rest + frame
    rw [hcons, Multiset.erase_cons_head]

/-- What is owned may be used. -/
theorem use {r : Handle κ} {Q : Unit → Multiset (Handle κ) → Prop} (hr : r ∈ own) (hQ : Q () own) :
    Spec G own (.use r : Script κ ε Unit) Q E := by
  intro grants hg l frame hl
  have hmem : r ∈ l.out := hl ▸ Multiset.mem_add.mpr (.inl hr)
  simp only [Script.use, if_pos hmem]
  exact ⟨own, hl, hQ⟩

end Spec

end

end Mem
