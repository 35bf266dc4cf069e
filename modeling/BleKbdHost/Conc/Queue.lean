/-!
# Bounded queues

A first-in first-out queue of at most `n` messages whose `send` drops the message when no slot is
free, and the order in which numbered messages are handled.
-/

namespace Conc

/-- The messages that are queued, oldest first. -/
structure BoundedQueue (n : Nat) (α : Type) where
  items : List α
  bounded : items.length ≤ n
  deriving DecidableEq

namespace BoundedQueue

variable {n : Nat} {α : Type}

def empty : BoundedQueue n α := ⟨[], Nat.zero_le n⟩

/-- A slot is free. -/
def hasRoom (q : BoundedQueue n α) : Bool := q.items.length < n

/-- Appends the message when a slot is free and drops it otherwise. -/
def send (q : BoundedQueue n α) (a : α) : BoundedQueue n α :=
  if h : q.items.length < n then ⟨q.items ++ [a], by rw [List.length_append]; exact h⟩ else q

/-- The queue without its oldest message. -/
def tail (q : BoundedQueue n α) : BoundedQueue n α :=
  ⟨q.items.tail, Nat.le_trans (by rw [List.length_tail]; exact Nat.sub_le ..) q.bounded⟩

@[simp] theorem items_empty : (empty : BoundedQueue n α).items = [] := rfl

@[simp] theorem items_tail (q : BoundedQueue n α) : q.tail.items = q.items.tail := rfl

theorem items_send (q : BoundedQueue n α) (a : α) :
    (q.send a).items = if q.hasRoom then q.items ++ [a] else q.items := by
  unfold send hasRoom
  by_cases h : q.items.length < n <;> simp [h]

theorem items_send_of_hasRoom {q : BoundedQueue n α} (h : q.hasRoom = true) (a : α) :
    (q.send a).items = q.items ++ [a] := by
  rw [items_send, if_pos h]

end BoundedQueue

/-! ## Numbered messages -/

/-- Messages are numbered as they are sent, and handled in the order of their numbers: those that
are `pending`, the `next` number, and those that are `handled`. -/
structure InOrder (pending : List Nat) (next : Nat) (handled : Nat → Prop) : Prop where
  ordered : pending.Pairwise (· < ·)
  numbered : ∀ n ∈ pending, n < next
  handled : ∀ n, handled n → n < next ∧ ∀ m ∈ pending, n < m

namespace InOrder

variable {pending : List Nat} {next n m : Nat} {handled handled' : Nat → Prop}

theorem send (h : InOrder pending next handled) :
    InOrder (pending ++ [next]) (next + 1) handled where
  ordered := by
    refine List.pairwise_append.mpr ⟨h.ordered, List.pairwise_singleton .., fun n hn m hm => ?_⟩
    rw [List.mem_singleton.mp hm]
    exact h.numbered n hn
  numbered n hn := by
    rcases List.mem_append.mp hn with hn | hn
    · exact Nat.lt_succ_of_lt (h.numbered n hn)
    · rw [List.mem_singleton.mp hn]
      exact Nat.lt_succ_self next
  handled n hn := by
    obtain ⟨hlt, hbefore⟩ := h.handled n hn
    refine ⟨Nat.lt_succ_of_lt hlt, fun m hm => ?_⟩
    rcases List.mem_append.mp hm with hm | hm
    · exact hbefore m hm
    · rwa [List.mem_singleton.mp hm]

/-- The oldest message is handled. -/
theorem finish (h : InOrder (n :: pending) next handled)
    (hhandled : ∀ m, handled' m → m = n ∨ handled m) : InOrder pending next handled' where
  ordered := h.ordered.of_cons
  numbered m hm := h.numbered m (List.mem_cons_of_mem n hm)
  handled m hm := by
    rcases hhandled m hm with rfl | hm
    · exact ⟨h.numbered m List.mem_cons_self, (List.pairwise_cons.mp h.ordered).1⟩
    · obtain ⟨hlt, hbefore⟩ := h.handled m hm
      exact ⟨hlt, fun k hk => hbefore k (List.mem_cons_of_mem n hk)⟩

/-- A message that is still pending was not handled. -/
theorem not_handled (h : InOrder pending next handled) (hn : n ∈ pending) : ¬handled n :=
  fun hhandled => Nat.lt_irrefl n ((h.handled n hhandled).2 n hn)

theorem head_le (h : InOrder (n :: pending) next handled) (hm : m ∈ n :: pending) : n ≤ m := by
  rcases List.mem_cons.mp hm with rfl | hm
  · exact Nat.le_refl m
  · exact Nat.le_of_lt ((List.pairwise_cons.mp h.ordered).1 m hm)

end InOrder

end Conc
