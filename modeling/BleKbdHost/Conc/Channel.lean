import Mathlib.Data.List.Infix

/-!
# Channels

A trace, newest first, read as the messages of a channel: those that were sent and those that were
received. The channel carries its messages if what was sent is what was received and, behind it,
what is still pending. Then none is lost, none comes twice and none overtakes another.
-/

namespace Conc

/-- The happenings that send a message of the channel, and those that receive one. -/
structure Channel (α μ : Type) where
  sent? : α → Option μ
  received? : α → Option μ

namespace Channel

variable {α μ : Type} (ch : Channel α μ) {l trace : List α} {pending pending' : List μ}

/-- The messages sent, oldest first. -/
def sent (trace : List α) : List μ := (trace.filterMap ch.sent?).reverse

/-- The messages received, oldest first. -/
def received (trace : List α) : List μ := (trace.filterMap ch.received?).reverse

def Carries (trace : List α) (pending : List μ) : Prop :=
  ch.sent trace = ch.received trace ++ pending

variable {ch}

theorem sent_append (l trace : List α) : ch.sent (l ++ trace) = ch.sent trace ++ ch.sent l := by
  rw [sent, List.filterMap_append, List.reverse_append, sent, sent]

theorem received_append (l trace : List α) :
    ch.received (l ++ trace) = ch.received trace ++ ch.received l := by
  rw [received, List.filterMap_append, List.reverse_append, received, received]

theorem sent_eq_nil (h : ∀ a ∈ l, ch.sent? a = none) : ch.sent l = [] := by
  rw [sent, List.filterMap_eq_nil_iff.mpr h]
  rfl

theorem received_eq_nil (h : ∀ a ∈ l, ch.received? a = none) : ch.received l = [] := by
  rw [received, List.filterMap_eq_nil_iff.mpr h]
  rfl

namespace Carries

/-- **Step rule.** What a step sends goes behind what is pending, what it receives comes off the
front. -/
theorem append (h : ch.Carries trace pending)
    (hstep : pending ++ ch.sent l = ch.received l ++ pending') : ch.Carries (l ++ trace) pending' := by
  rw [Carries, sent_append, received_append, h, List.append_assoc, hstep, List.append_assoc]

/-- A step that sends and receives nothing. -/
theorem quiet (h : ch.Carries trace pending)
    (hl : ∀ a ∈ l, ch.sent? a = none ∧ ch.received? a = none) : ch.Carries (l ++ trace) pending := by
  refine h.append ?_
  rw [sent_eq_nil fun a ha => (hl a ha).1, received_eq_nil fun a ha => (hl a ha).2]
  exact List.append_nil pending

/-- Where no two messages are equal, none is received twice and none received is pending. -/
theorem nodup (h : ch.Carries trace pending) (hsent : (ch.sent trace).Nodup) :
    (ch.received trace ++ pending).Nodup := by
  rw [← h]
  exact hsent

end Carries

end Channel

end Conc
