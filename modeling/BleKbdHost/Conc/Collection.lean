import Mathlib.Data.List.Basic
import BleKbdHost.Conc.Trace

/-!
# Collecting into an array

One party asks for a sequence of items, another one stores them into an array of fixed size and
counts them, and then the first one goes through the array. The counter outlives the array: only
`done` resets it, and a request finds it where it was left.
-/

namespace Conc

variable {α : Type}

/-- What happens to a collection. -/
inductive CollectStep (α : Type) where
  | requested
  | reported (a : α)
  | processed (a : α)
  | done
  deriving DecidableEq, Repr

namespace CollectStep

def isRequest : CollectStep α → Bool
  | .requested => true
  | _ => false

def reported? : CollectStep α → Option α
  | .reported a => some a
  | _ => none

def processed? : CollectStep α → Option α
  | .processed a => some a
  | _ => none

end CollectStep

/-- The items reported since the last request, in order. -/
def reported (log : List (CollectStep α)) : List α :=
  ((since CollectStep.isRequest log).filterMap CollectStep.reported?).reverse

/-- The items processed since the last request, in order. -/
def processed (log : List (CollectStep α)) : List α :=
  ((since CollectStep.isRequest log).filterMap CollectStep.processed?).reverse

section Log

variable {log : List (CollectStep α)} {a : α}

theorem since_isRequest_cons (step : CollectStep α) (h : step.isRequest = false) :
    since CollectStep.isRequest (step :: log) = step :: since CollectStep.isRequest log :=
  since_append (l := [step]) (by simpa using h)

@[simp] theorem reported_requested : reported (.requested :: log) = [] := rfl

@[simp] theorem reported_reported : reported (.reported a :: log) = reported log ++ [a] := by
  simp [reported, since_isRequest_cons (.reported a) rfl, CollectStep.reported?]

@[simp] theorem reported_processed : reported (.processed a :: log) = reported log := by
  simp [reported, since_isRequest_cons (.processed a) rfl, List.filterMap_cons,
    CollectStep.reported?]

@[simp] theorem reported_done : reported (.done :: log) = reported log := by
  simp [reported, since_isRequest_cons .done rfl, List.filterMap_cons, CollectStep.reported?]

@[simp] theorem processed_requested : processed (.requested :: log) = [] := rfl

@[simp] theorem processed_reported : processed (.reported a :: log) = processed log := by
  simp [processed, since_isRequest_cons (.reported a) rfl, List.filterMap_cons,
    CollectStep.processed?]

@[simp] theorem processed_processed : processed (.processed a :: log) = processed log ++ [a] := by
  simp [processed, since_isRequest_cons (.processed a) rfl, CollectStep.processed?]

@[simp] theorem processed_done : processed (.done :: log) = processed log := by
  simp [processed, since_isRequest_cons .done rfl, List.filterMap_cons, CollectStep.processed?]

/-- Where nothing was reported at all. -/
theorem reported_eq_nil (h : ∀ a, .reported a ∉ log) : reported log = [] := by
  rw [reported, List.reverse_eq_nil_iff, List.filterMap_eq_nil_iff]
  intro step hstep
  cases step with
  | reported a => exact absurd (mem_of_mem_since hstep) (h a)
  | _ => rfl

/-- The item comes next. -/
def Next (a : α) (log : List (CollectStep α)) : Prop := processed log ++ [a] <+: reported log

/-- What was reported has been processed, and nothing else. -/
def Exact (log : List (CollectStep α)) : Prop := processed log = reported log

end Log

/-- The array, whose slots are `none` before they are written, its counter, and what happened. -/
structure Collection (α : Type) where
  slots : List (Option α)
  count : Nat
  log : List (CollectStep α)

namespace Collection

def request (n : Nat) (c : Collection α) : Collection α :=
  { c with slots := List.replicate n none, log := .requested :: c.log }

def report (a : α) (c : Collection α) : Collection α :=
  ⟨c.slots.set c.count (some a), c.count + 1, .reported a :: c.log⟩

def process (a : α) (c : Collection α) : Collection α := { c with log := .processed a :: c.log }

/-- The end, where the counter is reset. -/
def done (c : Collection α) : Collection α := { c with count := 0, log := .done :: c.log }

/-- The array of size `n` holds what was reported, and the first `i` items are processed. -/
structure Holds (n i : Nat) (c : Collection α) : Prop where
  slots : c.slots = (reported c.log).map some ++ List.replicate (n - (reported c.log).length) none
  room : (reported c.log).length ≤ n
  count : c.count = (reported c.log).length
  processed : processed c.log = (reported c.log).take i

/-- Nothing is counted, and what was reported is processed. -/
structure Idle (c : Collection α) : Prop where
  count : c.count = 0
  exact : Exact c.log

/-- `m` items are left behind the first `i`. -/
def Left (n i m : Nat) (c : Collection α) : Prop := c.Holds n i ∧ c.count = i + m

variable {c : Collection α} {n i m : Nat} {a : α}

/-- A request needs a counter that was reset. -/
theorem Holds.of_request (n : Nat) (h : c.count = 0) : (c.request n).Holds n 0 where
  slots := by simp [request]
  room := Nat.zero_le n
  count := h
  processed := rfl

theorem Holds.length (h : c.Holds n i) : c.slots.length = n := by
  have hroom := h.room
  rw [h.slots, List.length_append, List.length_map, List.length_replicate]
  omega

theorem Holds.report (h : c.Holds n 0) (hroom : (reported c.log).length < n) :
    (c.report a).Holds n 0 where
  slots := by
    obtain ⟨k, hk⟩ : ∃ k, n - (reported c.log).length = k + 1 :=
      ⟨n - (reported c.log).length - 1, by omega⟩
    have hk' : n - ((reported c.log).length + 1) = k := by omega
    simp only [Collection.report, reported_reported, List.map_append, List.map_cons, List.map_nil,
      List.length_append, List.length_singleton, hk']
    rw [h.slots, h.count, hk, List.set_append_right _ _ (by simp), List.length_map, Nat.sub_self,
      List.replicate_succ, List.set_cons_zero, List.append_assoc, List.singleton_append]
  room := by simpa [Collection.report] using Nat.succ_le_of_lt hroom
  count := by simp [Collection.report, h.count]
  processed := by simpa [Collection.report] using h.processed

/-- The next slot holds the next item. -/
theorem Left.slot (h : c.Left n i (m + 1)) : ∃ a, c.slots[i]? = some (some a) ∧ Next a c.log := by
  obtain ⟨h, hleft⟩ := h
  have hi : i < (reported c.log).length := by
    rw [h.count] at hleft
    omega
  refine ⟨(reported c.log)[i], ?_, ?_⟩
  · rw [h.slots, List.getElem?_append_left (by simpa using hi), List.getElem?_map,
      List.getElem?_eq_getElem hi, Option.map_some]
  · rw [Next, h.processed, ← List.take_succ_eq_append_getElem hi]
    exact List.take_prefix _ _

theorem Left.process (h : c.Left n i (m + 1)) (hslot : c.slots[i]? = some (some a)) :
    (c.process a).Left n (i + 1) m := by
  obtain ⟨a', hslot', hnext⟩ := h.slot
  obtain rfl : a' = a := Option.some.inj (Option.some.inj (hslot'.symm.trans hslot))
  obtain ⟨h, hleft⟩ := h
  refine ⟨⟨by simpa [Collection.process] using h.slots, by simpa [Collection.process] using h.room,
    by simpa [Collection.process] using h.count, ?_⟩, by simp [Collection.process, hleft]; omega⟩
  -- the prefix that is processed has one more item
  have hlength : (processed c.log ++ [a']).length = i + 1 := by
    have hi : i ≤ (reported c.log).length := by
      rw [← h.count, hleft]
      exact Nat.le_add_right _ _
    simp [h.processed, hi]
  simp only [Collection.process, processed_processed, reported_processed]
  rw [List.prefix_iff_eq_take.mp hnext, hlength]

theorem Left.le (h : c.Left n i m) : i + m ≤ n := by
  rw [← h.2, h.1.count]
  exact h.1.room

theorem Left.exact (h : c.Left n i 0) : Exact c.log := by
  obtain ⟨h, hleft⟩ := h
  rw [Exact, h.processed, List.take_of_length_le]
  rw [← h.count, hleft]
  exact Nat.le_refl _

theorem Left.done (h : c.Left n i 0) : c.done.Idle :=
  ⟨rfl, by simpa [Exact, Collection.done] using h.exact⟩

/-- Where nothing was reported, the counter is at 0. -/
theorem Holds.count_eq_zero (h : c.Holds n i) (hnone : ∀ a, .reported a ∉ c.log) : c.count = 0 := by
  rw [h.count, reported_eq_nil hnone]
  rfl

end Collection

end Conc
