import Mathlib.Algebra.Group.Nat.Defs
import Mathlib.Data.List.TakeWhile
import BleKbdHost.Conc.Feed
import BleKbdHost.Host.Placement

/-!
# Timed waits

The wait loops of the main task compare the tick count with a deadline that was computed with a
wrapping addition. A wait of less than half the range of the counter ends in time unless the counter
wraps between one of its polls and the deadline.
-/

namespace BleKbdHost.Host

open Hid Keys Conc

/-- The deadline of a wait loop. -/
def Label.deadline? : Label → Option UInt32
  | .waitForStartPairing _ deadline | .bondedWait deadline | .connecting deadline => some deadline
  | _ => none

/-- One round of a wait loop: how many ticks after the start it looks at the tick count, and what
its operations find. -/
structure Poll where
  elapsed : Nat
  found : List (Choice × Sys)

/-- No re-pair request is at the head of the queue, and an open is not answered where that is waited
for. -/
def Label.Quiet (l : Label) (s : Sys) : Prop :=
  s.kbd.cmdQueue.items.head? ≠ some .startPairing ∧
    match l with
    | .waitForStartPairing _ _ => True
    | _ => s.kbd.openDoneSem = false

/-- A round of the loop, which began at tick `start`. -/
structure Poll.At (l : Label) (start : UInt32) (p : Poll) : Prop where
  runs : ((kbdMainTask l).feed p.found).isSome = true
  looks : p.found.head?.map (·.2.ticks) = some (start + p.elapsed.toUInt32)
  quiet : ∀ x ∈ p.found, l.Quiet x.2

/-- The round leaves the loop. -/
def Poll.leaves (l : Label) (p : Poll) : Bool := decide ((kbdMainTask l).feed p.found ≠ some l)

/-- The round takes another command from the queue. -/
def Poll.receives (l : Label) (p : Poll) : Bool :=
  match l with
  | .waitForStartPairing _ _ => p.found.getLast?.any fun x => x.2.kbd.cmdQueue.items.head?.isSome
  | _ => false

/-- The round comes when the delay is over. -/
def Poll.due (delay : UInt32) (p : Poll) : Bool := decide (delay.toNat ≤ p.elapsed)

/-- The loop is left in the first round that comes when the delay is over, and in none before. -/
def EndsInTime (l : Label) (delay : UInt32) (polls : List Poll) : Prop :=
  polls.findIdx? (Poll.leaves l) = polls.findIdx? (Poll.due delay)

/-- The counter does not wrap between a round before the deadline and the deadline, nor between the
deadline and the first round from then on, unless the count is past the deadline again; and that round
takes no command. -/
structure OnTime (l : Label) (start delay : UInt32) (polls : List Poll) : Prop where
  before : ∀ p ∈ polls.takeWhile (!·.due delay), p.receives l = true ∨
    (start.toNat + p.elapsed) / 2 ^ 32 = (start.toNat + delay.toNat) / 2 ^ 32
  first : ∀ p, polls.find? (Poll.due delay) = some p → p.receives l = false ∧
    (start.toNat + delay.toNat) % 2 ^ 32 ≤ (start.toNat + p.elapsed) % 2 ^ 32

/-! ## Ticks -/

theorem toNat_tick (start : UInt32) (elapsed : Nat) :
    (start + elapsed.toUInt32).toNat = (start.toNat + elapsed) % 2 ^ 32 := by
  rw [UInt32.toNat_add, Nat.toUInt32, UInt32.toNat_ofNat', Nat.add_mod_mod]

theorem tick_lt_iff (start delay : UInt32) (elapsed : Nat) :
    start + elapsed.toUInt32 < start + delay ↔
      (start.toNat + elapsed) % 2 ^ 32 < (start.toNat + delay.toNat) % 2 ^ 32 := by
  rw [UInt32.lt_iff_toNat_lt, toNat_tick, UInt32.toNat_add]

/-- Before the deadline, the count is below it unless the counter wraps in between. -/
theorem mod_lt_mod_iff {start delay elapsed : Nat} (hdelay : delay < 2 ^ 31)
    (hbefore : elapsed < delay) : (start + elapsed) % 2 ^ 32 < (start + delay) % 2 ^ 32 ↔
      (start + elapsed) / 2 ^ 32 = (start + delay) / 2 ^ 32 := by
  omega

theorem remain_eq_zero_iff (now deadline : UInt32) :
    (if now < deadline then deadline - now else 0) = 0 ↔ ¬now < deadline := by
  by_cases h : now < deadline
  · rw [if_pos h]
    refine ⟨fun hzero => ?_, fun hnot => absurd h hnot⟩
    rw [UInt32.lt_iff_toNat_lt] at h
    have hsub := UInt32.toNat_sub_of_le deadline now (UInt32.le_iff_toNat_le.mpr (Nat.le_of_lt h))
    rw [hzero, UInt32.toNat_zero] at hsub
    omega
  · simp [h]

/-! ## Deadlines

Each wait begins in the last operation of the block before it, which reads the tick count; the
deadline is the requested delay later. -/

/-- The end of a block that begins a wait of `ms` milliseconds. -/
theorem feed_deadline {ms : Nat} {f : UInt32 → Label} {found : List (Choice × Sys)} {l : Label}
    (h : ((msToTicks ms).bind fun ticks => xTaskGetTickCount.bind fun now =>
      .ret (f (now + ticks))).feed found = some l) :
    ∃ y x : Choice × Sys, found = [y, x] ∧
      l = f (x.2.ticks + pdMsToTicks y.2.kbd.cfg.tickRateHz ms) := by
  obtain ⟨y, found, rfl, h₁⟩ := Task.feed_op h
  obtain ⟨x, found, rfl, h₂⟩ := Task.feed_op h₁
  obtain ⟨rfl, rfl⟩ := Task.feed_ret_iff.mp h₂
  exact ⟨y, x, rfl, rfl⟩

theorem deadline_reconnecting {found : List (Choice × Sys)} {l : Label}
    (h : reconnecting.feed found = some l) :
    ∃ x, found = [x] ∧ l.deadline? = some (x.2.ticks + pdMsToTicks x.2.kbd.cfg.tickRateHz 0) := by
  obtain ⟨x, found, rfl, h₁⟩ := Task.feed_op h
  obtain ⟨rfl, rfl⟩ := Task.feed_ret_iff.mp h₁
  refine ⟨x, rfl, ?_⟩
  simp [Label.deadline?, pdMsToTicks]

/-- `reconnect_interval_ms`, or its default. -/
def KbdConfig.interval (cfg : KbdConfig) : UInt32 :=
  if cfg.reconnectIntervalMs = 0 then cfg.defaultReconnectIntervalMs else cfg.reconnectIntervalMs

theorem deadline_reconnectFailed {found : List (Choice × Sys)} {l : Label}
    (h : reconnectFailed.feed found = some l) :
    ∃ w z y x : Choice × Sys, found = [w, z, y, x] ∧ l.deadline? =
      some (x.2.ticks + pdMsToTicks y.2.kbd.cfg.tickRateHz z.2.kbd.cfg.interval.toNat) := by
  obtain ⟨w, found, rfl, h₁⟩ := Task.feed_op h
  obtain ⟨z, found, rfl, h₂⟩ := Task.feed_op h₁
  obtain ⟨y, x, rfl, rfl⟩ := feed_deadline (f := .waitForStartPairing .afterAttempt) h₂
  exact ⟨w, z, y, x, rfl, rfl⟩

/-- What begins with another task. -/
theorem feed_deadline_of_bind {α : Type} {t : Prog α} {ms : Nat} {f : UInt32 → Label}
    {found : List (Choice × Sys)} {l : Label}
    (h : (t.bind fun _ => (msToTicks ms).bind fun ticks => xTaskGetTickCount.bind fun now =>
      .ret (f (now + ticks))).feed found = some l) :
    ∃ (before : List (Choice × Sys)) (y x : Choice × Sys), found = before ++ [y, x] ∧
      l = f (x.2.ticks + pdMsToTicks y.2.kbd.cfg.tickRateHz ms) := by
  obtain ⟨before, rest, -, rfl, -, hrest⟩ := Task.feed_bind_iff.mp h
  obtain ⟨y, x, rfl, rfl⟩ := feed_deadline hrest
  exact ⟨before, y, x, rfl, rfl⟩

theorem deadline_tryReconnect {found : List (Choice × Sys)} {l : Label} {deadline : UInt32}
    (h : tryReconnect.feed found = some l) (hl : l.deadline? = some deadline) :
    ∃ (before : List (Choice × Sys)) (y x : Choice × Sys), found = before ++ [y, x] ∧
      deadline = x.2.ticks + pdMsToTicks y.2.kbd.cfg.tickRateHz 15000 := by
  obtain ⟨v, found, rfl, h₁⟩ := Task.feed_op h
  cases hdev : v.2.kbd.hidhDev with
  | some d =>
    simp only [Task.ret_bind, hdev] at h₁
    obtain ⟨_, rest, dev, -, -, hret⟩ := Task.feed_bind_iff.mp h₁
    cases dev <;> obtain ⟨-, rfl⟩ := Task.feed_ret_iff.mp hret <;> cases hl
  | none =>
    simp only [Task.ret_bind, hdev] at h₁
    obtain ⟨w, found, rfl, h₂⟩ := Task.feed_op h₁
    simp only [Task.ret_bind] at h₂
    generalize (if w.1.rc = 0 then w.2.radio.peerSec.length else 0) = count at h₂
    by_cases hcount : w.1.rc ≠ 0 ∨ count = 0
    · rw [if_pos hcount] at h₂
      obtain ⟨-, rfl⟩ := Task.feed_ret_iff.mp h₂
      cases hl
    rw [if_neg hcount] at h₂
    obtain ⟨z, found, rfl, h₃⟩ := Task.feed_op h₂
    simp only [Task.ret_bind] at h₃
    generalize (if z.1.rc = 0 then z.2.radio.peerSec.head? else none) = peer at h₃
    rcases peer with _ | ⟨bda, addrType⟩
    · obtain ⟨-, rfl⟩ := Task.feed_ret_iff.mp h₃
      cases hl
    obtain ⟨before, rest, _, rfl, -, hrest⟩ := Task.feed_bind_iff.mp h₃
    obtain ⟨before', y, x, rfl, rfl⟩ := feed_deadline_of_bind (f := .bondedWait) hrest
    obtain rfl := Option.some.inj hl
    exact ⟨v :: w :: z :: (before ++ before'), y, x, by simp, rfl⟩

theorem deadline_selected {index : Nat} {found : List (Choice × Sys)} {l : Label}
    (h : (selected index).feed found = some l) :
    ∃ (before : List (Choice × Sys)) (y x : Choice × Sys), found = before ++ [y, x] ∧
      l.deadline? = some (x.2.ticks + pdMsToTicks y.2.kbd.cfg.tickRateHz 60000) := by
  obtain ⟨b₁, found, -, rfl, -, h₁⟩ := Task.feed_bind_iff.mp h
  obtain ⟨b₂, found, -, rfl, -, h₂⟩ := Task.feed_bind_iff.mp h₁
  obtain ⟨b₃, found, sel, rfl, -, h₃⟩ := Task.feed_bind_iff.mp h₂
  obtain ⟨b₄, found, -, rfl, -, h₄⟩ := Task.feed_bind_iff.mp h₃
  obtain ⟨b₅, found, -, rfl, -, h₅⟩ := Task.feed_bind_iff.mp h₄
  obtain ⟨b₆, y, x, rfl, rfl⟩ := feed_deadline_of_bind (f := .connecting) h₅
  exact ⟨b₁ ++ (b₂ ++ (b₃ ++ (b₄ ++ (b₅ ++ b₆)))), y, x, by simp, rfl⟩

/-! ## Rounds -/

/-- A round of `wait_for_start_pairing`: the state in which it looks at the tick count and the one in
which it receives. -/
theorem feed_waitForStartPairing {site : WaitSite} {deadline : UInt32} {found : List (Choice × Sys)}
    {l : Label} (h : (waitForStartPairing site deadline).feed found = some l) :
    ∃ x₁ x₂ x₃ x₄ : Choice × Sys, found = [x₁, x₂, x₃, x₄] ∧ l =
      match x₄.2.kbd.cmdQueue.items.head? with
      | some .startPairing => .doPair
      | some (.selectDevice _) => .waitForStartPairing site deadline
      | none => if x₁.2.ticks < deadline then .waitForStartPairing site deadline else site.next := by
  obtain ⟨x₁, found, rfl, h₁⟩ := Task.feed_op h
  obtain ⟨x₂, found, rfl, h₂⟩ := Task.feed_op h₁
  obtain ⟨x₃, found, rfl, h₃⟩ := Task.feed_op h₂
  obtain ⟨x₄, found, rfl, h₄⟩ := Task.feed_op h₃
  clear h h₁ h₂ h₃
  refine ⟨x₁, x₂, x₃, x₄, ?_⟩
  cases hcmd : x₄.2.kbd.cmdQueue.items.head? with
  | none =>
    simp only [hcmd, remain_eq_zero_iff] at h₄
    by_cases hlt : x₁.2.ticks < deadline
    · rw [if_neg (not_not_intro hlt)] at h₄
      obtain ⟨rfl, rfl⟩ := Task.feed_ret_iff.mp h₄
      exact ⟨rfl, (if_pos hlt).symm⟩
    · rw [if_pos hlt] at h₄
      obtain ⟨rfl, rfl⟩ := Task.feed_ret_iff.mp h₄
      exact ⟨rfl, (if_neg hlt).symm⟩
  | some cmd =>
    simp only [hcmd] at h₄
    cases cmd with
    | startPairing =>
      obtain ⟨rfl, rfl⟩ := Task.feed_ret_iff.mp h₄
      exact ⟨rfl, rfl⟩
    | selectDevice param =>
      obtain ⟨rfl, rfl⟩ := Task.feed_ret_iff.mp h₄
      exact ⟨rfl, rfl⟩

/-- A round of a wait for an open, without an answer or a re-pair request: it goes on as long as the
tick count is below the deadline. -/
theorem feed_awaitOpen {openSite : OpenSite} {site : PollSite} {deadline : UInt32}
    {t u : Prog Label} {l₀ l : Label} {found : List (Choice × Sys)}
    (h : ((beforeDeadline openSite deadline).bind fun before => if before then
      (xSemaphoreTake .openDone 100).bind fun answered => if answered then t else
        (peekStartPairing site).bind fun repair => if repair then u else .ret l₀ else t).feed found =
          some l) (ht : ∀ found, t.feed found ≠ some l₀)
    (hquiet : ∀ x ∈ found, x.2.kbd.cmdQueue.items.head? ≠ some .startPairing ∧
      x.2.kbd.openDoneSem = false) :
    ∃ x rest, found = x :: rest ∧ (l = l₀ ↔ x.2.ticks < deadline) := by
  obtain ⟨x₁, found, rfl, h₁⟩ := Task.feed_op h
  refine ⟨x₁, found, rfl, ?_⟩
  by_cases hlt : x₁.2.ticks < deadline
  · simp only [Task.ret_bind, hlt, decide_true, ↓reduceIte] at h₁
    obtain ⟨x₂, found, rfl, h₂⟩ := Task.feed_op h₁
    obtain ⟨x₃, found, rfl, h₃⟩ := Task.feed_op h₂
    obtain ⟨x₄, found, rfl, h₄⟩ := Task.feed_op h₃
    have hopen : x₄.2.kbd.openDoneSem = false := (hquiet x₄ (by simp)).2
    simp only [Task.ret_bind, Kbd.sem, hopen, Bool.false_eq_true, ↓reduceIte] at h₄
    obtain ⟨x₅, found, rfl, h₅⟩ := Task.feed_op h₄
    have hhead := (hquiet x₅ (by simp)).1
    simp only [Task.ret_bind, beq_iff_eq, hhead, ↓reduceIte] at h₅
    obtain ⟨-, rfl⟩ := Task.feed_ret_iff.mp h₅
    exact ⟨fun _ => hlt, fun _ => rfl⟩
  · simp only [Task.ret_bind, hlt, decide_false, Bool.false_eq_true, ↓reduceIte] at h₁
    refine ⟨fun heq => ?_, fun hlt' => absurd hlt' hlt⟩
    subst heq
    exact absurd h₁ (ht found)

theorem feed_bondedDecide {deadline : UInt32} (found : List (Choice × Sys)) :
    bondedDecide.feed found ≠ some (.bondedWait deadline) := by
  intro h
  refine Task.feed_bind_result (p := fun l => ∀ deadline, l ≠ .bondedWait deadline) h
    (fun ok rest hrest => ?_) deadline rfl
  cases ok with
  | true => exact nomatch (Task.feed_ret_iff.mp hrest).2
  | false =>
    obtain ⟨x, rest, rfl, hrest⟩ := Task.feed_op hrest
    exact nomatch (Task.feed_ret_iff.mp hrest).2

theorem feed_connectDecide {deadline : UInt32} (found : List (Choice × Sys)) :
    connectDecide.feed found ≠ some (.connecting deadline) := by
  intro h
  refine Task.feed_bind_result (p := fun l => ∀ deadline, l ≠ .connecting deadline) h
    (fun ok rest hrest => ?_) deadline rfl
  cases ok with
  | true => exact nomatch (Task.feed_ret_iff.mp hrest).2
  | false =>
    obtain ⟨x, rest, rfl, hrest⟩ := Task.feed_op hrest
    refine Task.feed_bind_result (t := vTaskDelay 1000)
      (p := fun l => ∀ deadline, l ≠ .connecting deadline) hrest fun _ _ hret => ?_
    exact nomatch (Task.feed_ret_iff.mp hret).2

/-- **A round leaves the loop if the tick count is not below the deadline and no command comes.** -/
theorem Poll.leaves_iff {l : Label} {start deadline : UInt32} {p : Poll}
    (hl : l.deadline? = some deadline) (h : p.At l start) :
    p.leaves l = true ↔ ¬start + p.elapsed.toUInt32 < deadline ∧ p.receives l = false := by
  obtain ⟨l', hfeed⟩ := Option.isSome_iff_exists.mp h.runs
  have hlooks := h.looks
  have hquiet := h.quiet
  unfold Poll.leaves Poll.receives
  rw [decide_eq_true_iff, hfeed, ne_eq, Option.some.injEq]
  generalize p.found = found at hfeed hlooks hquiet
  cases l with
  | waitForStartPairing site dl =>
    obtain rfl := Option.some.inj hl
    obtain ⟨x₁, x₂, x₃, x₄, rfl, rfl⟩ := feed_waitForStartPairing hfeed
    rw [← Option.some.inj hlooks]
    have hhead : x₄.2.kbd.cmdQueue.items.head? ≠ some .startPairing := (hquiet x₄ (by simp)).1
    cases hcmd : x₄.2.kbd.cmdQueue.items.head? with
    | none =>
      have hnext : site.next ≠ .waitForStartPairing site dl := by cases site <;> nofun
      by_cases hlt : x₁.2.ticks < dl <;> simp [hcmd, hlt, hnext]
    | some cmd =>
      cases cmd with
      | startPairing => exact absurd hcmd hhead
      | selectDevice param => simp [hcmd]
  | bondedWait dl =>
    obtain rfl := Option.some.inj hl
    obtain ⟨x, rest, rfl, hiff⟩ :=
      @feed_awaitOpen .bonded .bonded _ _ _ _ _ _ hfeed feed_bondedDecide hquiet
    rw [← Option.some.inj hlooks, hiff]
    simp
  | connecting dl =>
    obtain rfl := Option.some.inj hl
    obtain ⟨x, rest, rfl, hiff⟩ :=
      @feed_awaitOpen .selected .connecting _ _ _ _ _ _ hfeed feed_connectDecide hquiet
    rw [← Option.some.inj hlooks, hiff]
    simp
  | _ => cases hl

/-! ## The result -/

/-- Where two searches find the same. -/
theorem findIdx?_eq_iff {α : Type} {p q : α → Bool} : ∀ {l : List α},
    l.findIdx? p = l.findIdx? q ↔ (∀ a ∈ l.takeWhile (!q ·), p a = false) ∧
      ∀ a, l.find? q = some a → p a = true := by
  intro l
  induction l with
  | nil => simp
  | cons a l ih =>
    rw [List.findIdx?_cons, List.findIdx?_cons]
    cases hq : q a with
    | true =>
      cases hp : p a with
      | true => simp [hq, hp]
      | false =>
        simp only [Bool.false_eq_true, ↓reduceIte]
        constructor
        · intro h
          obtain ⟨_, -, hsucc⟩ := Option.map_eq_some_iff.mp h
          cases hsucc
        · intro h
          rw [h.2 a (by simp [hq])] at hp
          cases hp
    | false =>
      cases hp : p a with
      | true =>
        simp only [Bool.false_eq_true, ↓reduceIte]
        constructor
        · intro h
          obtain ⟨_, -, hsucc⟩ := Option.map_eq_some_iff.mp h.symm
          cases hsucc
        · intro h
          rw [h.1 a (by simp [hq])] at hp
          cases hp
      | false =>
        simp only [Bool.false_eq_true, ↓reduceIte]
        rw [Option.map_inj_right fun _ _ => Nat.succ.inj]
        simpa [hq, hp] using ih

/-- **A timed wait ends in time if and only if the counter does not wrap at the wrong moment.** -/
theorem endsInTime_iff (l : Label) (start delay : UInt32) (polls : List Poll)
    (hl : l.deadline? = some (start + delay)) (hdelay : delay.toNat < 2 ^ 31)
    (hpolls : ∀ p ∈ polls, p.At l start) :
    EndsInTime l delay polls ↔ OnTime l start delay polls := by
  have hleaves : ∀ p ∈ polls, (p.leaves l = true ↔ p.receives l = false ∧
      (start.toNat + delay.toNat) % 2 ^ 32 ≤ (start.toNat + p.elapsed) % 2 ^ 32) := by
    intro p hp
    rw [Poll.leaves_iff hl (hpolls p hp), tick_lt_iff, Nat.not_lt, and_comm]
  unfold EndsInTime
  rw [findIdx?_eq_iff]
  have hbefore : ∀ p ∈ polls.takeWhile (!·.due delay), (p.leaves l = false ↔ p.receives l = true ∨
      (start.toNat + p.elapsed) / 2 ^ 32 = (start.toNat + delay.toNat) / 2 ^ 32) := by
    intro p hp
    have hearly : p.elapsed < delay.toNat := by
      simpa [Poll.due] using List.mem_takeWhile_imp hp
    rw [← mod_lt_mod_iff hdelay hearly, ← Bool.not_eq_true, hleaves p ((List.takeWhile_sublist _).mem hp),
      Decidable.not_and_iff_not_or_not, Bool.not_eq_false, Nat.not_le]
  have hfirst : ∀ p, polls.find? (Poll.due delay) = some p → p ∈ polls := fun p hp =>
    List.mem_of_find?_eq_some hp
  constructor
  · rintro ⟨hstay, hleave⟩
    exact ⟨fun p hp => (hbefore p hp).mp (hstay p hp), fun p hp =>
      (hleaves p (hfirst p hp)).mp (hleave p hp)⟩
  · rintro ⟨hstay, hleave⟩
    exact ⟨fun p hp => (hbefore p hp).mpr (hstay p hp), fun p hp =>
      (hleaves p (hfirst p hp)).mpr (hleave p hp)⟩

/-- A round of the wait of `try_bonded_reconnect` that goes on, at tick `now`. -/
def waiting (now : UInt32) : List (Choice × Sys) :=
  List.replicate 5 ({}, { (boot {} []).state with ticks := now })

/-- A round that ends it, at tick `now`. -/
def timedOut (now : UInt32) : List (Choice × Sys) :=
  List.replicate 3 ({}, { (boot {} []).state with ticks := now })

/-- The wait of `try_bonded_reconnect`, 15 seconds of 100 ticks each, with three of its polls. -/
theorem endsInTime_early : EndsInTime (.bondedWait 1505) (pdMsToTicks 100 15000)
    [⟨10, waiting 15⟩, ⟨1498, waiting 1503⟩, ⟨1508, timedOut 1513⟩] := by
  refine (endsInTime_iff (.bondedWait 1505) 5 (pdMsToTicks 100 15000) _ (by decide) (by decide)
    ?_).mpr ⟨by decide, ?_⟩
  · intro p hp
    simp only [List.mem_cons, List.not_mem_nil, or_false] at hp
    rcases hp with rfl | rfl | rfl
    all_goals exact ⟨by decide, by decide, by simp [waiting, timedOut, Label.Quiet, boot]⟩
  · intro p hp
    cases hp
    decide

/-- When it begins 5 ticks before the counter wraps it is over in its first round. -/
theorem not_endsInTime_wrap :
    (⟨1, timedOut 0xfffffffc⟩ : Poll).At (.bondedWait 1495) 0xfffffffb ∧
      ¬EndsInTime (.bondedWait 1495) (pdMsToTicks 100 15000) [⟨1, timedOut 0xfffffffc⟩] := by
  refine ⟨⟨by decide, by decide, by simp [timedOut, Label.Quiet, boot]⟩, ?_⟩
  unfold EndsInTime
  decide

end BleKbdHost.Host
