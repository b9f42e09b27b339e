import Hashboard.Proofs.PollLoop

/-!
# Histories of a poll loop

Callers may offer items of any epoch, drop stale ones, empty the queue, arm a flush and set the clock to any
epoch. They may do so while a cycle is on the bus, or a cycle may be one step for them. A history lists what
happened, with the loop before and after each step.
-/

namespace Hashboard.PollLoop

/-! ## Calls -/

/-- What a caller does to the queue or to the clock. -/
inductive Call where
  | append (item : Item)
  | prune
  | flush (now : Instant)
  | armFlush
  | advance (epoch : UInt64) (keepInFlight : Bool)

def call (s : PollLoop) : Call → PollLoop
  | .append item => s.append item
  | .prune => { s with queue := s.queue.prune s.clock }
  | .flush now => { s with queue := (s.queue.flush s.clock now).2 }
  | .armFlush => { s with queue := s.queue.armFlush }
  | .advance epoch keepInFlight => { s with clock := s.clock.advance epoch keepInFlight }

variable {s s' : PollLoop}

@[simp] theorem poller_call (s : PollLoop) (c : Call) : (s.call c).poller = s.poller := by
  cases c <;> rfl

@[simp] theorem running_call (s : PollLoop) (c : Call) : (s.call c).running = s.running := by
  cases c <;> rfl

@[simp] theorem inFlight_call (s : PollLoop) (c : Call) : (s.call c).inFlight = s.inFlight := by
  cases c <;> rfl

@[simp] theorem newestInFlight_call (s : PollLoop) (c : Call) :
    (s.call c).queue.newestInFlight = s.queue.newestInFlight := by
  cases c with
  | append item => exact WorkQueue.newestInFlight_append
  | prune => rfl
  | flush now => exact WorkQueue.newestInFlight_flush
  | armFlush => rfl
  | advance epoch keepInFlight => rfl

/-! ## Moves -/

/-- What can happen if callers do not wait for the end of a cycle. -/
inductive Move where
  | call (call : Call)
  | begin (now : Instant)
  | finish (exchange : Exchange)

/-- The loop after a move: none if it cannot happen now. At most one cycle is on the bus. -/
def move? (s : PollLoop) : Move → Option PollLoop
  | .call call => some (s.call call)
  | .begin now => if s.running.isNone then some (s.begin now) else none
  | .finish exchange => s.finish? exchange

/-- The cycle that begins now. -/
def cycle (s : PollLoop) (now : Instant) : PollCycle :=
  (s.poller.begin s.clock now s.queue).1

/-- All that a move can do. -/
theorem move?_cases {move : Move} (h : s.move? move = some s') :
    (∃ c, move = .call c ∧ s' = s.call c) ∨
      (∃ now, move = .begin now ∧ s.running = none ∧ s' = s.begin now) ∨
      (∃ cycle rx, move = .finish (.received rx) ∧ s.running = some cycle ∧ s' = s.received cycle rx) ∨
      (∃ cycle error, move = .finish (.failed error) ∧ s.running = some cycle ∧ s' = s.failed cycle) := by
  cases move with
  | call c => exact Or.inl ⟨c, rfl, (Option.some.inj h).symm⟩
  | begin now =>
      simp only [move?, Option.ite_none_right_eq_some, Option.some.injEq, Option.isNone_iff_eq_none] at h
      exact Or.inr (Or.inl ⟨now, rfl, h.1, h.2.symm⟩)
  | finish exchange =>
      obtain ⟨cycle, hr, ⟨rx, rfl, rfl⟩ | ⟨error, rfl, rfl⟩⟩ := finish?_cases h
      · exact Or.inr (Or.inr (Or.inl ⟨cycle, rx, rfl, hr, rfl⟩))
      · exact Or.inr (Or.inr (Or.inr ⟨cycle, error, rfl, hr, rfl⟩))

/-! ## Turns -/

/-- What can happen if callers wait for the end of a cycle. -/
inductive Turn where
  | call (call : Call)
  | poll (now : Instant) (exchange : Exchange)

/-- The loop after a turn: none if it cannot happen now. -/
def turn? (s : PollLoop) : Turn → Option PollLoop
  | .call call => some (s.call call)
  | .poll now exchange => if s.running.isNone then (s.begin now).finish? exchange else none

/-- All that a turn can do. -/
theorem turn?_cases {turn : Turn} (h : s.turn? turn = some s') :
    (∃ c, turn = .call c ∧ s' = s.call c) ∨
      (∃ now rx, turn = .poll now (.received rx) ∧ s' = (s.begin now).received (s.cycle now) rx) ∨
      (∃ now error, turn = .poll now (.failed error) ∧ s' = (s.begin now).failed (s.cycle now)) := by
  cases turn with
  | call c => exact Or.inl ⟨c, rfl, (Option.some.inj h).symm⟩
  | poll now exchange =>
      simp only [turn?, Option.ite_none_right_eq_some] at h
      obtain ⟨cycle, hr, hend⟩ := finish?_cases h.2
      obtain rfl : s.cycle now = cycle := Option.some.inj hr
      rcases hend with ⟨rx, rfl, rfl⟩ | ⟨error, rfl, rfl⟩
      · exact Or.inr (Or.inl ⟨now, rx, rfl, rfl⟩)
      · exact Or.inr (Or.inr ⟨now, error, rfl, rfl⟩)

theorem turn?_received (h : s.running = none) (now : Instant) (rx : List UInt8) :
    s.turn? (.poll now (.received rx)) = some ((s.begin now).received (s.cycle now) rx) := by
  simp only [turn?, h, Option.isNone_none, if_true]
  exact finish?_received rfl rx

theorem turn?_failed (h : s.running = none) (now : Instant) (error : BusError) :
    s.turn? (.poll now (.failed error)) = some ((s.begin now).failed (s.cycle now)) := by
  simp only [turn?, h, Option.isNone_none, if_true]
  exact finish?_failed rfl error

/-! ## Histories -/

/-- A step of a run, with the loop before and after it. -/
structure Step (α : Type) where
  before : PollLoop
  action : α
  after : PollLoop

section Histories

variable {α : Type} {step? : PollLoop → α → Option PollLoop} {s₀ s₁ : PollLoop}
  {past later : List (Step α)}

/-- The loop that a history leads to from `s₀`; the oldest step comes first. -/
inductive Reached (step? : PollLoop → α → Option PollLoop) (s₀ : PollLoop) :
    List (Step α) → PollLoop → Prop where
  | start : Reached step? s₀ [] s₀
  | step {past s action s'} : Reached step? s₀ past s → step? s action = some s' →
      Reached step? s₀ (past ++ [⟨s, action, s'⟩]) s'

/-- What each step preserves, a history preserves. -/
theorem Reached.preserves {P : PollLoop → Prop} (h : Reached step? s₀ past s)
    (hstep : ∀ {s action s'}, step? s action = some s' → P s → P s') (hs : P s₀) : P s := by
  induction h with
  | start => exact hs
  | step _ h ih => exact hstep h ih

theorem Reached.trans (h : Reached step? s₀ past s) (hlater : Reached step? s later s₁) :
    Reached step? s₀ (past ++ later) s₁ := by
  induction hlater with
  | start => rwa [List.append_nil]
  | step _ hs ih =>
      rw [← List.append_assoc]
      exact .step ih hs

end Histories

end Hashboard.PollLoop
