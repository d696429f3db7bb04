import Mathlib.Data.PNat.Defs

namespace JJMCP.Lib

variable {α : Type*}

/-- A queue of bounded length. -/
structure Pipe (α : Type*) where
  capacity : ℕ+
  queue : List α := []
  bounded : queue.length ≤ capacity := by exact Nat.zero_le _

namespace Pipe

def Full (p : Pipe α) : Prop := p.queue.length = p.capacity

/-- Appends a list that fits. -/
def push (p : Pipe α) (xs : List α) : Option (Pipe α) :=
  if h : p.queue.length + xs.length ≤ p.capacity then
    some { p with queue := p.queue ++ xs, bounded := by simpa using h }
  else none

def drop (p : Pipe α) (n : Nat) : Pipe α :=
  { p with
    queue := p.queue.drop n
    bounded := by
      have h := p.bounded
      rw [List.length_drop]
      omega }

theorem push_eq_some {p q : Pipe α} {xs : List α} (h : p.push xs = some q) :
    q.capacity = p.capacity ∧ q.queue = p.queue ++ xs := by
  by_cases hfit : p.queue.length + xs.length ≤ p.capacity
  · rw [push, dif_pos hfit] at h
    obtain rfl := Option.some.inj h
    exact ⟨rfl, rfl⟩
  · rw [push, dif_neg hfit] at h
    cases h

theorem push_isSome {p : Pipe α} {xs : List α} (h : p.queue.length + xs.length ≤ p.capacity) :
    ∃ q, p.push xs = some q :=
  ⟨_, dif_pos h⟩

@[simp] theorem drop_capacity (p : Pipe α) (n : Nat) : (p.drop n).capacity = p.capacity := rfl

@[simp] theorem drop_queue (p : Pipe α) (n : Nat) : (p.drop n).queue = p.queue.drop n := rfl

end Pipe

end JJMCP.Lib
