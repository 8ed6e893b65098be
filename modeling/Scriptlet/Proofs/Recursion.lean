import Mathlib.Dynamics.FixedPoints.Basic
import Mathlib.Tactic.Common

/-!
# Recursion as a fixed point

A recursive function solves an equation: it is a fixed point of its step, which is its body
with the recursive calls left open. If the step answers a question by answers to questions
of a smaller measure, then the equation has one solution, and the step repeated often
enough gives its answers, whatever the recursion starts from.
-/

namespace Scriptlet

/-- A recursion that ends: its equation has one solution, and as many rounds as the measure
of a question says give the answer to it, whatever they start from. -/
structure Settles {α ι β : Type} (look : ι → α → β) (measure : ι → ℕ) (step : α → α)
    (solution : α) : Prop where
  unique : ∀ a, Function.IsFixedPt step a ↔ a = solution
  reached : ∀ start i rounds, measure i < rounds → look i (step^[rounds] start) = look i solution

/-- A step that answers a question by answers to questions of a smaller measure. `look` is
the answer of a candidate to a question. What smaller questions come up may depend on the
answers so far, so the step may rely on smaller answers being `regular`, and has to give
such answers itself. -/
structure Descends {α ι β : Type} (look : ι → α → β) (measure : ι → ℕ) (regular : ι → β → Prop)
    (step : α → α) : Prop where
  ext : ∀ {a b : α}, (∀ i, look i a = look i b) → a = b
  step : ∀ {a b : α} {i : ι},
    (∀ j, measure j < measure i → look j a = look j b ∧ regular j (look j a)) →
    look i (step a) = look i (step b) ∧ regular i (look i (step a))

namespace Descends

variable {α ι β : Type} {look : ι → α → β} {measure : ι → ℕ} {regular : ι → β → Prop}
  {step : α → α}

/-- Enough rounds give an answer that depends neither on their number nor on the start. -/
theorem iterate (descends : Descends look measure regular step) (a b : α) {m n : ℕ} {i : ι}
    (enough : measure i < m) (enough' : measure i < n) :
    look i (step^[m] a) = look i (step^[n] b) ∧ regular i (look i (step^[m] a)) := by
  induction m generalizing n i with
  | zero => omega
  | succ m ih =>
    obtain ⟨n, rfl⟩ : ∃ k, n = k + 1 := ⟨n - 1, by omega⟩
    rw [Function.iterate_succ_apply', Function.iterate_succ_apply']
    apply descends.step
    intro j smaller
    exact ih (by omega) (by omega)

/-- What enough rounds give solves the equation, and nothing else does. -/
theorem settles (descends : Descends look measure regular step) (start : α) {solution : α}
    (rounds : ∀ i, look i solution = look i (step^[measure i + 1] start)) :
    Settles look measure step solution where
  unique a := by
    constructor
    · intro fixed
      apply descends.ext
      intro i
      rw [rounds, ← fixed.iterate (measure i + 1)]
      exact (descends.iterate a start (by omega) (by omega)).1
    · rintro rfl
      apply descends.ext
      intro i
      -- for smaller questions the solution's answers are those of one round less
      rw [rounds i, Function.iterate_succ_apply']
      refine (descends.step fun j smaller => ?_).1
      rw [rounds j]
      exact descends.iterate start start (by omega) smaller
  reached other i n enough := by
    rw [rounds]
    exact (descends.iterate other start enough (by omega)).1

end Descends
end Scriptlet
