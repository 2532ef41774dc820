/-
# Straight-line code that can be interrupted

A piece of code without jumps is the list of its statements, each a function on the
state.  Between two statements the environment may step in: `env s t` is what an
interrupt taken in `s` can do.  A `Point` is a place in the execution, the
statements still to run and the state.

Where `env` can never fire, the reachable points are the ones the code passes by
itself (`Point.exists_of_reach`); whether or not it can, all of those are
reachable (`Point.reach_append`).
-/

import Mathlib.Logic.Relation
import Mathlib.Data.List.Basic
import Mathlib.Tactic.Common

namespace OS391
namespace Lib

variable {σ : Type*}

/-- The statements in order, without interruption. -/
def runAll (code : List (σ → σ)) (s : σ) : σ := code.foldl (fun s f => f s) s

@[simp] theorem runAll_nil (s : σ) : runAll [] s = s := rfl

@[simp] theorem runAll_cons (f : σ → σ) (code : List (σ → σ)) (s : σ) :
    runAll (f :: code) s = runAll code (f s) := rfl

@[simp] theorem runAll_append (code code' : List (σ → σ)) (s : σ) :
    runAll (code ++ code') s = runAll code' (runAll code s) := List.foldl_append

/-- A property each statement keeps is kept by the code. -/
theorem runAll_invariant {P : σ → Prop} {code : List (σ → σ)}
    (h : ∀ f ∈ code, ∀ s, P s → P (f s)) {s : σ} (hs : P s) : P (runAll code s) := by
  induction code generalizing s with
  | nil => exact hs
  | cons f code ih =>
    exact ih (fun g hg => h g (List.mem_cons_of_mem _ hg)) (h f (List.mem_cons_self ..) s hs)

/-- A place in the execution: the statements still to run, and the state. -/
structure Point (σ : Type*) where
  rest : List (σ → σ)
  state : σ

/-- One step: the next statement, or an interrupt before it. -/
inductive Point.Step (env : σ → σ → Prop) : Point σ → Point σ → Prop
  | stmt (f : σ → σ) (rest : List (σ → σ)) (s : σ) : Step env ⟨f :: rest, s⟩ ⟨rest, f s⟩
  | intr {s t : σ} (rest : List (σ → σ)) (h : env s t) : Step env ⟨rest, s⟩ ⟨rest, t⟩

/-- The points reachable from the beginning of `code` in state `s`. -/
def Point.Reach (env : σ → σ → Prop) (code : List (σ → σ)) (s : σ) (p : Point σ) : Prop :=
  Relation.ReflTransGen (Point.Step env) ⟨code, s⟩ p

/-- Every point the code passes by itself is reachable. -/
theorem Point.reach_append (env : σ → σ → Prop) (code rest : List (σ → σ)) (s : σ) :
    Point.Reach env (code ++ rest) s ⟨rest, runAll code s⟩ := by
  induction code generalizing s with
  | nil => exact .refl
  | cons f code ih => exact .head (.stmt f (code ++ rest) s) (ih (f s))

/-- **Masked code runs by itself.**  If no interrupt can be taken at any of the points
the code passes by itself, these are the only reachable ones. -/
theorem Point.exists_of_reach {env : σ → σ → Prop} {code : List (σ → σ)} {s : σ}
    (hmask : ∀ pre post, code = pre ++ post → ∀ t, ¬ env (runAll pre s) t) {p : Point σ}
    (hp : Point.Reach env code s p) : ∃ pre, code = pre ++ p.rest ∧ p.state = runAll pre s := by
  induction hp with
  | refl => exact ⟨[], rfl, rfl⟩
  | tail _ hstep ih =>
    obtain ⟨pre, hcode, hstate⟩ := ih
    cases hstep with
    | stmt f rest t =>
      obtain rfl : t = runAll pre s := hstate
      exact ⟨pre ++ [f], by simpa using hcode, by simp⟩
    | @intr t u rest h =>
      obtain rfl : t = runAll pre s := hstate
      exact absurd h (hmask pre rest hcode u)

end Lib
end OS391
