/-
# Runs of a labelled transition system

A system is a relation `step s a t`: in state `s` the label `a` can lead to `t`.
`Run step s as t` is a finite run with the list of labels `as`.  The rules below
are what a safety proof needs of it: an invariant kept by every step holds after
every run (`Run.invariant`), and a relation kept by matching steps carries runs of
one system to runs of another (`Run.simulate`).  `Guarded G step` keeps only the
steps that meet the condition `G` on the state before them and the label, so that
`Run (Guarded G step)` are the runs whose steps all meet the condition.  `Recorded next step`
keeps a record beside the state that no step looks at.
-/

import Mathlib.Logic.Relation

namespace OS391
namespace Lib

variable {σ τ α β : Type*}

/-- A finite run: the labels of its steps between the first and the last state. -/
inductive Run (step : σ → α → σ → Prop) : σ → List α → σ → Prop
  | nil (s : σ) : Run step s [] s
  | cons {s t u : σ} {a : α} {as : List α} (h : step s a t) (hr : Run step t as u) :
      Run step s (a :: as) u

/-- The steps whose label and first state meet the condition `G`. -/
def Guarded (G : σ → α → Prop) (step : σ → α → σ → Prop) : σ → α → σ → Prop :=
  fun s a t => G s a ∧ step s a t

variable {step : σ → α → σ → Prop}

/-- **An invariant kept by every step holds after every run.** -/
theorem Run.invariant {I : σ → Prop} (hstep : ∀ s a t, I s → step s a t → I t) {s u : σ}
    {as : List α} (hr : Run step s as u) (hs : I s) : I u := by
  induction hr with
  | nil => exact hs
  | cons h _ ih => exact ih (hstep _ _ _ hs h)

theorem Run.append {s t u : σ} {as bs : List α} (hr : Run step s as t) (hr' : Run step t bs u) :
    Run step s (as ++ bs) u := by
  induction hr with
  | nil => exact hr'
  | cons h _ ih => exact .cons h (ih hr')

theorem Run.single {s t : σ} {a : α} (h : step s a t) : Run step s [a] t :=
  .cons h (.nil t)

/-- A run of fewer steps is a run of more. -/
theorem Run.mono {step' : σ → α → σ → Prop} (h : ∀ s a t, step s a t → step' s a t) {s u : σ}
    {as : List α} (hr : Run step s as u) : Run step' s as u := by
  induction hr with
  | nil => exact .nil _
  | cons hs _ ih => exact .cons (h _ _ _ hs) ih

/-- **Two conditions on the steps that agree wherever an invariant holds** have the same
runs; the invariant has to survive only the steps that meet the first. -/
theorem Run.guarded_congr {I : σ → Prop} {G G' : σ → α → Prop}
    (hiff : ∀ s a, I s → (G s a ↔ G' s a)) (hI : ∀ s a t, I s → G s a → step s a t → I t)
    {s t : σ} {as : List α} (hs : I s) :
    Run (Guarded G step) s as t ↔ Run (Guarded G' step) s as t := by
  constructor <;> intro hr
  · induction hr with
    | nil => exact .nil _
    | cons h _ ih => exact .cons ⟨(hiff _ _ hs).1 h.1, h.2⟩ (ih (hI _ _ _ hs h.1 h.2))
  · induction hr with
    | nil => exact .nil _
    | cons h _ ih =>
      have hG := (hiff _ _ hs).2 h.1
      exact .cons ⟨hG, h.2⟩ (ih (hI _ _ _ hs hG h.2))

/-- **Simulation of runs.**  When related states answer each step with a step of the
same label into related states, a run of the first system is matched by a run of the
second. -/
theorem Run.simulate (step' : τ → α → τ → Prop) {R : σ → τ → Prop}
    (h : ∀ s a t s', R s s' → step s a t → ∃ t', R t t' ∧ step' s' a t') {s u : σ} {as : List α}
    (hr : Run step s as u) {s' : τ} (hs : R s s') : ∃ u', R u u' ∧ Run step' s' as u' := by
  induction hr generalizing s' with
  | nil => exact ⟨s', hs, .nil s'⟩
  | cons hstep _ ih =>
    obtain ⟨t', ht, hstep'⟩ := h _ _ _ _ hs hstep
    obtain ⟨u', hu, hr'⟩ := ih ht
    exact ⟨u', hu, .cons hstep' hr'⟩

/-- **Simulation by stuttering steps.**  The matching system has no labels and may
answer a step with any number of its own. -/
theorem Run.simulate_star (move : τ → τ → Prop) {R : σ → τ → Prop}
    (h : ∀ s a t s', R s s' → step s a t → ∃ t', R t t' ∧ Relation.ReflTransGen move s' t')
    {s u : σ} {as : List α} (hr : Run step s as u) {s' : τ} (hs : R s s') :
    ∃ u', R u u' ∧ Relation.ReflTransGen move s' u' := by
  induction hr generalizing s' with
  | nil => exact ⟨s', hs, .refl⟩
  | cons hstep _ ih =>
    obtain ⟨t', ht, hmove⟩ := h _ _ _ _ hs hstep
    obtain ⟨u', hu, hmove'⟩ := ih ht
    exact ⟨u', hu, hmove.trans hmove'⟩

/-- The steps with a record `η` of what happened, kept by `next` beside the state. -/
def Recorded {η : Type*} (next : σ → η → α → η) (step : σ → α → σ → Prop) :
    σ × η → α → σ × η → Prop :=
  fun p a q => step p.1 a q.1 ∧ q.2 = next p.1 p.2 a

end Lib
end OS391
