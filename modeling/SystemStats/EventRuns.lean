import Mathlib.Data.List.Induction
import Mathlib.Tactic.Common

/-!
# Runs of a partial step function

`none` is an event that cannot happen in a state. A property of the state and of
the events so far holds after every run when it holds at the start and each step
keeps it.
-/

namespace EventRuns

variable {σ ε : Type*} (step : σ → ε → Option σ)

def run (es : List ε) (s : σ) : Option σ := es.foldlM step s

theorem run_append (es es' : List ε) (s : σ) :
    run step (es ++ es') s = (run step es s).bind (run step es') := List.foldlM_append

theorem run_concat_iff {es : List ε} {e : ε} {s s' : σ} :
    run step (es ++ [e]) s = some s' ↔ ∃ s₁, run step es s = some s₁ ∧ step s₁ e = some s' := by
  rw [run_append, Option.bind_eq_some_iff]
  simp [run]

variable {step}

theorem run_history {s₀ : σ} {P : List ε → σ → Prop} (hstart : P [] s₀)
    (hstep : ∀ es s e s', run step es s₀ = some s → P es s → step s e = some s' →
      P (es ++ [e]) s') {es : List ε} {s : σ} (hrun : run step es s₀ = some s) : P es s := by
  induction es using List.reverseRecOn generalizing s with
  | nil =>
    obtain rfl := Option.some.inj hrun
    exact hstart
  | append_singleton es e ih =>
    obtain ⟨s₁, hrun₁, hlast⟩ := (run_concat_iff step).mp hrun
    exact hstep es s₁ e s hrun₁ (ih hrun₁) hlast

theorem run_invariant {s₀ : σ} {P : σ → Prop} (hstart : P s₀)
    (hstep : ∀ s e s', P s → step s e = some s' → P s') {es : List ε} {s : σ}
    (hrun : run step es s₀ = some s) : P s :=
  run_history (P := fun _ s => P s) hstart (fun _ s e s' _ => hstep s e s') hrun

variable (step)

/-- Some event had `P` of the state before it, and no event after it has `Q`. -/
def Since (s₀ : σ) (P : σ → ε → Prop) (Q : ε → Prop) (es : List ε) : Prop :=
  ∃ es₁ e es₂ s₁, es = es₁ ++ e :: es₂ ∧ run step es₁ s₀ = some s₁ ∧ P s₁ e ∧ ∀ e' ∈ es₂, ¬ Q e'

variable {step} {s₀ s : σ} {P : σ → ε → Prop} {Q : ε → Prop} {es : List ε} {e : ε}

theorem Since.last (hrun : run step es s₀ = some s) (he : P s e) : Since step s₀ P Q (es ++ [e]) :=
  ⟨es, e, [], s, rfl, hrun, he, fun _ h => absurd h List.not_mem_nil⟩

theorem Since.concat (h : Since step s₀ P Q es) (he : ¬ Q e) : Since step s₀ P Q (es ++ [e]) := by
  obtain ⟨es₁, e₁, es₂, s₁, rfl, hrun, hP, hQ⟩ := h
  refine ⟨es₁, e₁, es₂ ++ [e], s₁, by simp, hrun, hP, fun e' he' => ?_⟩
  rcases List.mem_append.mp he' with he' | he'
  · exact hQ e' he'
  · rwa [List.mem_singleton.mp he']

end EventRuns
