/-
  Ymuduo/Simulation.lean
  ======================
  **Forward simulation between labelled partial step functions.**

  A component refines a specification when each of its steps is answered by some steps of
  the specification: none, one or several, read off the state and the label.  The answer
  has to show the same observations and to lead to related states.  Then every run of the
  component is answered by a run with the same trace (`Simulation.trace`), and what the
  specification keeps, the component keeps (`Simulation.transfer`).
-/
import Ymuduo.Runs

namespace Ymuduo.Runs

variable {σ α τ β ο : Type*}
variable {step : σ → α → Option σ} {spec : τ → β → Option τ}

/-- The trace of a run that goes on. -/
theorem outputs_append {out : σ → α → List ο} :
    ∀ {as bs : List α} {s t : σ}, run step s as = some t →
      outputs step out s (as ++ bs) = outputs step out s as ++ outputs step out t bs := by
  intro as
  induction as with
  | nil =>
    intro bs s t hrun
    cases hrun
    rfl
  | cons a as ih =>
    intro bs s t hrun
    obtain ⟨u, hu, hrest⟩ := Option.bind_eq_some_iff.mp hrun
    simp only [List.cons_append, outputs, hu, ih hrest, List.append_assoc]

/-- What is read off the trace of a run, if it is read off each of its steps. -/
theorem flatMap_outputs_of {γ : Type*} {I : σ → Prop} {out : σ → α → List ο} {f : ο → List γ}
    {g : σ → α → List γ} (hkeep : ∀ s a t, I s → step s a = some t → I t)
    (hlabel : ∀ s a t, I s → step s a = some t → (out s a).flatMap f = g s a) :
    ∀ {as : List α} {s t : σ}, I s → run step s as = some t →
      (outputs step out s as).flatMap f = outputs step g s as := by
  intro as
  induction as with
  | nil =>
    intro s t _ _
    rfl
  | cons a as ih =>
    intro s t hs hrun
    obtain ⟨u, hu, hrest⟩ := Option.bind_eq_some_iff.mp hrun
    simp only [outputs, hu, List.flatMap_append, hlabel s a u hs hu,
      ih (hkeep s a u hs hu) hrest]

/-- What the labels alone put out. -/
theorem outputs_eq_flatMap {out : α → List ο} :
    ∀ {as : List α} {s t : σ}, run step s as = some t →
      outputs step (fun _ => out) s as = as.flatMap out := by
  intro as
  induction as with
  | nil =>
    intro s t _
    rfl
  | cons a as ih =>
    intro s t hrun
    obtain ⟨u, hu, hrest⟩ := Option.bind_eq_some_iff.mp hrun
    simp only [outputs, hu, ih hrest, List.flatMap_cons]

theorem flatMap_outputs {γ : Type*} {out : σ → α → List ο} {f : ο → List γ} {g : α → List γ}
    (hlabel : ∀ s a t, step s a = some t → (out s a).flatMap f = g a) {as : List α} {s t : σ}
    (hrun : run step s as = some t) : (outputs step out s as).flatMap f = as.flatMap g :=
  (flatMap_outputs_of (I := fun _ => True) (fun _ _ _ _ _ => trivial)
    (fun s a t _ => hlabel s a t) trivial hrun).trans (outputs_eq_flatMap hrun)

/-- `spec` answers each step of `step`: `label` are the steps of the answer, `out` and
    `obs` what is seen of a step below and above. -/
structure Simulation (step : σ → α → Option σ) (spec : τ → β → Option τ)
    (label : σ → α → List β) (out : σ → α → List ο) (obs : τ → β → List ο)
    (R : σ → τ → Prop) : Prop where
  answer : ∀ {s t : σ} {a : α} {u : τ}, R s u → step s a = some t →
    ∃ v, run spec u (label s a) = some v ∧ outputs spec obs u (label s a) = out s a ∧ R t v

namespace Simulation

variable {label : σ → α → List β} {out : σ → α → List ο} {obs : τ → β → List ο}
variable {R : σ → τ → Prop}

/-- **Trace inclusion.**  A run is answered by a run of the specification that shows the
    same observations in the same order. -/
theorem trace (h : Simulation step spec label out obs R) :
    ∀ {as : List α} {s t : σ} {u : τ}, R s u → run step s as = some t →
      ∃ v, run spec u (outputs step label s as) = some v
        ∧ outputs spec obs u (outputs step label s as) = outputs step out s as ∧ R t v := by
  intro as
  induction as with
  | nil =>
    intro s t u hR hrun
    cases hrun
    exact ⟨u, rfl, rfl, hR⟩
  | cons a as ih =>
    intro s t u hR hrun
    obtain ⟨s', hs', hrest⟩ := Option.bind_eq_some_iff.mp hrun
    obtain ⟨u', hu', hobs, hR'⟩ := h.answer hR hs'
    obtain ⟨v, hv, hobs', hRt⟩ := ih hR' hrest
    refine ⟨v, ?_, ?_, hRt⟩
    · simp only [outputs, hs', run_append, hu', Option.bind_some, hv]
    · simp only [outputs, hs', outputs_append hu', hobs, hobs']

/-- **Transfer.**  An invariant of the specification holds below, seen through `R`. -/
theorem transfer (h : Simulation step spec label out obs R) {I : τ → Prop}
    (hkeep : ∀ u b v, I u → spec u b = some v → I v) {as : List α} {s t : σ} {u : τ}
    (hR : R s u) (hu : I u) (hrun : run step s as = some t) : ∃ v, R t v ∧ I v := by
  obtain ⟨v, hv, _, hRt⟩ := h.trace hR hrun
  exact ⟨v, hRt, run_induction hkeep hu hv⟩

end Simulation

end Ymuduo.Runs
