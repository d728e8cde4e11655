/-
  Ymuduo/Oracle.lean
  ==================
  **Runs under an oracle, and what of them does not depend on it.**

  `step o` is a step function for each oracle `o`; `low` is what is seen of a state.  A
  run is `Insensitive` if every oracle lets the same be seen.  With a side condition `C`
  under which a step looks the same to all oracles, and outside of which two of them
  part, a run is insensitive exactly if `C` holds along it (`insensitive_iff`).
-/
import Ymuduo.Runs
import Mathlib.Tactic.ByContra

namespace Ymuduo.Oracle

open Runs

variable {ο σ α β : Type*}

/-- What is seen of the states that a run goes through. -/
def trace (step : σ → α → Option σ) (low : σ → β) : σ → List α → List β
  | s, [] => [low s]
  | s, a :: as =>
    low s ::
      match step s a with
      | none => []
      | some t => trace step low t as

/-- Whatever the oracle says, the same is seen. -/
def Insensitive (step : ο → σ → α → Option σ) (low : σ → β) (s : σ) (as : List α) : Prop :=
  ∀ o o', trace (step o) low s as = trace (step o') low s as

section Trace

variable {step : σ → α → Option σ} {low : σ → β}

theorem trace_cons_none {s : σ} {a : α} (h : step s a = none) (as : List α) :
    trace step low s (a :: as) = [low s] := by
  simp only [trace, h]

theorem trace_cons_some {s t : σ} {a : α} (h : step s a = some t) (as : List α) :
    trace step low s (a :: as) = low s :: trace step low t as := by
  simp only [trace, h]

/-- A trace begins with what is seen of its first state. -/
theorem head?_trace (step : σ → α → Option σ) (low : σ → β) (s : σ) (as : List α) :
    (trace step low s as).head? = some (low s) := by
  cases as with
  | nil => rfl
  | cons a as => rfl

end Trace

section Lockstep

variable {step : ο → σ → α → Option σ} {low : σ → β} {C : σ → α → Prop}

/-- From states that look the same, two steps after which the states look the same. -/
theorem map_low_cases {o o' : ο} {s s' : σ} {a : α}
    (h : (step o s a).map low = (step o' s' a).map low) :
    step o s a = none ∧ step o' s' a = none
      ∨ ∃ t t', step o s a = some t ∧ step o' s' a = some t' ∧ low t = low t' := by
  cases hs : step o s a with
  | none =>
    rw [hs] at h
    exact Or.inl ⟨rfl, Option.map_eq_none_iff.mp h.symm⟩
  | some t =>
    rw [hs] at h
    obtain ⟨t', ht', hlow⟩ := Option.map_eq_some_iff.mp h.symm
    exact Or.inr ⟨t, t', rfl, ht', hlow.symm⟩

/-- **Lockstep rule.**  Where each step looks the same to all oracles, so does the run;
    the parts of the start states that are not seen do not matter either. -/
theorem trace_eq_of_along
    (hkeep : ∀ o o' s s' a, low s = low s' → C s a →
      (step o s a).map low = (step o' s' a).map low) :
    ∀ {as : List α} {o o' : ο} {s s' : σ}, low s = low s' → Along (step o) C s as →
      trace (step o) low s as = trace (step o') low s' as := by
  intro as
  induction as with
  | nil =>
    intro o o' s s' hlow _
    simp only [trace, hlow]
  | cons a as ih =>
    intro o o' s s' hlow ⟨ha, hrest⟩
    rcases map_low_cases (hkeep o o' s s' a hlow ha) with ⟨hnone, hnone'⟩ | ⟨t, t', ht, ht', hlow'⟩
    · rw [trace_cons_none hnone, trace_cons_none hnone', hlow]
    · rw [trace_cons_some ht, trace_cons_some ht', hlow, ih hlow' (hrest t ht)]

/-- **Parting rule.**  Where `C` breaks, two oracles part, and show it. -/
theorem exists_trace_ne
    (hkeep : ∀ o o' s s' a, low s = low s' → C s a →
      (step o s a).map low = (step o' s' a).map low)
    (hbreak : ∀ s a, ¬ C s a → ∃ o o', ∀ s₁ s₂, low s₁ = low s → low s₂ = low s →
      (step o s₁ a).map low ≠ (step o' s₂ a).map low) (o₀ : ο) :
    ∀ {as : List α} {s : σ}, ¬ Along (step o₀) C s as →
      ∃ o o', ∀ s₁ s₂, low s₁ = low s → low s₂ = low s →
        trace (step o) low s₁ as ≠ trace (step o') low s₂ as := by
  intro as
  induction as with
  | nil =>
    intro s hnot
    exact absurd trivial hnot
  | cons a as ih =>
    intro s hnot
    by_cases ha : C s a
    · -- the break comes later: the oracles that part there go in lockstep up to it
      have hlater : ∃ t, step o₀ s a = some t ∧ ¬ Along (step o₀) C t as := by
        by_contra hnone
        refine hnot ⟨ha, fun t ht => ?_⟩
        by_contra halong
        exact hnone ⟨t, ht, halong⟩
      obtain ⟨t, ht, hrest⟩ := hlater
      obtain ⟨o, o', hne⟩ := ih hrest
      have hnext : ∀ (o : ο) (s₁ : σ), low s₁ = low s →
          ∃ t₁, step o s₁ a = some t₁ ∧ low t₁ = low t := by
        intro o s₁ hlow
        have hmap := hkeep o₀ o s s₁ a hlow.symm ha
        rw [ht] at hmap
        exact Option.map_eq_some_iff.mp hmap.symm
      refine ⟨o, o', fun s₁ s₂ h₁ h₂ => ?_⟩
      obtain ⟨t₁, ht₁, hlow₁⟩ := hnext o s₁ h₁
      obtain ⟨t₂, ht₂, hlow₂⟩ := hnext o' s₂ h₂
      rw [trace_cons_some ht₁, trace_cons_some ht₂]
      intro heq
      exact hne t₁ t₂ hlow₁ hlow₂ (List.cons.inj heq).2
    · obtain ⟨o, o', hne⟩ := hbreak s a ha
      refine ⟨o, o', fun s₁ s₂ h₁ h₂ heq => hne s₁ s₂ h₁ h₂ ?_⟩
      cases hs₁ : step o s₁ a with
      | none =>
        cases hs₂ : step o' s₂ a with
        | none => rfl
        | some t₂ =>
          rw [trace_cons_none hs₁, trace_cons_some hs₂] at heq
          have hhead := head?_trace (step o') low t₂ as
          rw [← (List.cons.inj heq).2] at hhead
          cases hhead
      | some t₁ =>
        cases hs₂ : step o' s₂ a with
        | none =>
          rw [trace_cons_some hs₁, trace_cons_none hs₂] at heq
          have hhead := head?_trace (step o) low t₁ as
          rw [(List.cons.inj heq).2] at hhead
          cases hhead
        | some t₂ =>
          rw [trace_cons_some hs₁, trace_cons_some hs₂] at heq
          have hhead := head?_trace (step o) low t₁ as
          rw [(List.cons.inj heq).2, head?_trace] at hhead
          rw [Option.map_some, Option.map_some, hhead]

/-- **A run is insensitive to the oracle exactly if `C` holds along it**, under any one
    oracle. -/
theorem insensitive_iff
    (hkeep : ∀ o o' s s' a, low s = low s' → C s a →
      (step o s a).map low = (step o' s' a).map low)
    (hbreak : ∀ s a, ¬ C s a → ∃ o o', ∀ s₁ s₂, low s₁ = low s → low s₂ = low s →
      (step o s₁ a).map low ≠ (step o' s₂ a).map low)
    (o₀ : ο) (s : σ) (as : List α) :
    Insensitive step low s as ↔ Along (step o₀) C s as := by
  constructor
  · intro hsame
    by_contra hnot
    obtain ⟨o, o', hne⟩ := exists_trace_ne hkeep hbreak o₀ hnot
    exact hne s s rfl rfl (hsame o o')
  · intro halong o o'
    have hlockstep : ∀ o, trace (step o₀) low s as = trace (step o) low s as :=
      fun o => trace_eq_of_along hkeep rfl halong
    exact (hlockstep o).symm.trans (hlockstep o')

end Lockstep

end Ymuduo.Oracle
