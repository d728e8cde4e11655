/-
  Ymuduo/Runs.lean
  ================
  **Runs of a labelled partial step function.**

  A component is given by a partial step function `step : σ → α → Option σ`: the
  label carries everything the environment chooses (which thread moves, what a
  system call returns), and `none` means that the label is not enabled in the
  state.  `run` threads a list of labels through `step`; since every list of
  labels is allowed, a statement about all runs is a statement about all
  interleavings.

  `Along C` restates a side condition on single steps as a condition on a run.  The
  inductions over runs of this development are all here: with `run_induction` and
  `run_induction_along` a safety theorem is an initial case and a step case.
-/
import Mathlib.Algebra.Ring.Nat

namespace Ymuduo.Runs

variable {σ α : Type*}

/-- Execute the labels in order; `none` as soon as one of them is not enabled. -/
def run (step : σ → α → Option σ) : σ → List α → Option σ
  | s, [] => some s
  | s, a :: as => (step s a).bind fun t => run step t as

variable {step : σ → α → Option σ}

@[simp] theorem run_nil (s : σ) : run step s [] = some s := rfl

@[simp] theorem run_cons (s : σ) (a : α) (as : List α) :
    run step s (a :: as) = (step s a).bind fun t => run step t as := rfl

theorem run_singleton (s : σ) (a : α) : run step s [a] = step s a := by
  simp only [run_cons, run_nil, Option.bind_fun_some]

theorem run_append (s : σ) (as bs : List α) :
    run step s (as ++ bs) = (run step s as).bind fun t => run step t bs := by
  induction as generalizing s with
  | nil => rfl
  | cons a as ih => simp only [List.cons_append, run_cons, ih, Option.bind_assoc]

/-- The states that some run from a start state ends in. -/
def Reachable (start : σ → Prop) (step : σ → α → Option σ) (s : σ) : Prop :=
  ∃ s₀ as, start s₀ ∧ run step s₀ as = some s

/-! ### Side conditions on the steps of a run -/

/-- `C` holds at every step of the run: of each label and of the state in which
    it is taken. -/
def Along (step : σ → α → Option σ) (C : σ → α → Prop) : σ → List α → Prop
  | _, [] => True
  | s, a :: as => C s a ∧ ∀ t, step s a = some t → Along step C t as

instance decidableAlong (C : σ → α → Prop) [∀ s a, Decidable (C s a)] :
    (s : σ) → (as : List α) → Decidable (Along step C s as)
  | _, [] => isTrue trivial
  | s, a :: as =>
    match h : step s a with
    | none => decidable_of_iff (C s a) ⟨fun hC => ⟨hC, by simp [h]⟩, fun hC => hC.1⟩
    | some t =>
      have := decidableAlong C t as
      decidable_of_iff (C s a ∧ Along step C t as) (by simp [Along, h])

/-- Side conditions that agree on the labels of a run agree on the run. -/
theorem along_congr_mem {C D : σ → α → Prop} :
    ∀ {as : List α}, (∀ a ∈ as, ∀ s, C s a ↔ D s a) →
      ∀ s, Along step C s as ↔ Along step D s as := by
  intro as
  induction as with
  | nil =>
    intro _ _
    exact Iff.rfl
  | cons a as ih =>
    intro hiff s
    have hrest := ih fun b hb => hiff b (List.mem_cons_of_mem a hb)
    have hfirst := hiff a List.mem_cons_self s
    exact and_congr hfirst (forall_congr' fun t => imp_congr Iff.rfl (hrest t))

/-- A side condition on the labels alone. -/
theorem along_iff_forall_mem {P : α → Prop} :
    ∀ {as : List α} {s t : σ}, run step s as = some t →
      (Along step (fun _ a => P a) s as ↔ ∀ a ∈ as, P a) := by
  intro as
  induction as with
  | nil =>
    intro s t _
    exact ⟨fun _ _ hmem => absurd hmem List.not_mem_nil, fun _ => trivial⟩
  | cons a as ih =>
    intro s t hrun
    obtain ⟨u, hu, hrest⟩ := Option.bind_eq_some_iff.mp hrun
    rw [List.forall_mem_cons, ← ih hrest]
    refine and_congr Iff.rfl ⟨fun halong => halong u hu, fun halong v hv => ?_⟩
    rw [hu] at hv
    cases hv
    exact halong

/-! ### Induction over runs -/

/-- **Invariant rule.**  What every step preserves, every run preserves. -/
theorem run_induction {I : σ → Prop}
    (hstep : ∀ s a t, I s → step s a = some t → I t) :
    ∀ {as : List α} {s t : σ}, I s → run step s as = some t → I t := by
  intro as
  induction as with
  | nil =>
    intro s t hs hrun
    simp only [run_nil, Option.some.injEq] at hrun
    exact hrun ▸ hs
  | cons a as ih =>
    intro s t hs hrun
    obtain ⟨u, hu, hrest⟩ := Option.bind_eq_some_iff.mp hrun
    exact ih (hstep s a u hs hu) hrest

/-- The invariant rule under a side condition on the steps taken. -/
theorem run_induction_along {I : σ → Prop} {C : σ → α → Prop}
    (hstep : ∀ s a t, I s → C s a → step s a = some t → I t) :
    ∀ {as : List α} {s t : σ}, I s → Along step C s as → run step s as = some t → I t := by
  intro as
  induction as with
  | nil =>
    intro s t hs _ hrun
    simp only [run_nil, Option.some.injEq] at hrun
    exact hrun ▸ hs
  | cons a as ih =>
    intro s t hs hC hrun
    obtain ⟨u, hu, hrest⟩ := Option.bind_eq_some_iff.mp hrun
    exact ih (hstep s a u hs hC.1 hu) (hC.2 u hu) hrest

/-- Two side conditions that agree where the invariant holds agree on runs, if the
    invariant is kept as long as they hold. -/
theorem along_congr {I : σ → Prop} {C D : σ → α → Prop}
    (hstep : ∀ s a t, I s → D s a → step s a = some t → I t)
    (hiff : ∀ s a, I s → (C s a ↔ D s a)) :
    ∀ {as : List α} {s : σ}, I s → (Along step C s as ↔ Along step D s as) := by
  intro as
  induction as with
  | nil =>
    intro s _
    exact Iff.rfl
  | cons a as ih =>
    intro s hs
    constructor
    · rintro ⟨hC, hrest⟩
      have hD := (hiff s a hs).mp hC
      exact ⟨hD, fun t ht => (ih (hstep s a t hs hD ht)).mp (hrest t ht)⟩
    · rintro ⟨hD, hrest⟩
      exact ⟨(hiff s a hs).mpr hD, fun t ht => (ih (hstep s a t hs hD ht)).mpr (hrest t ht)⟩

theorem along_of_forall {C : σ → α → Prop} (h : ∀ s a, C s a) :
    ∀ (as : List α) (s : σ), Along step C s as := by
  intro as
  induction as with
  | nil => exact fun _ => trivial
  | cons a as ih => exact fun s => ⟨h s a, fun t _ => ih t⟩

/-- **Dichotomy rule.**  A run keeps the side condition and with it `I`, or breaks it
    at some step and keeps `J` from there on.  All of it may rest on a condition `D`. -/
theorem run_dichotomy_along {I J : σ → Prop} {C D : σ → α → Prop}
    (hkeep : ∀ s a t, I s → D s a → C s a → step s a = some t → I t)
    (hbreak : ∀ s a t, I s → D s a → ¬ C s a → step s a = some t → J t)
    (hbroken : ∀ s a t, J s → step s a = some t → J t) :
    ∀ {as : List α} {s t : σ}, I s → Along step D s as → run step s as = some t →
      Along step C s as ∧ I t ∨ ¬ Along step C s as ∧ J t := by
  intro as
  induction as with
  | nil =>
    intro s t hs _ hrun
    simp only [run_nil, Option.some.injEq] at hrun
    exact Or.inl ⟨trivial, hrun ▸ hs⟩
  | cons a as ih =>
    intro s t hs hD hrun
    obtain ⟨u, hu, hrest⟩ := Option.bind_eq_some_iff.mp hrun
    by_cases hC : C s a
    · rcases ih (hkeep s a u hs hD.1 hC hu) (hD.2 u hu) hrest with ⟨halong, hI⟩ | ⟨hnot, hJ⟩
      · refine Or.inl ⟨⟨hC, fun v hv => ?_⟩, hI⟩
        rw [hu] at hv
        cases hv
        exact halong
      · exact Or.inr ⟨fun h => hnot (h.2 u hu), hJ⟩
    · exact Or.inr ⟨fun h => hC h.1, run_induction hbroken (hbreak s a u hs hD.1 hC hu) hrest⟩

theorem run_dichotomy {I J : σ → Prop} {C : σ → α → Prop}
    (hkeep : ∀ s a t, I s → C s a → step s a = some t → I t)
    (hbreak : ∀ s a t, I s → ¬ C s a → step s a = some t → J t)
    (hbroken : ∀ s a t, J s → step s a = some t → J t) {as : List α} {s t : σ} (hs : I s)
    (hrun : run step s as = some t) :
    Along step C s as ∧ I t ∨ ¬ Along step C s as ∧ J t :=
  run_dichotomy_along (D := fun _ _ => True) (fun s a t h _ => hkeep s a t h)
    (fun s a t h _ => hbreak s a t h) hbroken hs (along_of_forall (fun _ _ => trivial) as s) hrun

/-! ### How often something happens in a run -/

/-- How many steps of the run are `p`. -/
def count (step : σ → α → Option σ) (p : σ → α → Prop) [∀ s a, Decidable (p s a)] :
    σ → List α → Nat
  | _, [] => 0
  | s, a :: as =>
    match step s a with
    | none => 0
    | some t => (if p s a then 1 else 0) + count step p t as

/-- **Once rule.**  After a step that is `p`, `J` holds for ever, and excludes another. -/
theorem count_le_one {p : σ → α → Prop} [∀ s a, Decidable (p s a)] {I J : σ → Prop}
    (hkeep : ∀ s a t, I s → step s a = some t → I t)
    (hfirst : ∀ s a t, I s → p s a → step s a = some t → J t)
    (hafter : ∀ s a t, I s → J s → step s a = some t → J t)
    (hexcludes : ∀ s a t, I s → J s → step s a = some t → ¬ p s a) :
    ∀ {as : List α} {s : σ}, I s → count step p s as ≤ 1 := by
  have hnever : ∀ (as : List α) (s : σ), I s → J s → count step p s as = 0 := by
    intro as
    induction as with
    | nil =>
      intro s _ _
      rfl
    | cons a as ih =>
      intro s hs hJ
      cases ht : step s a with
      | none => simp only [count, ht]
      | some t =>
        simp only [count, ht, if_neg (hexcludes s a t hs hJ ht), Nat.zero_add]
        exact ih t (hkeep s a t hs ht) (hafter s a t hs hJ ht)
  intro as
  induction as with
  | nil =>
    intro s _
    exact Nat.zero_le 1
  | cons a as ih =>
    intro s hs
    cases ht : step s a with
    | none => simp only [count, ht, Nat.zero_le]
    | some t =>
      by_cases hp : p s a
      · have hrest := hnever as t (hkeep s a t hs ht) (hfirst s a t hs hp ht)
        simp only [count, ht, if_pos hp, hrest, Nat.add_zero, Nat.le_refl]
      · simp only [count, ht, if_neg hp, Nat.zero_add]
        exact ih (hkeep s a t hs ht)

/-! ### What the steps of a run put out -/

/-- The outputs of the steps of a run, in order. -/
def outputs {β : Type*} (step : σ → α → Option σ) (out : σ → α → List β) : σ → List α → List β
  | _, [] => []
  | s, a :: as =>
    match step s a with
    | none => []
    | some t => out s a ++ outputs step out t as

/-- **Ledger rule.**  If every step appends what its label says, then so does a run. -/
theorem ledger {β : Type*} {f : σ → List β} {g : α → List β}
    (hstep : ∀ s a t, step s a = some t → f t = f s ++ g a) :
    ∀ {as : List α} {s t : σ}, run step s as = some t → f t = f s ++ as.flatMap g := by
  intro as
  induction as with
  | nil =>
    intro s t hrun
    cases hrun
    exact (List.append_nil _).symm
  | cons a as ih =>
    intro s t hrun
    obtain ⟨u, hu, hrest⟩ := Option.bind_eq_some_iff.mp hrun
    rw [ih hrest, hstep s a u hu, List.flatMap_cons, List.append_assoc]

/-- The steps into `P` only. -/
def guarded (P : σ → Prop) [DecidablePred P] (step : σ → α → Option σ) (s : σ) (a : α) : Option σ :=
  (step s a).filter fun t => P t

theorem guarded_eq_some {P : σ → Prop} [DecidablePred P] {s t : σ} {a : α} :
    guarded P step s a = some t ↔ step s a = some t ∧ P t := by
  rw [guarded, Option.filter_eq_some_iff, decide_eq_true_iff]

/-- If `P` is never entered, a run that ends in `P` has stayed there. -/
theorem run_guarded {β : Type*} {P : σ → Prop} [DecidablePred P] (out : σ → α → List β)
    (hback : ∀ s a t, step s a = some t → P t → P s) :
    ∀ {as : List α} {s t : σ}, run step s as = some t → P t →
      P s ∧ run (guarded P step) s as = some t
        ∧ outputs (guarded P step) out s as = outputs step out s as := by
  intro as
  induction as with
  | nil =>
    intro s t hrun hP
    cases hrun
    exact ⟨hP, rfl, rfl⟩
  | cons a as ih =>
    intro s t hrun hP
    obtain ⟨u, hu, hrest⟩ := Option.bind_eq_some_iff.mp hrun
    obtain ⟨hPu, hguarded, houtputs⟩ := ih hrest hP
    have hstep : guarded P step s a = some u := guarded_eq_some.mpr ⟨hu, hPu⟩
    refine ⟨hback s a u hu hPu, ?_, ?_⟩
    · rw [run_cons, hstep, Option.bind_some, hguarded]
    · simp only [outputs, hstep, hu, houtputs]

/-- **Way-out rule.**  If the steps that lead out of `P` put `b` out, then so does a run
    that leads out of `P`. -/
theorem mem_outputs_of_leaves {β : Type*} {out : σ → α → List β} {b : β} {P : σ → Prop}
    (hleaves : ∀ s a t, P s → step s a = some t → P t ∨ b ∈ out s a) :
    ∀ {as : List α} {s t : σ}, P s → run step s as = some t → P t ∨ b ∈ outputs step out s as := by
  intro as
  induction as with
  | nil =>
    intro s t hs hrun
    simp only [run_nil, Option.some.injEq] at hrun
    exact Or.inl (hrun ▸ hs)
  | cons a as ih =>
    intro s t hs hrun
    obtain ⟨u, hu, hrest⟩ := Option.bind_eq_some_iff.mp hrun
    simp only [outputs, hu, List.mem_append]
    rcases hleaves s a u hs hu with hu' | hin
    · rcases ih hu' hrest with ht | hin
      · exact Or.inl ht
      · exact Or.inr (Or.inr hin)
    · exact Or.inr (Or.inl hin)

/-! ### Reaching a state -/

/-- **Termination rule.**  If every state that is not done has a step that keeps the invariant
    and makes the measure smaller, then a run of such steps leads to a state that is done. -/
theorem run_until {β : Type*} {r : β → β → Prop} (hr : WellFounded r) {μ : σ → β}
    {I done : σ → Prop} {C : σ → α → Prop}
    (hstep : ∀ s, I s → ¬ done s → ∃ a t, C s a ∧ step s a = some t ∧ I t ∧ r (μ t) (μ s)) :
    ∀ s, I s → ∃ as t, run step s as = some t ∧ Along step C s as ∧ I t ∧ done t := by
  intro s
  induction h : μ s using hr.induction generalizing s with
  | _ b ih =>
    subst h
    intro hs
    by_cases hdone : done s
    · exact ⟨[], s, rfl, trivial, hs, hdone⟩
    · obtain ⟨a, t, hC, ht, hI, hsmaller⟩ := hstep s hs hdone
      obtain ⟨as, u, hrun, halong, hu⟩ := ih (μ t) hsmaller t rfl hI
      refine ⟨a :: as, u, ?_, ⟨hC, fun v hv => ?_⟩, hu⟩
      · rw [run_cons, ht, Option.bind_some]
        exact hrun
      · rw [ht] at hv
        cases hv
        exact halong

/-! ### What the steps of a run cost -/

/-- **Amortization rule.**  If every step pays what it spends out of the potential and of what
    it is given, then so does a run. -/
theorem amortized {Φ : σ → Nat} {spent gift : α → Nat} {I : σ → Prop}
    (hkeep : ∀ s a t, I s → step s a = some t → I t) :
    ∀ {as : List α} {s t : σ},
      (∀ a ∈ as, ∀ s t, I s → step s a = some t → spent a + Φ t ≤ Φ s + gift a) →
      I s → run step s as = some t → (as.map spent).sum + Φ t ≤ Φ s + (as.map gift).sum := by
  intro as
  induction as with
  | nil =>
    intro s t _ _ hrun
    cases hrun
    exact Nat.le_of_eq (Nat.add_comm _ _)
  | cons a as ih =>
    intro s t hpays hs hrun
    obtain ⟨u, hu, hrest⟩ := Option.bind_eq_some_iff.mp hrun
    have hfirst := hpays a List.mem_cons_self s u hs hu
    have hlater := ih (fun b hb => hpays b (List.mem_cons_of_mem a hb)) (hkeep s a u hs hu) hrest
    simp only [List.map_cons, List.sum_cons]
    omega

/-- A price of `k` for each step that is `p`. -/
theorem sum_map_toNat (k : Nat) (p : α → Bool) (as : List α) :
    (as.map fun a => k * (p a).toNat).sum = k * as.countP p := by
  induction as with
  | nil => rfl
  | cons a as ih =>
    rw [List.map_cons, List.sum_cons, ih, List.countP_cons, Nat.mul_add, Nat.add_comm]
    cases p a <;> rfl

/-- **Countdown rule.**  If each `tick` puts `b` out or takes something from the number that is
    left, and no other step adds to it, then a run with that many ticks puts `b` out. -/
theorem mem_outputs_of_countdown {β : Type*} {out : σ → α → List β} {b : β}
    {L : Nat → σ → Prop} {C : σ → α → Prop} {tick : α → Bool} (hzero : ∀ s, ¬ L 0 s)
    (htick : ∀ k s a t, L (k + 1) s → C s a → step s a = some t → tick a = true →
      b ∈ out s a ∨ L k t)
    (hother : ∀ k s a t, L k s → C s a → step s a = some t → tick a = false → L k t) :
    ∀ {as : List α} {k : Nat} {s t : σ}, L k s → Along step C s as → run step s as = some t →
      k ≤ as.countP tick → b ∈ outputs step out s as := by
  intro as
  induction as with
  | nil =>
    intro k s t hleft _ _ hk
    rw [List.countP_nil, Nat.le_zero] at hk
    subst hk
    exact absurd hleft (hzero s)
  | cons a as ih =>
    intro k s t hleft hC hrun hk
    obtain ⟨u, hu, hrest⟩ := Option.bind_eq_some_iff.mp hrun
    simp only [outputs, hu, List.mem_append]
    by_cases ha : tick a = true
    · rw [List.countP_cons_of_pos ha] at hk
      cases k with
      | zero => exact absurd hleft (hzero s)
      | succ k =>
        rcases htick k s a u hleft hC.1 hu ha with hin | hleft'
        · exact Or.inl hin
        · exact Or.inr (ih hleft' (hC.2 u hu) hrest (Nat.le_of_succ_le_succ hk))
    · rw [List.countP_cons_of_neg ha] at hk
      have hleft' := hother k s a u hleft hC.1 hu (eq_false_of_ne_true ha)
      exact Or.inr (ih hleft' (hC.2 u hu) hrest hk)

theorem Reachable.induction {start : σ → Prop} {I : σ → Prop}
    (hstart : ∀ s, start s → I s) (hstep : ∀ s a t, I s → step s a = some t → I t)
    {s : σ} (h : Reachable start step s) : I s := by
  obtain ⟨s₀, as, hs₀, hrun⟩ := h
  exact run_induction hstep (hstart s₀ hs₀) hrun

end Ymuduo.Runs
