/-
  Ymuduo/QuitDrain.lean
  =====================
  **What `quit()` leaves behind.**

  `loop()` tests `quit_` between iterations only, and an iteration calls the
  functors that were pending at its swap.  A functor handed over after the swap is
  therefore still pending when the test ends the loop: `loop()` does not drain
  `pendingFunctors_` on its way out, although `~TcpServer` hands `connectDestroyed`
  to each I/O loop right before `~EventLoopThread` calls `quit()` on it.

  `quit_drains_iff` says when it goes well: exactly in the runs in which every
  `quit()` comes before the swap of the iteration, or finds nothing handed over
  pending (`QuitInTime`).
-/
import Ymuduo.FunctorQueue

namespace Ymuduo.LoopSystem

variable {ι F : Type}

/-- The loop thread is past the swap and will test `quit_` before the next one. -/
def PastSwap (pc : LoopPc) : Prop := pc = .testing ∨ pc = .calling

instance (pc : LoopPc) : Decidable (PastSwap pc) := inferInstanceAs (Decidable (_ ∨ _))

/-- Every functor of the list has been called or is in the batch being called. -/
def Taken (s : LoopSystem ι F) (tickets : List Nat) : Prop :=
  ∀ ticket ∈ tickets, ticket < s.executed.length + s.loop.functors.length

instance (s : LoopSystem ι F) (tickets : List Nat) : Decidable (s.Taken tickets) :=
  inferInstanceAs (Decidable (∀ _ ∈ tickets, _))

/-- A `quit()` past the swap finds no functor in `pendingFunctors_` whose
    `queueInLoop` has returned. -/
def QuitInTime (s : LoopSystem ι F) : LoopAct ι F → Prop
  | .selfQuit | .quit _ => PastSwap s.loop.pc → s.Taken s.returned
  | _ => True

/-- Every functor handed over before a `quit()` has been called. -/
def Drained (s : LoopSystem ι F) : Prop := ∀ ticket ∈ s.handedOver, ticket < s.executed.length

/-! ### Tickets -/

structure TicketInv (s : LoopSystem ι F) : Prop where
  inv : s.Inv
  returned_lt : ∀ ticket ∈ s.returned, ticket < s.pushed.length
  handedOver_sub : s.handedOver ⊆ s.returned
  selfPushed_lt : ∀ ticket, s.selfPushed = some ticket → ticket < s.pushed.length
  caller_lt : ∀ t ticket, s.caller t = .pushed ticket → ticket < s.pushed.length

theorem TicketInv.start : (start : LoopSystem ι F).TicketInv where
  inv := .start
  returned_lt := by simp [LoopSystem.start]
  handedOver_sub := by simp [LoopSystem.start]
  selfPushed_lt := by simp [LoopSystem.start]
  caller_lt := by simp [LoopSystem.start]

theorem TicketInv.handOver_sub {s : LoopSystem ι F} (h : s.TicketInv) :
    s.handOver ⊆ s.returned := by
  unfold handOver
  split
  · exact h.handedOver_sub
  · exact List.append_subset.mpr ⟨h.handedOver_sub, List.Subset.refl _⟩

theorem TicketInv.step {s t : LoopSystem ι F} {a : LoopAct ι F} (h : s.TicketInv)
    (hstep : step s a = some t) : t.TicketInv := by
  have hinv := h.inv.step hstep
  have hsub := h.handOver_sub
  obtain ⟨_, hreturned, hhanded, hself, hcaller⟩ := h
  have hpushed : ∀ {ticket cb}, ticket < s.pushed.length → ticket < (s.pushed ++ [cb]).length := by
    intro ticket cb hlt
    rw [List.length_append]
    exact Nat.lt_add_right _ hlt
  have hlast : ∀ {cb}, s.pushed.length < (s.pushed ++ [cb]).length := by
    intro cb
    rw [List.length_append]
    exact Nat.lt_succ_self _
  have hother : ∀ {pc thread u ticket}, Function.update s.caller thread pc u = .pushed ticket →
      pc = .pushed ticket ∨ ticket < s.pushed.length := by
    intro pc thread u ticket hu
    by_cases hut : u = thread
    · subst hut
      rw [Function.update_self] at hu
      exact Or.inl hu
    · rw [Function.update_of_ne hut] at hu
      exact Or.inr (hcaller u ticket hu)
  cases steps hstep with
  | advance => exact ⟨hinv, hreturned, hhanded, hself, hcaller⟩
  | selfPush =>
    refine ⟨hinv, fun ticket hmem => hpushed (hreturned ticket hmem), hhanded, ?_,
      fun thread ticket hthread => hpushed (hcaller thread ticket hthread)⟩
    rintro ticket ⟨⟩
    exact hlast
  | selfWakeup ticket hcase =>
    refine ⟨hinv, ?_, ?_, by simp, hcaller⟩
    · exact List.forall_mem_cons.mpr ⟨hself ticket hcase, hreturned⟩
    · exact List.subset_cons_of_subset _ hhanded
  | selfQuit => exact ⟨hinv, hreturned, hsub, hself, hcaller⟩
  | push =>
    refine ⟨hinv, fun ticket hmem => hpushed (hreturned ticket hmem), hhanded,
      fun ticket hticket => hpushed (hself ticket hticket), fun u ticket hu => ?_⟩
    rcases hother hu with hown | hlt
    · cases hown
      exact hlast
    · exact hpushed hlt
  | wakeup thread ticket hcase =>
    refine ⟨hinv, ?_, ?_, hself, fun u ticket hu => ?_⟩
    · exact List.forall_mem_cons.mpr ⟨hcaller thread ticket hcase, hreturned⟩
    · exact List.subset_cons_of_subset _ hhanded
    · exact (hother hu).resolve_left (by simp)
  | quitWakeup =>
    exact ⟨hinv, hreturned, hhanded, hself, fun u ticket hu => (hother hu).resolve_left (by simp)⟩
  | quit =>
    exact ⟨hinv, hreturned, hsub, hself, fun u ticket hu => (hother hu).resolve_left (by simp)⟩

/-! ### Runs whose quits come in time, and the others -/

theorem Taken.mono {s : LoopSystem ι F} {xs ys : List Nat} (h : s.Taken ys) (hsub : xs ⊆ ys) :
    s.Taken xs :=
  fun ticket hmem => h ticket (hsub hmem)

/-- Only the swap takes functors: otherwise what is called leaves the batch. -/
theorem advance_count {l l' : EventLoop ι F} {a : LoopStep ι} (h : l.advance a = some l')
    (hne : a ≠ .swap) : (l.calls a).length + l'.functors.length = l.functors.length := by
  cases EventLoop.advances h with
  | swap => exact absurd rfl hne
  | enter | resetQuit | leave | goOn | poll | handleWakeup | handleChannel | beginPending
  | endPending => exact Nat.zero_add _
  | callFunctor _ cb rest hfunctors =>
    simp only [EventLoop.calls, hfunctors, List.take_succ_cons, List.take_zero, List.length_cons,
      List.length_nil]
    omega

/-- The batch being called is the last one, or `loop()` is over. -/
def Closing (l : EventLoop ι F) : Prop :=
  l.pc = .calling ∨ l.pc = .returned ∨ l.pc = .testing ∧ l.quit = true

theorem advance_closing {l l' : EventLoop ι F} {a : LoopStep ι} (h : l.advance a = some l')
    (hne : a ≠ .swap) (hclosing : Closing l') : Closing l := by
  cases EventLoop.advances h with
  | swap => exact absurd rfl hne
  | enter | resetQuit | goOn | poll | beginPending => simp [Closing] at hclosing
  | endPending hpc | callFunctor hpc => exact Or.inl hpc
  | leave hpc hquit => exact Or.inr (Or.inr ⟨hpc, hquit⟩)
  | handleWakeup hpc | handleChannel hpc => simp [Closing, hpc, EventLoop.handleRead] at hclosing

/-- So far every `quit()` came in time: once the last swap is done, everything
    handed over before has been taken. -/
structure InTime (s : LoopSystem ι F) : Prop where
  tickets : s.TicketInv
  taken : Closing s.loop → s.Taken s.handedOver

theorem InTime.start : (start : LoopSystem ι F).InTime :=
  ⟨.start, fun _ => by simp [Taken, LoopSystem.start]⟩

theorem InTime.advance {s t : LoopSystem ι F} (h : s.InTime) {a : LoopStep ι}
    (hstep : step s (.advance a) = some t) : t.InTime := by
  have htickets := h.tickets.step hstep
  refine ⟨htickets, fun hclosing => ?_⟩
  by_cases hswap : a = .swap
  · -- the swap takes everything that was ever pushed
    have hnil : t.loop.pendingFunctors = [] := by
      subst hswap
      cases steps hstep with
      | advance _ _ l hl =>
        cases EventLoop.advances hl with
        | swap => rfl
    have horder := congrArg List.length htickets.inv.order
    simp only [functorQueue, Fifo.pushed, EventLoop.waiting, hnil, List.append_nil,
      List.length_append] at horder
    intro ticket hmem
    rw [horder]
    exact htickets.returned_lt ticket (htickets.handedOver_sub hmem)
  · cases steps hstep with
    | advance _ _ l hl =>
      have hcount := advance_count hl hswap
      intro ticket hmem
      have htaken := h.taken (advance_closing hl hswap hclosing) ticket hmem
      simp only [List.length_append]
      omega

theorem InTime.step {s t : LoopSystem ι F} {a : LoopAct ι F} (h : s.InTime)
    (hquit : s.QuitInTime a) (hstep : step s a = some t) : t.InTime := by
  have htickets := h.tickets.step hstep
  cases steps hstep with
  | advance => exact h.advance hstep
  | selfPush | push | wakeup | quitWakeup => exact ⟨htickets, h.taken⟩
  | selfWakeup =>
    refine ⟨htickets, ?_⟩
    simp only [EventLoop.wakeupIfNeeded]
    split <;> exact h.taken
  | selfQuit huser =>
    refine ⟨htickets, fun _ => ?_⟩
    rcases huser.2 with hhandling | hcalling
    · simp_all [Closing]
    · exact (hquit (Or.inr hcalling)).mono h.tickets.handOver_sub
  | quit =>
    refine ⟨htickets, fun hclosing => ?_⟩
    rcases hclosing with hcalling | hreturned | ⟨htesting, _⟩
    · exact (hquit (Or.inr hcalling)).mono h.tickets.handOver_sub
    · have hsame : s.handOver = s.handedOver := if_pos hreturned
      simp only [hsame]
      exact h.taken (Or.inr (Or.inl hreturned))
    · exact (hquit (Or.inl htesting)).mono h.tickets.handOver_sub

/-- Some `quit()` came too late: `loop()` will return, or has, with a functor that
    had been handed over still pending. -/
structure TooLate (s : LoopSystem ι F) : Prop where
  ending : s.loop.pc = .returned ∨ PastSwap s.loop.pc ∧ s.loop.quit = true
  missed : ¬ s.Taken s.handedOver

theorem handedOver_subset_handOver (s : LoopSystem ι F) : s.handedOver ⊆ s.handOver := by
  unfold handOver
  split
  · exact List.Subset.refl _
  · exact List.subset_append_left _ _

theorem advance_ending {l l' : EventLoop ι F} {a : LoopStep ι} (h : l.advance a = some l')
    (hending : l.pc = .returned ∨ PastSwap l.pc ∧ l.quit = true) :
    a ≠ .swap ∧ (l'.pc = .returned ∨ PastSwap l'.pc ∧ l'.quit = true) := by
  cases EventLoop.advances h with
  | enter hpc | resetQuit hpc | poll hpc | handleWakeup hpc | handleChannel hpc
  | beginPending hpc | swap hpc => simp [PastSwap, hpc] at hending
  | goOn hpc hquit => simp [PastSwap, hpc, hquit] at hending
  | leave => exact ⟨by simp, Or.inl rfl⟩
  | callFunctor => exact ⟨by simp, hending⟩
  | endPending hpc =>
    have hquit : l.quit = true := by simpa [PastSwap, hpc] using hending
    exact ⟨by simp, Or.inr ⟨Or.inl rfl, hquit⟩⟩

theorem TooLate.of_not_quitInTime {s t : LoopSystem ι F} {a : LoopAct ι F}
    (hlate : ¬ s.QuitInTime a) (hstep : step s a = some t) : t.TooLate := by
  -- the state after the store of `quit_`, whoever made it
  have hquit : PastSwap s.loop.pc → ¬ s.Taken s.returned → ¬ s.Taken s.handOver := by
    intro hpast hmissed htaken
    have hne : s.loop.pc ≠ .returned := by
      rcases hpast with hpc | hpc <;> simp [hpc]
    rw [handOver, if_neg hne] at htaken
    exact hmissed (htaken.mono (List.subset_append_right _ _))
  cases steps hstep with
  | advance | selfPush | selfWakeup | push | wakeup | quitWakeup => exact absurd trivial hlate
  | selfQuit | quit =>
    obtain ⟨hpast, hmissed⟩ := Classical.not_imp.mp hlate
    exact ⟨Or.inr ⟨hpast, rfl⟩, hquit hpast hmissed⟩

theorem TooLate.step {s t : LoopSystem ι F} {a : LoopAct ι F} (h : s.TooLate)
    (hstep : step s a = some t) : t.TooLate := by
  obtain ⟨hending, hmissed⟩ := h
  cases steps hstep with
  | advance _ a l hl =>
    obtain ⟨hswap, hending'⟩ := advance_ending hl hending
    refine ⟨hending', fun htaken => hmissed fun ticket hmem => ?_⟩
    have hlt := htaken ticket hmem
    have hcount := advance_count hl hswap
    simp only [List.length_append] at hlt
    omega
  | selfPush | push | wakeup | quitWakeup => exact ⟨hending, hmissed⟩
  | selfWakeup =>
    unfold EventLoop.wakeupIfNeeded
    split <;> exact ⟨hending, hmissed⟩
  | selfQuit | quit =>
    refine ⟨?_, fun htaken => hmissed (htaken.mono s.handedOver_subset_handOver)⟩
    rcases hending with hreturned | ⟨hpast, _⟩
    · exact Or.inl hreturned
    · exact Or.inr ⟨hpast, rfl⟩

/-! ### The result -/

/-- **When work handed over before `quit()` is done before `loop()` returns.** -/
theorem quit_drains_iff (acts : List (LoopAct ι F)) (s : LoopSystem ι F)
    (hrun : Runs.run step start acts = some s) (hreturned : s.loop.pc = .returned) :
    s.Drained ↔ Runs.Along step QuitInTime start acts := by
  have hempty : s.loop.functors = [] :=
    (Inv.of_run hrun).wf.batch (by simp [hreturned])
  have hdrained : s.Drained ↔ s.Taken s.handedOver := by
    simp only [Drained, Taken, hempty, List.length_nil, Nat.add_zero]
  rw [hdrained]
  rcases Runs.run_dichotomy (fun _ _ _ h hC hstep => h.step hC hstep)
    (fun _ _ _ _ hC hstep => TooLate.of_not_quitInTime hC hstep)
    (fun _ _ _ h hstep => h.step hstep) InTime.start hrun with ⟨halong, hin⟩ | ⟨hnot, hlate⟩
  · exact ⟨fun _ => halong, fun _ => hin.taken (Or.inr (Or.inl hreturned))⟩
  · exact ⟨fun htaken => absurd htaken hlate.missed, fun halong => absurd halong hnot⟩

/-- What `~TcpServer` does to an I/O loop that has just swapped its functors out:
    hand over `connectDestroyed` (the functor 7), then `quit()`. -/
def lateQuit : List (LoopAct Unit Nat) :=
  [.advance .enter, .advance .resetQuit, .advance .test, .advance (.poll []),
    .advance .beginPending, .advance .swap, .push 1 7, .wakeup 1, .quit 1,
    .advance .endPending, .advance .test, .wakeup 1]

/-- `loop()` returns although a functor handed over before `quit()` is still pending. -/
theorem lateQuit_not_drained :
    ∃ s, Runs.run step start lateQuit = some s ∧ s.loop.pc = .returned
      ∧ s.handedOver = [0] ∧ s.executed = [] ∧ ¬ s.Drained := by
  refine ⟨_, rfl, rfl, rfl, rfl, ?_⟩
  intro hdrained
  exact absurd (hdrained 0 (by decide)) (by decide)

/-- The same with the `quit()` one iteration later. -/
def timelyQuit : List (LoopAct Unit Nat) :=
  [.advance .enter, .advance .resetQuit, .advance .test, .advance (.poll []),
    .advance .beginPending, .advance .swap, .push 1 7, .wakeup 1, .advance .endPending,
    .advance .test, .advance (.poll [.wakeupChannel]), .advance .handleEvent, .quit 1,
    .advance .beginPending, .advance .swap, .advance .callFunctor, .advance .endPending,
    .advance .test, .wakeup 1]

theorem quit_drains_iff_timelyQuit :
    ∃ s, Runs.run step start timelyQuit = some s ∧ s.loop.pc = .returned
      ∧ (s.Drained ↔ Runs.Along step QuitInTime start timelyQuit) :=
  ⟨_, rfl, rfl, quit_drains_iff timelyQuit _ rfl rfl⟩

end Ymuduo.LoopSystem
