/-
  Ymuduo/PollerBook.lean
  ======================
  **The channels of one loop and its poller.**

  Any number of channels with different descriptors go through `enableReading`,
  `disableReading`, `enableWriting`, `disableWriting`, `disableAll` and `remove` in any
  order.  Every `epoll_ctl` is recorded together with whether its descriptor was in the
  interest list.

  The index of a channel, `channels_` and the kernel stay in step (`book_matches_kernel`).
  The one thing that an `update()` gets wrong is an empty mask on a channel that is not in
  the interest list: the branch of `kNew` and `kDeleted` adds it (`registered_iff_interested`).
-/
import Ymuduo.Poller
import Ymuduo.Runs

namespace Ymuduo

/-- The assignments to `events_` that are followed by `update()`. -/
inductive ChannelUpdate where
  | enableReading
  | disableReading
  | enableWriting
  | disableWriting
  | disableAll
deriving DecidableEq, Repr

def ChannelUpdate.assign : ChannelUpdate → Channel → Channel
  | .enableReading => Channel.enableReading
  | .disableReading => Channel.disableReading
  | .enableWriting => Channel.enableWriting
  | .disableWriting => Channel.disableWriting
  | .disableAll => Channel.disableAll

theorem ChannelUpdate.assign_eq (u : ChannelUpdate) (ch : Channel) :
    u.assign ch = { ch with events := (u.assign ch).events } := by
  cases u <;> rfl

@[simp] theorem ChannelUpdate.assign_fd (u : ChannelUpdate) (ch : Channel) :
    (u.assign ch).fd = ch.fd := by
  rw [u.assign_eq]

@[simp] theorem ChannelUpdate.assign_index (u : ChannelUpdate) (ch : Channel) :
    (u.assign ch).index = ch.index := by
  rw [u.assign_eq]

/-- An `epoll_ctl`, and whether the descriptor was in the interest list. -/
structure CtlCall where
  op : EpollOp
  fd : Fd
  present : Bool
deriving DecidableEq, Repr

/-- `ADD` of an absent descriptor only, `MOD` and `DEL` of a present one. -/
def CtlCall.Legal (c : CtlCall) : Prop := c.op = .add ↔ c.present = false

/-! ### The calls that `updateChannel` and `removeChannel` issue -/

/-- The operation of the `epoll_ctl` in `updateChannel`. -/
def Channel.updateCtl (ch : Channel) : EpollOp :=
  match ch.index with
  | .kNew | .kDeleted => .add
  | .kAdded => if ch.isNonEvent then .del else .mod

theorem Channel.updateCtl_eq_add (ch : Channel) : ch.updateCtl = .add ↔ ch.index ≠ .kAdded := by
  unfold Channel.updateCtl
  split
  · rename_i hindex
    simp [hindex]
  · rename_i hindex
    simp [hindex]
  · rename_i hindex
    split <;> simp [hindex]

/-- The operation of the `epoll_ctl` in `removeChannel`, if there is one. -/
def Channel.removeCtl (ch : Channel) : Option EpollOp :=
  if ch.index = .kAdded then some .del else none

namespace EPollPoller

variable {κ : Type}

/-- `Poller::hasChannel` -/
def hasChannel [DecidableEq κ] (p : EPollPoller κ) (channel : κ) (ch : Channel) : Bool :=
  p.channels ch.fd = some channel

theorem updateChannel_ctl {p p' : EPollPoller κ} {channel : κ} {ch ch' : Channel}
    (h : p.updateChannel channel ch = .ok (p', ch')) :
    ∃ (q : EPollPoller κ) (cur : Channel), q.interest = p.interest ∧ cur.fd = ch.fd
      ∧ cur.events = ch.events ∧ q.update ch.updateCtl channel cur = .ok p' := by
  have hmap : ∀ {r : Except Fault (EPollPoller κ)} {cur : Channel},
      r.map (fun q => (q, cur)) = .ok (p', ch') → r = .ok p' := by
    intro r cur hr
    cases r with
    | error _ => cases hr
    | ok _ => cases hr; rfl
  unfold updateChannel at h
  cases hindex : ch.index with
  | kNew =>
    simp only [Channel.updateCtl, hindex] at h ⊢
    exact ⟨{ p with channels := Function.update p.channels ch.fd (some channel) },
      { ch with index := .kAdded }, rfl, rfl, rfl, hmap h⟩
  | kDeleted =>
    simp only [Channel.updateCtl, hindex] at h ⊢
    split at h
    · exact ⟨p, { ch with index := .kAdded }, rfl, rfl, rfl, hmap h⟩
    · cases h
  | kAdded =>
    simp only [Channel.updateCtl, hindex] at h ⊢
    by_cases hnone : ch.isNonEvent = true
    · rw [if_pos hnone] at h ⊢
      exact ⟨p, ch, rfl, rfl, rfl, hmap h⟩
    · rw [if_neg hnone] at h ⊢
      exact ⟨p, ch, rfl, rfl, rfl, hmap h⟩

theorem removeChannel_ctl {p p' : EPollPoller κ} {channel : κ} {ch ch' : Channel}
    (h : p.removeChannel channel ch = .ok (p', ch')) :
    ∃ q : EPollPoller κ, q.interest = p.interest ∧ match ch.removeCtl with
      | some op => q.update op channel ch = .ok p'
      | none => p' = q := by
  unfold removeChannel at h
  cases hindex : ch.index with
  | kNew =>
    simp only [hindex] at h
    cases h
  | kAdded =>
    simp only [Channel.removeCtl, hindex, if_true] at h ⊢
    refine ⟨{ p with channels := Function.update p.channels ch.fd none }, rfl, ?_⟩
    cases hq : update { p with channels := Function.update p.channels ch.fd none } .del channel ch
      with
    | error _ =>
      simp only [hq] at h
      cases h
    | ok _ =>
      simp only [hq] at h
      cases h
      rfl
  | kDeleted =>
    simp only [Channel.removeCtl, hindex, reduceCtorEq, if_false] at h ⊢
    cases h
    exact ⟨{ p with channels := Function.update p.channels ch.fd none }, rfl, rfl⟩

end EPollPoller

/-! ### The system -/

/-- The addresses of the channels are `κ`. -/
structure PollerBook (κ : Type) where
  poller : EPollPoller κ
  channel : κ → Channel
  ctls : List CtlCall
  fault : Option Fault

inductive ChannelOp where
  | update (u : ChannelUpdate)
  | remove
deriving DecidableEq, Repr

namespace PollerBook

variable {κ : Type}

def start (fd : κ → Fd) : PollerBook κ where
  poller := .new
  channel k := .new (fd k)
  ctls := []
  fault := none

def ctl (s : PollerBook κ) (op : EpollOp) (fd : Fd) : CtlCall :=
  { op, fd, present := (s.poller.interest fd).isSome }

section Steps

variable [DecidableEq κ]

/-- What a call of the poller leaves behind; a failed `assert` comes before any `epoll_ctl`. -/
def settle (s : PollerBook κ) (k : κ) (calls : List CtlCall) :
    Except Fault (EPollPoller κ × Channel) → PollerBook κ
  | .ok (p, ch) =>
    { s with poller := p, channel := Function.update s.channel k ch, ctls := s.ctls ++ calls }
  | .error f =>
    { s with fault := some f, ctls := if f = .epollCtlFatal then s.ctls ++ calls else s.ctls }

/-- `remove` is for a channel that the poller knows.  What is recorded is the `epoll_ctl` that
    the poller has issued: `updateChannel_ctl` and `removeChannel_ctl` say so of every call
    that succeeds. -/
def step (s : PollerBook κ) : κ × ChannelOp → Option (PollerBook κ)
  | (k, .update u) =>
    let ch := u.assign (s.channel k)
    if s.fault = none then
      some (s.settle k [s.ctl ch.updateCtl ch.fd] (s.poller.updateChannel k ch))
    else none
  | (k, .remove) =>
    let ch := s.channel k
    if s.fault = none ∧ ch.index ≠ .kNew then
      some (s.settle k (ch.removeCtl.toList.map fun op => s.ctl op ch.fd)
        (s.poller.removeChannel k ch))
    else none

end Steps

/-! ### The bookkeeping -/

/-- The poller knows every channel that has an index, with its current mask, and nothing
    else.  Channels may have one descriptor, as long as only one of them has an index. -/
structure Known (s : PollerBook κ) : Prop where
  fault : s.fault = none
  registered : ∀ k, (s.channel k).index ≠ .kNew → s.poller.Registered k (s.channel k)
  mask : ∀ k, (s.channel k).index = .kAdded →
    s.poller.interest (s.channel k).fd = some ((s.channel k).events, k)
  covered : ∀ fd, s.poller.channels fd ≠ none ∨ s.poller.interest fd ≠ none →
    ∃ k, (s.channel k).fd = fd ∧ (s.channel k).index ≠ .kNew
  legal : ∀ c ∈ s.ctls, c.Legal

/-- The poller knows no other channel with the descriptor of the channel. -/
def Free (s : PollerBook κ) (k : κ) : Prop :=
  s.poller.channels (s.channel k).fd = none ∨ s.poller.channels (s.channel k).fd = some k

instance [DecidableEq κ] (s : PollerBook κ) (k : κ) : Decidable (s.Free k) :=
  inferInstanceAs (Decidable (_ ∨ _))

/-- The poller knows every channel as its index says, with its current mask, and
    nothing else. -/
structure Inv (s : PollerBook κ) : Prop where
  fault : s.fault = none
  registered : ∀ k, s.poller.Registered k (s.channel k)
  mask : ∀ k, (s.channel k).index = .kAdded →
    s.poller.interest (s.channel k).fd = some ((s.channel k).events, k)
  covered : ∀ fd, s.poller.channels fd ≠ none ∨ s.poller.interest fd ≠ none →
    ∃ k, (s.channel k).fd = fd
  distinct : ∀ j k, (s.channel j).fd = (s.channel k).fd → j = k
  legal : ∀ c ∈ s.ctls, c.Legal

theorem Known.start (fd : κ → Fd) : (start fd).Known where
  fault := rfl
  registered _ hindex := absurd rfl hindex
  mask _ hadded := by cases hadded
  covered _ hknown := by rcases hknown with h | h <;> exact absurd rfl h
  legal _ hc := by cases hc

section Known

variable {s : PollerBook κ} {k : κ}

theorem Known.channels_eq (h : s.Known) (hindex : (s.channel k).index ≠ .kNew) :
    s.poller.channels (s.channel k).fd = some k := by
  have hregistered := h.registered k hindex
  unfold EPollPoller.Registered at hregistered
  split at hregistered
  · contradiction
  · exact hregistered.1
  · exact hregistered.1

/-- What is watched is in `channels_`. -/
theorem Known.interest_eq_none (h : s.Known) {fd : Fd} (hnone : s.poller.channels fd = none) :
    s.poller.interest fd = none := by
  by_contra hsome
  obtain ⟨j, rfl, hindex⟩ := h.covered fd (Or.inr hsome)
  rw [h.channels_eq hindex] at hnone
  cases hnone

theorem Known.registered_of_free (h : s.Known) (hfree : s.Free k) :
    s.poller.Registered k (s.channel k) := by
  by_cases hindex : (s.channel k).index = .kNew
  · have hnone : s.poller.channels (s.channel k).fd = none := by
      refine hfree.resolve_right fun hsome => ?_
      obtain ⟨j, hfd, hj⟩ := h.covered (s.channel k).fd (Or.inl (by rw [hsome]; nofun))
      have hat := h.channels_eq hj
      rw [hfd, hsome, Option.some.injEq] at hat
      exact hj (hat ▸ hindex)
    unfold EPollPoller.Registered
    rw [hindex]
    exact ⟨hnone, h.interest_eq_none hnone⟩
  · exact h.registered k hindex

theorem Known.channels_iff (h : s.Known) (fd : Fd) (k : κ) :
    s.poller.channels fd = some k ↔ (s.channel k).fd = fd
      ∧ ((s.channel k).index = .kAdded ∨ (s.channel k).index = .kDeleted) := by
  constructor
  · intro hchannels
    obtain ⟨j, rfl, hindex⟩ := h.covered fd (Or.inl (by rw [hchannels]; nofun))
    rw [h.channels_eq hindex] at hchannels
    cases hchannels
    refine ⟨rfl, ?_⟩
    cases hk : (s.channel k).index with
    | kNew => exact absurd hk hindex
    | kAdded => exact Or.inl rfl
    | kDeleted => exact Or.inr rfl
  · rintro ⟨rfl, hindex⟩
    apply h.channels_eq
    rcases hindex with hindex | hindex <;> simp [hindex]

theorem Known.interest_iff (h : s.Known) (fd : Fd) (events : EpollEvents) (k : κ) :
    s.poller.interest fd = some (events, k) ↔ (s.channel k).fd = fd
      ∧ (s.channel k).index = .kAdded ∧ events = (s.channel k).events := by
  constructor
  · intro hinterest
    have hknown : s.poller.interest fd ≠ none := by
      rw [hinterest]
      nofun
    obtain ⟨j, rfl, hindex⟩ := h.covered fd (Or.inr hknown)
    have hadded := (h.registered j hindex).mem_interest hknown
    rw [h.mask j hadded, Option.some.injEq, Prod.mk.injEq] at hinterest
    obtain ⟨rfl, rfl⟩ := hinterest
    exact ⟨rfl, hadded, rfl⟩
  · rintro ⟨rfl, hadded, rfl⟩
    exact h.mask k hadded

end Known

/-! With different descriptors every channel is free. -/

theorem Inv.known {s : PollerBook κ} (h : s.Inv) : s.Known where
  fault := h.fault
  registered k _ := h.registered k
  mask := h.mask
  covered fd hknown := by
    obtain ⟨k, rfl⟩ := h.covered fd hknown
    refine ⟨k, rfl, fun hindex => ?_⟩
    have hregistered := h.registered k
    unfold EPollPoller.Registered at hregistered
    rw [hindex] at hregistered
    exact hknown.elim (fun hne => hne hregistered.1) fun hne => hne hregistered.2
  legal := h.legal

theorem Known.free {s : PollerBook κ} (h : s.Known)
    (hdistinct : ∀ j k, (s.channel j).fd = (s.channel k).fd → j = k) (k : κ) : s.Free k := by
  by_cases hnone : s.poller.channels (s.channel k).fd = none
  · exact Or.inl hnone
  · obtain ⟨j, hfd, hindex⟩ := h.covered _ (Or.inl hnone)
    have hat := h.channels_eq hindex
    rw [hdistinct j k hfd] at hat
    exact Or.inr hat

theorem Known.inv {s : PollerBook κ} (h : s.Known)
    (hdistinct : ∀ j k, (s.channel j).fd = (s.channel k).fd → j = k) : s.Inv where
  fault := h.fault
  registered k := h.registered_of_free (h.free hdistinct k)
  mask := h.mask
  covered fd hknown := (h.covered fd hknown).imp fun _ => And.left
  distinct := hdistinct
  legal := h.legal

theorem Inv.start {fd : κ → Fd} (hdistinct : Function.Injective fd) : (start fd).Inv :=
  (Known.start fd).inv fun _ _ hsame => hdistinct hsame

theorem Inv.free {s : PollerBook κ} (h : s.Inv) (k : κ) : s.Free k := h.known.free h.distinct k

theorem Inv.present_iff {s : PollerBook κ} (h : s.Inv) (k : κ) :
    (s.poller.interest (s.channel k).fd).isSome = true ↔ (s.channel k).index = .kAdded :=
  (h.registered k).present_iff

section Book

variable [DecidableEq κ] {s t : PollerBook κ} {k : κ}

/-- The channel `k` and what the poller keeps at its descriptor become other ones. -/
theorem Known.setAt (h : s.Known) (hfree : s.Free k) {ch : Channel} {fd : Fd}
    {channel : Option κ} {event : Option (EpollEvents × κ)} {calls : List CtlCall}
    (hfd : ch.fd = fd) (hold : (s.channel k).fd = fd)
    (hregistered : (s.poller.setAt fd channel event).Registered k ch)
    (hmask : ch.index = .kAdded → event = some (ch.events, k))
    (hkept : ch.index = .kNew → channel = none ∧ event = none)
    (hlegal : ∀ c ∈ calls, c.Legal) :
    Known { s with
      poller := s.poller.setAt fd channel event
      channel := Function.update s.channel k ch
      ctls := s.ctls ++ calls } := by
  -- another channel with an index is elsewhere
  have hother : ∀ j, j ≠ k → (s.channel j).index ≠ .kNew → (s.channel j).fd ≠ fd := by
    intro j hj hindex hsame
    have hat := h.channels_eq hindex
    rw [hsame, ← hold] at hat
    rcases hfree with hnone | hsome
    · rw [hnone] at hat
      cases hat
    · rw [hsome, Option.some.injEq] at hat
      exact hj hat.symm
  constructor
  · exact h.fault
  · intro j hindex
    by_cases hj : j = k
    · subst hj
      simp only [Function.update_self]
      exact hregistered
    · simp only [Function.update_of_ne hj] at hindex ⊢
      exact (h.registered j hindex).of_sameAt (s.poller.sameAt_setAt _ _ (hother j hj hindex))
  · intro j hadded
    by_cases hj : j = k
    · subst hj
      simp only [Function.update_self] at hadded ⊢
      rw [← hmask hadded, hfd]
      exact Function.update_self ..
    · simp only [Function.update_of_ne hj] at hadded ⊢
      have hindex : (s.channel j).index ≠ .kNew := by
        rw [hadded]
        nofun
      exact (s.poller.sameAt_setAt channel event (hother j hj hindex)).2.trans (h.mask j hadded)
  · intro fd' hknown
    by_cases hsame : fd' = fd
    · refine ⟨k, by simp only [Function.update_self, hfd, hsame], ?_⟩
      simp only [Function.update_self]
      intro hindex
      obtain ⟨rfl, rfl⟩ := hkept hindex
      simp [EPollPoller.setAt, hsame] at hknown
    · have hat := s.poller.sameAt_setAt channel event hsame
      simp only [hat.1, hat.2] at hknown
      obtain ⟨j, rfl, hindex⟩ := h.covered fd' hknown
      have hj : j ≠ k := by
        rintro rfl
        exact hsame hold
      exact ⟨j, by simp only [Function.update_of_ne hj], by simpa only [Function.update_of_ne hj]⟩
  · intro c hc
    rcases List.mem_append.mp hc with hold | hnew
    · exact h.legal c hold
    · exact hlegal c hnew

/-- **`update()` succeeds**, and this is what it does. -/
theorem Known.step_update (h : s.Known) (hfree : s.Free k) (u : ChannelUpdate) :
    let ch := u.assign (s.channel k)
    s.step (k, .update u) = some { s with
      poller := s.poller.setAt ch.fd (some k) (EPollPoller.updatedEvent k ch)
      channel := Function.update s.channel k ch.updated
      ctls := s.ctls ++ [s.ctl ch.updateCtl ch.fd] } := by
  have hregistered := (h.registered_of_free hfree).congr (u.assign_index _) (u.assign_fd _)
  simp only [step, h.fault, if_true, EPollPoller.updateChannel_eq hregistered, settle]

/-- `remove()` runs only on a channel with an index. -/
theorem index_of_remove (hstep : s.step (k, .remove) = some t) :
    (s.channel k).index ≠ .kNew := by
  intro hnew
  simp [PollerBook.step, hnew] at hstep

theorem Known.step_remove (h : s.Known) (hindex : (s.channel k).index ≠ .kNew) :
    let ch := s.channel k
    s.step (k, .remove) = some { s with
      poller := s.poller.setAt ch.fd none none
      channel := Function.update s.channel k ch.removed
      ctls := s.ctls ++ ch.removeCtl.toList.map fun op => s.ctl op ch.fd } := by
  simp only [step, h.fault, hindex, ne_eq, not_false_eq_true, and_self, if_true,
    EPollPoller.removeChannel_eq (h.registered k hindex) hindex, settle]

/-- **Every operation keeps the books**, from each index and mask. -/
theorem Known.step (h : s.Known) {op : ChannelOp} (hfree : s.Free k)
    (hstep : s.step (k, op) = some t) : t.Known := by
  have hpresent := (h.registered_of_free hfree).present_iff
  cases op with
  | update u =>
    rw [h.step_update hfree u, Option.some.injEq] at hstep
    subst hstep
    have hindex := u.assign_index (s.channel k)
    have hfd := u.assign_fd (s.channel k)
    refine h.setAt hfree rfl hfd.symm (s.poller.setAt_updated_registered k _) ?_ ?_ ?_
    · intro hadded
      simp only [Channel.updated, ite_eq_right_iff, reduceCtorEq, imp_false] at hadded
      simp only [EPollPoller.updatedEvent, if_neg hadded, Channel.updated_events]
    · intro hnew
      simp only [Channel.updated] at hnew
      split at hnew <;> cases hnew
    · intro c hc
      rw [List.mem_singleton] at hc
      subst hc
      simp only [CtlCall.Legal, ctl, Channel.updateCtl_eq_add, hindex, hfd]
      rw [← Bool.not_eq_true, hpresent]
  | remove =>
    rw [h.step_remove (index_of_remove hstep), Option.some.injEq] at hstep
    subst hstep
    refine h.setAt hfree rfl rfl (s.poller.setAt_removed_registered k _) (fun hadded => ?_)
      (fun _ => ⟨rfl, rfl⟩) ?_
    · cases hadded
    intro c hc
    simp only [Channel.removeCtl, List.mem_map, Option.mem_toList] at hc
    obtain ⟨op, hop, rfl⟩ := hc
    split at hop
    · rename_i hadded
      cases hop
      simp [CtlCall.Legal, ctl, hpresent.mpr hadded]
    · cases hop

/-- A channel keeps its descriptor. -/
theorem Known.step_fd (h : s.Known) {op : ChannelOp} (hfree : s.Free k)
    (hstep : s.step (k, op) = some t) (j : κ) : (t.channel j).fd = (s.channel j).fd := by
  have hkeeps : ∀ {ch : Channel}, ch.fd = (s.channel k).fd →
      (Function.update s.channel k ch j).fd = (s.channel j).fd := by
    intro ch hfd
    by_cases hj : j = k
    · subst hj
      rw [Function.update_self, hfd]
    · rw [Function.update_of_ne hj]
  cases op with
  | update u =>
    rw [h.step_update hfree u, Option.some.injEq] at hstep
    subst hstep
    exact hkeeps (u.assign_fd _)
  | remove =>
    rw [h.step_remove (index_of_remove hstep), Option.some.injEq] at hstep
    subst hstep
    exact hkeeps rfl

theorem Inv.step (h : s.Inv) {a : κ × ChannelOp} (hstep : s.step a = some t) : t.Inv := by
  obtain ⟨k, op⟩ := a
  have hfds := h.known.step_fd (h.free k) hstep
  refine (h.known.step (h.free k) hstep).inv fun i j hsame => ?_
  rw [hfds, hfds] at hsame
  exact h.distinct i j hsame

/-- **The bookkeeping matches the kernel** after any sequence of operations: the books
    of the channels, of the poller and of the kernel say the same, every `epoll_ctl` was
    legal, and no `assert` failed. -/
theorem book_matches_kernel {fd : κ → Fd} (hdistinct : Function.Injective fd)
    {ops : List (κ × ChannelOp)} (hrun : Runs.run PollerBook.step (start fd) ops = some s) :
    (∀ d k, s.poller.channels d = some k ↔ (s.channel k).fd = d
        ∧ ((s.channel k).index = .kAdded ∨ (s.channel k).index = .kDeleted))
      ∧ (∀ k, s.poller.hasChannel k (s.channel k) = true
        ↔ (s.channel k).index = .kAdded ∨ (s.channel k).index = .kDeleted)
      ∧ (∀ d events k, s.poller.interest d = some (events, k) ↔ (s.channel k).fd = d
        ∧ (s.channel k).index = .kAdded ∧ events = (s.channel k).events)
      ∧ (∀ c ∈ s.ctls, c.Legal) ∧ s.fault = none := by
  have hinv : s.Inv :=
    Runs.run_induction (fun _ _ _ hs hstep => hs.step hstep) (.start hdistinct) hrun
  refine ⟨hinv.known.channels_iff, ?_, hinv.known.interest_iff, hinv.legal, hinv.fault⟩
  intro k
  rw [EPollPoller.hasChannel, decide_eq_true_eq, hinv.known.channels_iff]
  exact and_iff_right rfl

/-- Two channels; one is disabled, added again and removed. -/
def interleaved : List (Fin 2 × ChannelOp) :=
  [(1, .update .enableReading), (0, .update .enableReading), (1, .update .enableWriting),
    (1, .update .disableAll), (0, .update .disableReading), (0, .remove),
    (1, .update .enableWriting)]

theorem book_matches_kernel_interleaved :
    ∃ s, Runs.run PollerBook.step (start Fin.val) interleaved = some s
      ∧ s.poller.interest 1 = some (kWriteEvent, 1) ∧ s.poller.channels 0 = none
      ∧ (∀ d k, s.poller.channels d = some k ↔ (s.channel k).fd = d
        ∧ ((s.channel k).index = .kAdded ∨ (s.channel k).index = .kDeleted))
      ∧ (∀ k, s.poller.hasChannel k (s.channel k) = true
        ↔ (s.channel k).index = .kAdded ∨ (s.channel k).index = .kDeleted)
      ∧ (∀ d events k, s.poller.interest d = some (events, k) ↔ (s.channel k).fd = d
        ∧ (s.channel k).index = .kAdded ∧ events = (s.channel k).events)
      ∧ (∀ c ∈ s.ctls, c.Legal) ∧ s.fault = none := by
  have hrun : Runs.run PollerBook.step (start Fin.val) interleaved = some _ := rfl
  exact ⟨_, hrun, rfl, rfl, book_matches_kernel (fun _ _ => Fin.ext) hrun⟩

/-! ### Channels without interest -/

/-- The kernel watches the descriptor of the channel. -/
def InEpollSet (s : PollerBook κ) (k : κ) : Prop := s.poller.interest (s.channel k).fd ≠ none

/-- An `update()` leaves the channel in the epoll set iff its mask is not empty, and a
    `disableAll` of a channel outside the epoll set leaves the poller as it is. -/
def RegisteredIffInterested (s : PollerBook κ) (a : κ × ChannelOp) : Prop :=
  ∀ t, s.step a = some t → match a with
    | (k, .update u) => (t.InEpollSet k ↔ (t.channel k).events ≠ kNonEvent)
        ∧ (u = .disableAll → ¬ s.InEpollSet k → t.poller = s.poller)
    | (_, .remove) => True

/-- An `update()` with an empty mask finds the channel in the epoll set. -/
def EmptyIfAdded (s : PollerBook κ) : κ × ChannelOp → Prop
  | (k, .update u) =>
    (u.assign (s.channel k)).events = kNonEvent → (s.channel k).index = .kAdded
  | (_, .remove) => True

instance (s : PollerBook κ) : (a : κ × ChannelOp) → Decidable (s.EmptyIfAdded a)
  | (_, .update _) => inferInstanceAs (Decidable (_ → _))
  | (_, .remove) => inferInstanceAs (Decidable True)

theorem Inv.update_iff (h : s.Inv) (k : κ) (u : ChannelUpdate) :
    s.RegisteredIffInterested (k, .update u) ↔ s.EmptyIfAdded (k, .update u) := by
  have hpresent := h.present_iff k
  have hindex := u.assign_index (s.channel k)
  have hfd := u.assign_fd (s.channel k)
  -- what the step leaves in the epoll set
  have hset : ∀ t, s.step (k, .update u) = some t →
      (t.channel k).events = (u.assign (s.channel k)).events
      ∧ (t.InEpollSet k ↔ ¬ ((s.channel k).index = .kAdded
          ∧ (u.assign (s.channel k)).events = kNonEvent)) := by
    intro t hstep
    rw [h.known.step_update (h.free k) u, Option.some.injEq] at hstep
    subst hstep
    simp only [InEpollSet, Function.update_self, Channel.updated_events, Channel.updated_fd,
      EPollPoller.setAt, EPollPoller.updatedEvent, Channel.isNonEvent, decide_eq_true_eq, hindex,
      true_and, ne_eq, ite_eq_left_iff, reduceCtorEq, imp_false, not_not]
  constructor
  · intro hquiet hempty
    by_contra hnot
    have hstep := h.known.step_update (h.free k) u
    obtain ⟨hevents, hin⟩ := hset _ hstep
    have hiff := (hquiet _ hstep).1
    rw [hin, hevents] at hiff
    exact hiff.mp (fun hboth => hnot hboth.1) hempty
  · intro hadded t hstep
    obtain ⟨hevents, hin⟩ := hset t hstep
    constructor
    · rw [hin, hevents]
      constructor
      · intro hnot hempty
        exact hnot ⟨hadded hempty, hempty⟩
      · intro hsome hboth
        exact hsome hboth.2
    · intro hu hout
      subst hu
      rw [InEpollSet, ← Option.isSome_iff_ne_none, hpresent] at hout
      exact absurd (hadded rfl) hout

/-- **A channel is registered exactly as long as it has an interest** in a run from any
    indices iff every empty mask finds the channel added. -/
theorem registered_iff_interested (h : s.Inv) (ops : List (κ × ChannelOp)) :
    Runs.Along PollerBook.step RegisteredIffInterested s ops
      ↔ Runs.Along PollerBook.step EmptyIfAdded s ops := by
  refine Runs.along_congr (fun _ _ _ hs _ hstep => hs.step hstep) ?_ h
  rintro u ⟨k, op⟩ hu
  cases op with
  | update v => exact hu.update_iff k v
  | remove => exact ⟨fun _ => trivial, fun _ _ _ => trivial⟩

theorem registered_iff_interested_interleaved :
    Runs.Along PollerBook.step RegisteredIffInterested (start Fin.val) interleaved :=
  (registered_iff_interested (.start (fun _ _ => Fin.ext)) interleaved).mpr (by decide +kernel)

/-- `disableAll` on a channel that was never enabled, and a second time on one that was. -/
theorem disableAll_registers :
    (∃ t, Runs.run PollerBook.step (start fun _ : Unit => 7) [((), .update .disableAll)] = some t
        ∧ (t.channel ()).events = kNonEvent ∧ t.poller.interest 7 = some (kNonEvent, ()))
      ∧ ∃ t u, Runs.run PollerBook.step (start fun _ : Unit => 7)
          [((), .update .enableReading), ((), .update .disableAll)] = some t
        ∧ t.poller.interest 7 = none
        ∧ t.step ((), .update .disableAll) = some u ∧ (u.channel ()).events = kNonEvent
        ∧ u.poller.interest 7 = some (kNonEvent, ()) :=
  ⟨⟨_, rfl, rfl, rfl⟩, _, _, rfl, rfl, rfl, rfl, rfl⟩

end Book

end PollerBook

end Ymuduo
