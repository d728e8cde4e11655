/-
  Ymuduo/Poller.lean
  ==================
  **What the poller knows about a channel.**

  `Registered` ties the `index` of a channel to `channels_` and to the interest list
  of the kernel.  From a registered channel `updateChannel` never fails and only moves
  the index (`updateChannel_registered`), and `removeChannel` fails on `kNew` only.
  Both leave the other descriptors alone.
-/
import Ymuduo.Channel

namespace Ymuduo

/-- The channel after an `update()`. -/
def Channel.updated (ch : Channel) : Channel :=
  { ch with index := if ch.index = .kAdded ∧ ch.isNonEvent = true then .kDeleted else .kAdded }

/-- The channel after a `remove()`. -/
def Channel.removed (ch : Channel) : Channel := { ch with index := .kNew }

@[simp] theorem Channel.updated_fd (ch : Channel) : ch.updated.fd = ch.fd := rfl
@[simp] theorem Channel.updated_events (ch : Channel) : ch.updated.events = ch.events := rfl
@[simp] theorem Channel.removed_fd (ch : Channel) : ch.removed.fd = ch.fd := rfl

namespace EPollPoller

variable {κ : Type}

/-- The poller and the kernel know the channel as its index says. -/
def Registered (p : EPollPoller κ) (channel : κ) (ch : Channel) : Prop :=
  match ch.index with
  | .kNew => p.channels ch.fd = none ∧ p.interest ch.fd = none
  | .kAdded => p.channels ch.fd = some channel ∧ (p.interest ch.fd).map Prod.snd = some channel
  | .kDeleted => p.channels ch.fd = some channel ∧ p.interest ch.fd = none

/-- The two pollers agree on the descriptor. -/
def SameAt (p q : EPollPoller κ) (fd : Fd) : Prop :=
  q.channels fd = p.channels fd ∧ q.interest fd = p.interest fd

theorem Registered.of_sameAt {p q : EPollPoller κ} {channel : κ} {ch : Channel}
    (h : p.Registered channel ch) (hsame : p.SameAt q ch.fd) : q.Registered channel ch := by
  unfold Registered at h ⊢
  rw [hsame.1, hsame.2]
  exact h

/-- Only `index` and `fd` matter. -/
theorem Registered.congr {p : EPollPoller κ} {channel : κ} {ch ch' : Channel}
    (h : p.Registered channel ch) (hindex : ch'.index = ch.index) (hfd : ch'.fd = ch.fd) :
    p.Registered channel ch' := by
  unfold Registered at h ⊢
  rw [hindex, hfd]
  exact h

theorem Registered.mem_interest {p : EPollPoller κ} {channel : κ} {ch : Channel}
    (h : p.Registered channel ch) (hinterest : p.interest ch.fd ≠ none) : ch.index = .kAdded := by
  unfold Registered at h
  split at h
  · exact absurd h.2 hinterest
  · assumption
  · exact absurd h.2 hinterest

theorem Registered.present_iff {p : EPollPoller κ} {channel : κ} {ch : Channel}
    (h : p.Registered channel ch) : (p.interest ch.fd).isSome = true ↔ ch.index = .kAdded := by
  constructor
  · intro hpresent
    exact h.mem_interest (Option.isSome_iff_ne_none.mp hpresent)
  · intro hadded
    unfold Registered at h
    rw [hadded] at h
    obtain ⟨_, hevent, _⟩ := Option.map_eq_some_iff.mp h.2
    rw [hevent]
    rfl

/-- The poller with other entries at the descriptor. -/
def setAt (p : EPollPoller κ) (fd : Fd) (channel : Option κ)
    (event : Option (EpollEvents × κ)) : EPollPoller κ where
  channels := Function.update p.channels fd channel
  interest := Function.update p.interest fd event

theorem sameAt_setAt (p : EPollPoller κ) {fd fd' : Fd} (channel : Option κ)
    (event : Option (EpollEvents × κ)) (hne : fd' ≠ fd) :
    p.SameAt (p.setAt fd channel event) fd' := by
  constructor
  · exact Function.update_of_ne hne _ _
  · exact Function.update_of_ne hne _ _

theorem setAt_removed_registered (p : EPollPoller κ) (channel : κ) (ch : Channel) :
    (p.setAt ch.fd none none).Registered channel ch.removed := by
  simp [Registered, Channel.removed, setAt]

/-- What `epoll_ctl` leaves at the descriptor of a channel that is updated. -/
def updatedEvent (channel : κ) (ch : Channel) : Option (EpollEvents × κ) :=
  if ch.index = .kAdded ∧ ch.isNonEvent = true then none else some (ch.events, channel)

theorem setAt_updated_registered (p : EPollPoller κ) (channel : κ) (ch : Channel) :
    (p.setAt ch.fd (some channel) (updatedEvent channel ch)).Registered channel ch.updated := by
  by_cases hdel : ch.index = .kAdded ∧ ch.isNonEvent = true
  · simp [Registered, Channel.updated, setAt, updatedEvent, hdel]
  · simp [Registered, Channel.updated, setAt, updatedEvent, hdel]

/-- **`updateChannel` of a registered channel succeeds** and touches its descriptor only. -/
theorem updateChannel_eq {p : EPollPoller κ} {channel : κ} {ch : Channel}
    (h : p.Registered channel ch) : p.updateChannel channel ch
      = .ok (p.setAt ch.fd (some channel) (updatedEvent channel ch), ch.updated) := by
  unfold Registered at h
  split at h
  · rename_i hindex
    simp [updateChannel, hindex, update, epollCtl, h.2, Except.map, Channel.updated, setAt,
      updatedEvent]
  · rename_i hindex
    obtain ⟨event, hevent, _⟩ := Option.map_eq_some_iff.mp h.2
    have hchannels : Function.update p.channels ch.fd (some channel) = p.channels := by
      rw [← h.1, Function.update_eq_self]
    by_cases hnone : ch.isNonEvent = true
    · simp [updateChannel, hindex, hnone, update, epollCtl, hevent, Except.map,
        Channel.updated, setAt, updatedEvent, hchannels]
    · have hsame : ch.updated = ch := by
        simp [Channel.updated, hnone, ← hindex]
      simp [updateChannel, hindex, hnone, update, epollCtl, hevent, Except.map, hsame, setAt,
        updatedEvent, hchannels]
  · rename_i hindex
    have hchannels : Function.update p.channels ch.fd (some channel) = p.channels := by
      rw [← h.1, Function.update_eq_self]
    simp [updateChannel, hindex, update, epollCtl, h.1, h.2, Except.map, Channel.updated, setAt,
      updatedEvent, hchannels]

theorem updateChannel_registered {p : EPollPoller κ} {channel : κ} {ch : Channel}
    (h : p.Registered channel ch) : ∃ p', p.updateChannel channel ch = .ok (p', ch.updated)
      ∧ p'.Registered channel ch.updated ∧ ∀ fd, fd ≠ ch.fd → p.SameAt p' fd :=
  ⟨_, updateChannel_eq h, p.setAt_updated_registered channel ch,
    fun _ => p.sameAt_setAt _ _⟩

/-- **`removeChannel` of a registered channel succeeds unless it is `kNew`**, the case
    of its `assert`. -/
theorem removeChannel_eq {p : EPollPoller κ} {channel : κ} {ch : Channel}
    (h : p.Registered channel ch) (hindex : ch.index ≠ .kNew) :
    p.removeChannel channel ch = .ok (p.setAt ch.fd none none, ch.removed) := by
  unfold Registered at h
  split at h
  · contradiction
  · rename_i hadded
    obtain ⟨event, hevent, _⟩ := Option.map_eq_some_iff.mp h.2
    simp [removeChannel, hadded, update, epollCtl, hevent, Except.map, Channel.removed, setAt]
  · rename_i hdeleted
    simp [removeChannel, hdeleted, Channel.removed, setAt, ← h.2]

theorem removeChannel_registered {p : EPollPoller κ} {channel : κ} {ch : Channel}
    (h : p.Registered channel ch) (hindex : ch.index ≠ .kNew) :
    ∃ p', p.removeChannel channel ch = .ok (p', ch.removed)
      ∧ p'.Registered channel ch.removed ∧ ∀ fd, fd ≠ ch.fd → p.SameAt p' fd :=
  ⟨_, removeChannel_eq h hindex, p.setAt_removed_registered channel ch, fun _ => p.sameAt_setAt _ _⟩

/-! ### Other descriptors -/

theorem SameAt.trans {p q r : EPollPoller κ} {fd : Fd} (h : p.SameAt q fd) (h' : q.SameAt r fd) :
    p.SameAt r fd :=
  ⟨h'.1.trans h.1, h'.2.trans h.2⟩

theorem epollCtl_sameAt {p p' : EPollPoller κ} {op : EpollOp} {fd fd' : Fd}
    {event : EpollEvents × κ} (h : p.epollCtl op fd event = some p') (hne : fd' ≠ fd) :
    p.SameAt p' fd' := by
  unfold epollCtl at h
  split at h
  · cases h
    exact ⟨rfl, Function.update_of_ne hne _ _⟩
  · cases h
    exact ⟨rfl, Function.update_of_ne hne _ _⟩
  · cases h
    exact ⟨rfl, Function.update_of_ne hne _ _⟩
  · cases h

theorem update_sameAt {p p' : EPollPoller κ} {op : EpollOp} {channel : κ} {ch : Channel}
    {fd : Fd} (h : p.update op channel ch = .ok p') (hne : fd ≠ ch.fd) : p.SameAt p' fd := by
  unfold update at h
  split at h
  · rename_i q hctl
    cases h
    exact epollCtl_sameAt hctl hne
  · split at h
    · cases h
      exact ⟨rfl, rfl⟩
    · cases h

/-- Whatever the poller knows, `updateChannel` and `removeChannel` leave the other
    descriptors alone. -/
theorem updateChannel_sameAt {p p' : EPollPoller κ} {channel : κ} {ch ch' : Channel} {fd : Fd}
    (h : p.updateChannel channel ch = .ok (p', ch')) (hne : fd ≠ ch.fd) : p.SameAt p' fd := by
  have hmap : ∀ {q : EPollPoller κ} {op : EpollOp} {c c' : Channel}, c.fd = ch.fd →
      (q.update op channel c).map (fun r => (r, c')) = .ok (p', ch') → q.SameAt p' fd := by
    intro q op c c' hfd hupdate
    cases hq : q.update op channel c with
    | error f =>
      rw [hq] at hupdate
      cases hupdate
    | ok r =>
      rw [hq] at hupdate
      cases hupdate
      exact update_sameAt hq (hfd ▸ hne)
  unfold updateChannel at h
  split at h
  · have hadded :
        p.SameAt { p with channels := Function.update p.channels ch.fd (some channel) } fd :=
      ⟨Function.update_of_ne hne _ _, rfl⟩
    exact hadded.trans (hmap rfl h)
  · split at h
    · exact hmap rfl h
    · cases h
  · split at h
    · exact hmap rfl h
    · exact hmap rfl h

theorem removeChannel_sameAt {p p' : EPollPoller κ} {channel : κ} {ch ch' : Channel} {fd : Fd}
    (h : p.removeChannel channel ch = .ok (p', ch')) (hne : fd ≠ ch.fd) : p.SameAt p' fd := by
  have herased : p.SameAt { p with channels := Function.update p.channels ch.fd none } fd :=
    ⟨Function.update_of_ne hne _ _, rfl⟩
  unfold removeChannel at h
  split at h
  · cases h
  · rename_i hindex
    cases hq : EPollPoller.update { p with channels := Function.update p.channels ch.fd none }
        .del channel ch with
    | error f =>
      simp only [hq] at h
      cases h
    | ok r =>
      simp only [hq] at h
      cases h
      exact herased.trans (update_sameAt hq hne)
  · cases h
    exact herased

end EPollPoller

end Ymuduo
