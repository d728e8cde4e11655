/-
  Ymuduo/Polling.lean
  ===================
  **`EPollPoller::poll` and the ready list of the kernel.**

  The list is the kernel's, and `epoll_wait` is any function that serves it in turn, as
  epoll(7) says: a descriptor that is reported is looked at again in a later call
  (level-triggered), and calls with more descriptors ready than `events_` has room for take
  turns.  `poll` copies what it gets into the `revents_` of the channels and into
  `activeChannels_`, and doubles `events_` when it was full.

  What it reports is registered and up to date (`poll_reports`), and no channel that stays
  ready is passed over for long, however many others there are (`no_starvation`).
-/
import Ymuduo.PollerBook
import Ymuduo.ReadyList
import Mathlib.Algebra.Ring.Nat
import Mathlib.Data.List.Nodup

namespace Ymuduo

open ReadyList

/-- `kInitEventListSize` -/
def kInitEventListSize : Nat := 16

namespace EpollEvents

/-- `a & b` -/
def inter (a b : EpollEvents) : EpollEvents where
  epollIn := a.epollIn && b.epollIn
  epollPri := a.epollPri && b.epollPri
  epollOut := a.epollOut && b.epollOut
  epollErr := a.epollErr && b.epollErr
  epollHup := a.epollHup && b.epollHup

/-- What the kernel reports of what happens on a descriptor: what its mask asks for, and
    `EPOLLERR` and `EPOLLHUP` in any case. -/
def reported (happening mask : EpollEvents) : EpollEvents :=
  happening.inter (mask.union { epollErr := true, epollHup := true })

end EpollEvents

/-- The entry of `events_` for a descriptor, if something is to be reported. -/
def EPollPoller.report {κ : Type} (p : EPollPoller κ) (happening : Fd → EpollEvents) (fd : Fd) :
    Option (EpollEvents × κ) :=
  (p.interest fd).bind fun (mask, channel) =>
    let revents := (happening fd).reported mask
    if revents = kNonEvent then none else some (revents, channel)

theorem EPollPoller.report_eq_some {κ : Type} {p : EPollPoller κ} {happening : Fd → EpollEvents}
    {fd : Fd} {revents : EpollEvents} {channel : κ} :
    p.report happening fd = some (revents, channel) ↔ revents ≠ kNonEvent
      ∧ ∃ mask, p.interest fd = some (mask, channel) ∧ (happening fd).reported mask = revents := by
  unfold report
  constructor
  · intro h
    obtain ⟨⟨mask, channel'⟩, hinterest, h⟩ := Option.bind_eq_some_iff.mp h
    dsimp only at h
    split at h
    · cases h
    · rename_i hsome
      cases h
      exact ⟨hsome, mask, hinterest, rfl⟩
  · rintro ⟨hsome, mask, hinterest, rfl⟩
    simp only [hinterest, Option.bind_some, if_neg hsome]

/-- The poller of a loop with its channels.  `events` is `events_.size()`, `ready` the ready
    list of `epollfd_`. -/
structure PollSystem (κ : Type) where
  book : PollerBook κ
  events : Nat
  ready : List Fd
  revents : κ → EpollEvents
  activeChannels : List κ

/-- `wait` is a call of `poll` in which `epoll_wait` returns, with what happens on the
    descriptors then; in `interrupted` it fails.  `arrive`: something happens on a descriptor
    that is watched.  A `channel` may have the descriptor of an earlier one that has been
    removed. -/
inductive PollAct (κ : Type) where
  | wait (happening : Fd → EpollEvents)
  | interrupted
  | arrive (fd : Fd)
  | channel (k : κ) (op : ChannelOp)

namespace PollSystem

variable {κ : Type}

def start (fd : κ → Fd) : PollSystem κ where
  book := .start fd
  events := kInitEventListSize
  ready := []
  revents := fun _ => kNonEvent
  activeChannels := []

section Steps

variable [DecidableEq κ] (epoll : ReadyQueue Fd (EpollEvents × κ))

/-- The loop of `fillActiveChannels`. -/
def fillActiveChannels (s : PollSystem κ) : List (EpollEvents × κ) → PollSystem κ
  | [] => s
  | (revents, channel) :: events =>
    fillActiveChannels { s with
      revents := Function.update s.revents channel revents
      activeChannels := s.activeChannels ++ [channel] } events

/-- `epoll_wait`: the entries of `events_` that it fills, with their descriptors, and the
    ready list that it leaves. -/
def epollWait (s : PollSystem κ) (happening : Fd → EpollEvents) :
    List (Fd × EpollEvents × κ) × List Fd :=
  epoll.wait (s.book.poller.report happening) s.events s.ready

/-- `activeChannels_.clear()` in `loop()`, and `poll`. -/
def poll (s : PollSystem κ) (happening : Fd → EpollEvents) : PollSystem κ :=
  let filled := (s.epollWait epoll happening).1
  let numEvents := filled.length
  let waited := { s with ready := (s.epollWait epoll happening).2, activeChannels := [] }
  let active := waited.fillActiveChannels (filled.map Prod.snd)
  if 0 < numEvents ∧ numEvents = s.events then { active with events := active.events * 2 }
  else active

def step (s : PollSystem κ) : PollAct κ → Option (PollSystem κ)
  | .wait happening => some (s.poll epoll happening)
  | .interrupted => some { s with activeChannels := [] }
  | .arrive fd =>
    if (s.book.poller.interest fd).isSome then some { s with ready := epoll.arrive fd s.ready }
    else none
  | .channel k op =>
    if s.book.Free k then
      (s.book.step (k, op)).map fun book =>
        { s with
          book := book
          ready := epoll.retain (fun fd => (book.poller.interest fd).isSome) s.ready }
    else none

/-! ### What `poll` does -/

theorem fillActiveChannels_eq (events : List (EpollEvents × κ)) : ∀ s : PollSystem κ,
    ∃ revents, s.fillActiveChannels events = { s with
        revents := revents, activeChannels := s.activeChannels ++ events.map Prod.snd }
      ∧ (∀ k, k ∉ events.map Prod.snd → revents k = s.revents k)
      ∧ ((events.map Prod.snd).Nodup → ∀ e ∈ events, revents e.2 = e.1) := by
  induction events with
  | nil => exact fun s => ⟨s.revents, by simp [fillActiveChannels], fun _ _ => rfl, by simp⟩
  | cons event events ih =>
    intro s
    obtain ⟨revents, heq, hothers, hown⟩ := ih { s with
      revents := Function.update s.revents event.2 event.1
      activeChannels := s.activeChannels ++ [event.2] }
    refine ⟨revents, ?_, fun k hk => ?_, fun hnodup e he => ?_⟩
    · rw [fillActiveChannels, heq, List.map_cons, List.append_assoc]
      rfl
    · rw [List.map_cons, List.mem_cons, not_or] at hk
      rw [hothers k hk.2]
      exact Function.update_of_ne hk.1 ..
    · rw [List.map_cons, List.nodup_cons] at hnodup
      rcases List.mem_cons.mp he with rfl | hrest
      · rw [hothers _ hnodup.1]
        exact Function.update_self ..
      · exact hown hnodup.2 e hrest

/-- The channels that a call gives to the loop. -/
def filledChannels (s : PollSystem κ) (happening : Fd → EpollEvents) : List κ :=
  (s.epollWait epoll happening).1.map fun e => e.2.2

/-- **What `poll` leaves.** -/
theorem poll_eq (s : PollSystem κ) (happening : Fd → EpollEvents) :
    (s.poll epoll happening).book = s.book
      ∧ (s.poll epoll happening).ready = (s.epollWait epoll happening).2
      ∧ (s.poll epoll happening).activeChannels = s.filledChannels epoll happening
      ∧ (s.poll epoll happening).events
        = (if 0 < (s.epollWait epoll happening).1.length
            ∧ (s.epollWait epoll happening).1.length = s.events then s.events * 2 else s.events)
      ∧ ((s.filledChannels epoll happening).Nodup → ∀ e ∈ (s.epollWait epoll happening).1,
        (s.poll epoll happening).revents e.2.2 = e.2.1) := by
  obtain ⟨revents, heq, _, hown⟩ := fillActiveChannels_eq
    ((s.epollWait epoll happening).1.map Prod.snd)
    { s with ready := (s.epollWait epoll happening).2, activeChannels := [] }
  rw [List.map_map] at heq hown
  have hown' : (s.filledChannels epoll happening).Nodup →
      ∀ e ∈ (s.epollWait epoll happening).1, revents e.2.2 = e.2.1 :=
    fun hnodup e he => hown hnodup e.2 (List.mem_map.mpr ⟨e, he, rfl⟩)
  unfold poll
  simp only [heq, List.nil_append]
  split
  · exact ⟨rfl, rfl, rfl, rfl, hown'⟩
  · exact ⟨rfl, rfl, rfl, rfl, hown'⟩

end Steps

/-! ### The invariant -/

structure Inv (s : PollSystem κ) : Prop where
  book : s.book.Known
  events : ∃ k, s.events = kInitEventListSize * 2 ^ k
  ready : s.ready.Nodup
  watched : ∀ fd ∈ s.ready, (s.book.poller.interest fd).isSome = true

theorem Inv.start (fd : κ → Fd) : (start fd).Inv where
  book := .start fd
  events := ⟨0, rfl⟩
  ready := List.nodup_nil
  watched _ hfd := absurd hfd List.not_mem_nil

section Invariant

variable {epoll : ReadyQueue Fd (EpollEvents × κ)} {s t : PollSystem κ}
  {happening : Fd → EpollEvents}

/-- An entry is that of a channel which is added, with the mask that it has now. -/
theorem Inv.of_mem_epollWait (h : s.Inv) (hepoll : epoll.InTurn) {fd : Fd}
    {revents : EpollEvents} {k : κ} (hmem : (fd, revents, k) ∈ (s.epollWait epoll happening).1) :
    (s.book.channel k).fd = fd ∧ (s.book.channel k).index = .kAdded ∧ revents ≠ kNonEvent
      ∧ revents = (happening fd).reported (s.book.channel k).events := by
  obtain ⟨hsome, mask, hinterest, hrevents⟩ :=
    EPollPoller.report_eq_some.mp (hepoll.reports hmem).2
  obtain ⟨hfd, hadded, rfl⟩ := (h.book.interest_iff fd mask k).mp hinterest
  exact ⟨hfd, hadded, hsome, hrevents.symm⟩

theorem Inv.nodup_filledChannels (h : s.Inv) (hepoll : epoll.InTurn)
    (happening : Fd → EpollEvents) : (s.filledChannels epoll happening).Nodup := by
  refine List.Nodup.of_map (fun k => (s.book.channel k).fd) ?_
  have hfds : (s.filledChannels epoll happening).map (fun k => (s.book.channel k).fd)
      = (s.epollWait epoll happening).1.map Prod.fst := by
    rw [filledChannels, List.map_map]
    refine List.map_congr_left fun e he => ?_
    exact (h.of_mem_epollWait hepoll he).1
  rw [hfds]
  exact hepoll.nodup_reports h.ready

variable [DecidableEq κ]

theorem Inv.poll (h : s.Inv) (hepoll : epoll.InTurn) (happening : Fd → EpollEvents) :
    (s.poll epoll happening).Inv := by
  obtain ⟨hbook, hready, _, hevents, _⟩ := s.poll_eq epoll happening
  refine ⟨hbook ▸ h.book, ?_, hready ▸ hepoll.nodup_wait h.ready, fun fd hfd => ?_⟩
  · obtain ⟨k, hk⟩ := h.events
    rw [hevents]
    split
    · exact ⟨k + 1, by rw [hk, Nat.pow_succ, Nat.mul_assoc]⟩
    · exact ⟨k, hk⟩
  · rw [hready] at hfd
    rw [hbook]
    exact h.watched fd (hepoll.mem_wait hfd)

theorem Inv.step (h : s.Inv) (hepoll : epoll.InTurn) {a : PollAct κ}
    (hstep : s.step epoll a = some t) : t.Inv := by
  cases a with
  | wait happening =>
    cases hstep
    exact h.poll hepoll happening
  | interrupted =>
    cases hstep
    exact ⟨h.book, h.events, h.ready, h.watched⟩
  | arrive fd =>
    obtain ⟨hwatched, heq⟩ := Option.ite_none_right_eq_some.mp hstep
    cases heq
    refine ⟨h.book, h.events, hepoll.nodup_arrive h.ready, fun fd' hfd' => ?_⟩
    rcases hepoll.mem_arrive hfd' with rfl | hold
    · exact hwatched
    · exact h.watched fd' hold
  | channel k op =>
    obtain ⟨hfree, hstep⟩ := Option.ite_none_right_eq_some.mp hstep
    obtain ⟨book, hbook, rfl⟩ := Option.map_eq_some_iff.mp hstep
    exact ⟨h.book.step hfree hbook, h.events, hepoll.nodup_retain h.ready,
      fun fd hfd => (hepoll.mem_retain hfd).2⟩

/-- **What a call of `poll` reports**, after any sequence of polls, arrivals and `update()`s.
    Every active channel is added, is listed once and has in `revents_` what happens on its
    descriptor now; there are no more than `events_` has room for; and if there is room for
    all that is ready, none of it is left out. -/
theorem poll_reports (hepoll : epoll.InTurn) {fd : κ → Fd} {acts : List (PollAct κ)}
    (hrun : Runs.run (step epoll) (start fd) acts = some s) (happening : Fd → EpollEvents) :
    (s.poll epoll happening).activeChannels.Nodup
      ∧ (s.poll epoll happening).activeChannels.length ≤ s.events
      ∧ (∃ k, s.events = kInitEventListSize * 2 ^ k)
      ∧ (∀ k ∈ (s.poll epoll happening).activeChannels, (s.book.channel k).index = .kAdded
        ∧ (s.poll epoll happening).revents k ≠ kNonEvent ∧ (s.poll epoll happening).revents k
          = (happening (s.book.channel k).fd).reported (s.book.channel k).events)
      ∧ (s.ready.length ≤ s.events → ∀ d ∈ s.ready, ∃ k, (s.book.channel k).fd = d
        ∧ (s.book.channel k).index = .kAdded
        ∧ ((happening d).reported (s.book.channel k).events ≠ kNonEvent →
          k ∈ (s.poll epoll happening).activeChannels)) := by
  have hinv : s.Inv :=
    Runs.run_induction (fun _ _ _ hs hstep => hs.step hepoll hstep) (.start fd) hrun
  obtain ⟨_, _, hactive, _, hrevents⟩ := s.poll_eq epoll happening
  have hnodup := hinv.nodup_filledChannels hepoll happening
  rw [hactive]
  refine ⟨hnodup, ?_, hinv.events, fun k hk => ?_, fun hroom d hready => ?_⟩
  · rw [filledChannels, List.length_map]
    exact hepoll.length_le _ _ _
  · obtain ⟨⟨d, revents, k⟩, hmem, rfl⟩ := List.mem_map.mp hk
    obtain ⟨rfl, hadded, hsome, heq⟩ := hinv.of_mem_epollWait hepoll hmem
    have hown := hrevents hnodup _ hmem
    dsimp only at hown ⊢
    rw [hown]
    exact ⟨hadded, hsome, heq⟩
  · obtain ⟨⟨mask, k⟩, hinterest⟩ := Option.isSome_iff_exists.mp (hinv.watched d hready)
    obtain ⟨rfl, hadded, rfl⟩ := (hinv.book.interest_iff d mask k).mp hinterest
    refine ⟨k, rfl, hadded, fun hsome => ?_⟩
    have hreport : s.book.poller.report happening (s.book.channel k).fd
        = some ((happening (s.book.channel k).fd).reported (s.book.channel k).events, k) :=
      EPollPoller.report_eq_some.mpr ⟨hsome, _, hinterest, rfl⟩
    exact List.mem_map.mpr ⟨_, hepoll.mem_of_room hreport hready hroom, rfl⟩

/-- The channels 0 and 2 have one descriptor, one after the other; bytes arrive for 1 and 2. -/
def reusedFd : List (PollAct (Fin 3)) :=
  [.channel 0 (.update .enableReading), .channel 1 (.update .enableReading), .arrive 0, .arrive 1,
    .channel 0 (.update .disableAll), .channel 0 .remove, .channel 2 (.update .enableReading),
    .arrive 0]

theorem poll_reports_reusedFd :
    ∃ s, Runs.run (step readyList) (start fun k : Fin 3 => if k = 2 then 0 else k.val) reusedFd
        = some s
      ∧ (s.poll readyList fun _ => { epollIn := true }).activeChannels = [1, 2]
      ∧ ∀ happening, (s.poll readyList happening).activeChannels.Nodup
        ∧ (s.poll readyList happening).activeChannels.length ≤ s.events
        ∧ (∃ k, s.events = kInitEventListSize * 2 ^ k)
        ∧ (∀ k ∈ (s.poll readyList happening).activeChannels, (s.book.channel k).index = .kAdded
          ∧ (s.poll readyList happening).revents k ≠ kNonEvent
          ∧ (s.poll readyList happening).revents k
            = (happening (s.book.channel k).fd).reported (s.book.channel k).events)
        ∧ (s.ready.length ≤ s.events → ∀ d ∈ s.ready, ∃ k, (s.book.channel k).fd = d
          ∧ (s.book.channel k).index = .kAdded
          ∧ ((happening d).reported (s.book.channel k).events ≠ kNonEvent →
            k ∈ (s.poll readyList happening).activeChannels)) := by
  have hrun : Runs.run (step readyList) (start fun k : Fin 3 => if k = 2 then 0 else k.val) reusedFd
      = some _ := rfl
  exact ⟨_, hrun, by decide, poll_reports readyList_inTurn hrun⟩

/-! ### Nobody is passed over -/

def isWait : PollAct κ → Bool
  | .wait _ => true
  | .interrupted | .arrive _ | .channel _ _ => false

/-- The descriptor of the channel has something to report whenever it is looked at, and
    stays in the interest list. -/
def StaysReady (fd : Fd) (k : κ) (s : PollSystem κ) : PollAct κ → Prop
  | .wait happening => (s.book.poller.report happening fd).map Prod.snd = some k
  | .interrupted | .arrive _ => True
  | .channel j op => ∀ book ∈ s.book.step (j, op), (book.poller.interest fd).isSome = true

instance (fd : Fd) (k : κ) (s : PollSystem κ) : (a : PollAct κ) → Decidable (StaysReady fd k s a)
  | .wait _ => inferInstanceAs (Decidable (_ = _))
  | .interrupted | .arrive _ => inferInstanceAs (Decidable True)
  | .channel _ _ => inferInstanceAs (Decidable (∀ _ ∈ _, _))

/-- The channels that a step gives to the loop. -/
def activated (epoll : ReadyQueue Fd (EpollEvents × κ)) (s : PollSystem κ) : PollAct κ → List κ
  | .wait happening => (s.poll epoll happening).activeChannels
  | .interrupted | .arrive _ | .channel _ _ => []

/-- At most `n` more calls until the turn of the descriptor comes: as many are before it as
    fit into that many calls with `events_` doubled each time. -/
def TurnWithin (fd : Fd) (n : Nat) (s : PollSystem κ) : Prop :=
  ∃ m, Within m fd s.ready ∧ m < s.events * (2 ^ n - 1)

/-- A call reports the channel or brings its turn nearer. -/
theorem turn_wait (hepoll : epoll.InTurn) {fd : Fd} {k : κ} {n : Nat}
    (h : TurnWithin fd (n + 1) s)
    (hready : (s.book.poller.report happening fd).map Prod.snd = some k) :
    k ∈ (s.poll epoll happening).activeChannels ∨ TurnWithin fd n (s.poll epoll happening) := by
  obtain ⟨m, hwithin, hless⟩ := h
  obtain ⟨⟨revents, k'⟩, hreport, rfl⟩ := Option.map_eq_some_iff.mp hready
  obtain ⟨_, hleft, hactive, hevents, _⟩ := s.poll_eq epoll happening
  rcases hepoll.turn (n := s.events) hreport hwithin with hin | ⟨hfull, hle, hnearer⟩
  · left
    rw [hactive]
    exact List.mem_map.mpr ⟨_, hin, rfl⟩
  · right
    refine ⟨m - s.events, by rw [hleft]; exact hnearer, ?_⟩
    have hpos : 0 < s.events := by
      by_contra hzero
      rw [Nat.eq_zero_of_not_pos hzero, Nat.zero_mul] at hless
      exact Nat.not_lt_zero _ hless
    have hnum : (s.epollWait epoll happening).1.length = s.events := hfull
    rw [hevents, hnum, if_pos ⟨hpos, rfl⟩]
    have hpow : s.events * 2 ^ (n + 1) = s.events * 2 * 2 ^ n := by
      rw [Nat.pow_succ, Nat.mul_assoc, Nat.mul_comm 2]
    rw [Nat.mul_sub, Nat.mul_one] at hless ⊢
    omega

theorem turn_other (hepoll : epoll.InTurn) {fd : Fd} {k : κ} {n : Nat} (h : TurnWithin fd n s)
    {a : PollAct κ} (hready : StaysReady fd k s a) (hstep : s.step epoll a = some t)
    (ha : isWait a = false) : TurnWithin fd n t := by
  obtain ⟨m, hwithin, hless⟩ := h
  cases a with
  | wait happening => cases ha
  | interrupted =>
    cases hstep
    exact ⟨m, hwithin, hless⟩
  | arrive fd' =>
    obtain ⟨_, heq⟩ := Option.ite_none_right_eq_some.mp hstep
    cases heq
    exact ⟨m, hepoll.within_arrive hwithin, hless⟩
  | channel j op =>
    obtain ⟨_, hstep⟩ := Option.ite_none_right_eq_some.mp hstep
    obtain ⟨book, hbook, rfl⟩ := Option.map_eq_some_iff.mp hstep
    have hstays : (book.poller.interest fd).isSome = true := hready book hbook
    exact ⟨m, hepoll.within_retain hstays hwithin, hless⟩

/-- **No channel is starved.**  If fewer are before it in the ready list than fit into `n`
    calls (16, 48, 112, ... for a new poller), a channel that stays ready is given to the loop
    by one of the next `n` calls of `poll`, whatever else becomes ready meanwhile. -/
theorem no_starvation (hepoll : epoll.InTurn) {fd : Fd} {k : κ} {n : Nat} {before after : List Fd}
    {acts : List (PollAct κ)} (hready : s.ready = before ++ fd :: after)
    (hless : before.length < s.events * (2 ^ n - 1))
    (hrun : Runs.run (step epoll) s acts = some t)
    (hstays : Runs.Along (step epoll) (StaysReady fd k) s acts)
    (hwaits : n ≤ acts.countP isWait) :
    k ∈ Runs.outputs (step epoll) (activated epoll) s acts := by
  refine Runs.mem_outputs_of_countdown (L := TurnWithin fd) (C := StaysReady fd k) ?_ ?_ ?_
    ⟨before.length, ⟨before, after, hready, Nat.le_refl _⟩, hless⟩ hstays hrun hwaits
  · rintro u ⟨_, _, hnone⟩
    rw [Nat.pow_zero, Nat.sub_self, Nat.mul_zero] at hnone
    exact Nat.not_lt_zero _ hnone
  · intro m u a v hu hC hstep ha
    cases a with
    | wait happening =>
      cases hstep
      exact turn_wait hepoll hu hC
    | interrupted | arrive _ | channel _ _ => cases ha
  · exact fun m u a v hu hC hstep ha => turn_other hepoll hu hC hstep ha

/-- Eighteen channels are ready, and `events_` has room for sixteen. -/
def crowd : List (PollAct (Fin 18)) :=
  (List.finRange 18).map (fun k => .channel k (.update .enableReading))
    ++ (List.finRange 18).map fun k => .arrive k

/-- `poll` returns twice, with bytes on every descriptor. -/
def twoWaits : List (PollAct (Fin 18)) :=
  [.wait fun _ => { epollIn := true }, .wait fun _ => { epollIn := true }]

theorem no_starvation_crowd :
    ∃ s t, Runs.run (step readyList) (start Fin.val) crowd = some s
      ∧ Runs.run (step readyList) s twoWaits = some t
      ∧ 17 ∈ Runs.outputs (step readyList) (activated readyList) s twoWaits := by
  obtain ⟨s, hs, hprops⟩ := (Option.any_eq_true _ _).mp
    (by decide +kernel : (Runs.run (step readyList) (start Fin.val) crowd).any (fun s => decide
      (s.ready = List.range 17 ++ 17 :: [] ∧ s.events = 16
        ∧ Runs.Along (step readyList) (StaysReady 17 17) s twoWaits
        ∧ (Runs.run (step readyList) s twoWaits).isSome)) = true)
  obtain ⟨hready, hevents, hstays, hsome⟩ := of_decide_eq_true hprops
  obtain ⟨t, ht⟩ := Option.isSome_iff_exists.mp hsome
  have hless : (List.range 17).length < s.events * (2 ^ 2 - 1) := by
    rw [hevents]
    decide
  exact ⟨s, t, hs, ht, no_starvation readyList_inTurn hready hless ht hstays (by decide)⟩

end Invariant

end PollSystem

end Ymuduo
