/-
  Ymuduo/Duplex.lean
  ==================
  **One end of a stream that is closed one direction at a time.**

  What arrives waits in the inbox until the user takes it, what the user puts waits in the
  outbox until it is transmitted.  The user ends its output; the end is announced once, and
  not before the outbox is empty unless the stream has been closed.  Reading goes on until
  then.

  `Seen` are the observations: those of the peer (`Seen.wire`) and those of the user
  (`Seen.note`).  `run_wire` and `run_notes` say what can be seen of a run.
-/
import Ymuduo.Fifo
import Ymuduo.Runs

namespace Ymuduo

inductive DuplexPhase where
  | fresh
  | established
  | ending         -- the user has ended its output
  | closed
deriving DecidableEq, Repr

/-- `inbox.popped` is what the user has taken, `outbox.popped` what was transmitted;
    `fin`: the end of the output was announced. -/
structure Duplex (α : Type*) where
  phase : DuplexPhase
  inbox : Fifo α
  outbox : Fifo α
  fin : Bool
deriving DecidableEq, Repr

inductive DuplexAct (α : Type*) where
  | establish
  | arrive (xs : List α)
  | take (n : Nat)
  | put (xs : List α)
  | transmit (n : Nat)
  | endOutput
  | finish
  | close
deriving DecidableEq, Repr

/-- What is seen of a step: by the peer `datum` and `fin`, by the user the others. -/
inductive Seen (α : Type*) where
  | datum (x : α)
  | fin
  | up
  | message
  | down
deriving DecidableEq, Repr

namespace Seen

variable {α : Type*}

/-- What the peer sees: data, and the end of the output as `none`. -/
def wire : Seen α → Option (Option α)
  | datum x => some (some x)
  | fin => some none
  | up | message | down => none

inductive Note where
  | up
  | message
  | down
deriving DecidableEq, Repr

/-- What the user is told. -/
def note : Seen α → Option Note
  | up => some .up
  | message => some .message
  | down => some .down
  | datum _ | fin => none

@[simp] theorem filterMap_wire_datum (xs : List α) :
    (xs.map datum).filterMap wire = xs.map some := by
  induction xs with
  | nil => rfl
  | cons x xs ih =>
    simp only [List.map_cons, List.filterMap_cons, wire, ih]

@[simp] theorem filterMap_note_datum (xs : List α) : (xs.map datum).filterMap note = [] := by
  induction xs with
  | nil => rfl
  | cons x xs ih =>
    simp only [List.map_cons, List.filterMap_cons, note, ih]

end Seen

namespace Duplex

variable {α : Type*}

def start : Duplex α where
  phase := .fresh
  inbox := .empty
  outbox := .empty
  fin := false

/-- Data can arrive, and the stream can be closed. -/
def Up (d : Duplex α) : Prop := d.phase = .established ∨ d.phase = .ending

instance (d : Duplex α) : Decidable d.Up := inferInstanceAs (Decidable (_ ∨ _))

/-- The end of the output may be announced. -/
def MayFinish (d : Duplex α) : Prop :=
  d.fin = false ∧ (d.phase = .ending ∧ d.outbox.waiting = [] ∨ d.phase = .closed)

instance [DecidableEq α] (d : Duplex α) : Decidable d.MayFinish :=
  inferInstanceAs (Decidable (_ ∧ _))

def step [DecidableEq α] (d : Duplex α) : DuplexAct α → Option (Duplex α)
  | .establish => if d.phase = .fresh then some { d with phase := .established } else none
  | .arrive xs => if d.Up then some { d with inbox := d.inbox.push xs } else none
  | .take n =>
    if n ≤ d.inbox.waiting.length then some { d with inbox := d.inbox.pop n } else none
  | .put xs =>
    if d.phase ≠ .closed then some { d with outbox := d.outbox.push xs } else none
  | .transmit n =>
    if n ≤ d.outbox.waiting.length ∧ d.fin = false then
      some { d with outbox := d.outbox.pop n }
    else none
  | .endOutput => if d.phase = .established then some { d with phase := .ending } else none
  | .finish => if d.MayFinish then some { d with fin := true } else none
  | .close => if d.Up then some { d with phase := .closed } else none

/-- What is seen of a step. -/
def observe (d : Duplex α) : DuplexAct α → List (Seen α)
  | .establish => [.up]
  | .arrive _ => [.message]
  | .transmit n => (d.outbox.waiting.take n).map .datum
  | .finish => [.fin]
  | .close => [.down]
  | .take _ | .put _ | .endOutput => []

/-! ### What the peer sees of a run -/

/-- The data transmitted, and the end of the output behind them. -/
def wire (d : Duplex α) : List (Option α) :=
  d.outbox.popped.map some ++ if d.fin then [none] else []

variable [DecidableEq α] {d e : Duplex α} {act : DuplexAct α}

theorem step_wire (hstep : d.step act = some e) :
    e.wire = d.wire ++ (d.observe act).filterMap Seen.wire := by
  cases act with
  | establish | arrive _ | take _ | put _ | endOutput | close =>
    simp only [step, Option.ite_none_right_eq_some, Option.some.injEq] at hstep
    obtain ⟨_, rfl⟩ := hstep
    simp [wire, observe, Seen.wire]
  | transmit n =>
    simp only [step, Option.ite_none_right_eq_some, Option.some.injEq] at hstep
    obtain ⟨⟨_, hfin⟩, rfl⟩ := hstep
    simp only [wire, observe, hfin, Fifo.popped_pop, List.map_append, Seen.filterMap_wire_datum,
      Bool.false_eq_true, if_false, List.append_nil]
  | finish =>
    simp only [step, Option.ite_none_right_eq_some, Option.some.injEq] at hstep
    obtain ⟨⟨hfin, _⟩, rfl⟩ := hstep
    simp [wire, observe, Seen.wire, hfin]

/-- **The peer sees the data in the order in which they were put, and at most one end,
    behind all data.** -/
theorem run_wire {acts : List (DuplexAct α)} (hrun : Runs.run step d acts = some e) :
    e.wire = d.wire ++ (Runs.outputs step observe d acts).filterMap Seen.wire := by
  induction acts generalizing d with
  | nil =>
    cases hrun
    exact (List.append_nil _).symm
  | cons act acts ih =>
    obtain ⟨u, hu, hrest⟩ := Option.bind_eq_some_iff.mp hrun
    rw [ih hrest, step_wire hu, List.append_assoc, ← List.filterMap_append]
    simp only [Runs.outputs, hu]

/-! ### What arrives in a run -/

/-- The message that a step brings. -/
def arrived : DuplexAct α → List (List α)
  | .arrive xs => [xs]
  | _ => []

theorem step_inbox (hstep : d.step act = some e) :
    e.inbox.pushed = d.inbox.pushed ++ (arrived act).flatten := by
  cases act with
  | arrive xs | take _ | establish | put _ | transmit _ | endOutput | finish | close =>
    simp only [step, Option.ite_none_right_eq_some, Option.some.injEq] at hstep
    obtain ⟨_, rfl⟩ := hstep
    simp [arrived]

/-- **What has been taken and what waits is what has arrived.** -/
theorem run_inbox {acts : List (DuplexAct α)} (hrun : Runs.run step d acts = some e) :
    e.inbox.pushed = d.inbox.pushed ++ (acts.flatMap arrived).flatten := by
  have hledger := Runs.ledger (f := fun d : Duplex α => d.inbox.pushed)
    (g := fun act => (arrived act).flatten) (fun _ _ _ => step_inbox) hrun
  simp only [List.flatten_eq_flatMap] at hledger
  rw [hledger, List.flatten_eq_flatMap, List.flatMap_assoc]

/-! ### What is put in a run -/

/-- What a step puts. -/
def given : DuplexAct α → List α
  | .put xs => xs
  | _ => []

theorem step_outbox (hstep : d.step act = some e) :
    e.outbox.pushed = d.outbox.pushed ++ given act := by
  cases act with
  | arrive _ | take _ | establish | put _ | transmit _ | endOutput | finish | close =>
    simp only [step, Option.ite_none_right_eq_some, Option.some.injEq] at hstep
    obtain ⟨_, rfl⟩ := hstep
    simp [given]

/-- **What has been transmitted and what waits is what was put.** -/
theorem run_outbox {acts : List (DuplexAct α)} (hrun : Runs.run step d acts = some e) :
    e.outbox.pushed = d.outbox.pushed ++ acts.flatMap given :=
  Runs.ledger (f := fun d : Duplex α => d.outbox.pushed) (fun _ _ _ => step_outbox) hrun

/-! ### What the user is told in a run -/

/-- What the user has been told when `n` messages have arrived. -/
def notes (n : Nat) : DuplexPhase → List Seen.Note
  | .fresh => []
  | .established | .ending => .up :: List.replicate n .message
  | .closed => .up :: List.replicate n .message ++ [.down]

/-- Nothing arrives before the stream is established. -/
theorem step_notes {n : Nat} (hfresh : d.phase = .fresh → n = 0)
    (hstep : d.step act = some e) :
    (e.phase = .fresh → n + (arrived act).length = 0)
      ∧ notes (n + (arrived act).length) e.phase
        = notes n d.phase ++ (d.observe act).filterMap Seen.note := by
  cases act with
  | establish =>
    simp only [step, Option.ite_none_right_eq_some, Option.some.injEq] at hstep
    obtain ⟨hphase, rfl⟩ := hstep
    simp [arrived, notes, hphase, hfresh hphase, observe, Seen.note]
  | arrive xs =>
    simp only [step, Option.ite_none_right_eq_some, Option.some.injEq] at hstep
    obtain ⟨hup, rfl⟩ := hstep
    rcases hup with hphase | hphase <;>
      simp [arrived, notes, hphase, observe, Seen.note, List.replicate_succ']
  | take _ | put _ | finish =>
    simp only [step, Option.ite_none_right_eq_some, Option.some.injEq] at hstep
    obtain ⟨_, rfl⟩ := hstep
    exact ⟨hfresh, by simp [arrived, observe, Seen.note]⟩
  | transmit n =>
    simp only [step, Option.ite_none_right_eq_some, Option.some.injEq] at hstep
    obtain ⟨_, rfl⟩ := hstep
    refine ⟨hfresh, ?_⟩
    rw [observe, Seen.filterMap_note_datum, List.append_nil]
    rfl
  | endOutput =>
    simp only [step, Option.ite_none_right_eq_some, Option.some.injEq] at hstep
    obtain ⟨hphase, rfl⟩ := hstep
    simp [arrived, notes, hphase, observe]
  | close =>
    simp only [step, Option.ite_none_right_eq_some, Option.some.injEq] at hstep
    obtain ⟨hup, rfl⟩ := hstep
    rcases hup with hphase | hphase <;> simp [arrived, notes, hphase, observe, Seen.note]

/-- **The user is told of one beginning, then of every message, then of one end.** -/
theorem run_notes {acts : List (DuplexAct α)} {n : Nat} (hfresh : d.phase = .fresh → n = 0)
    (hrun : Runs.run step d acts = some e) :
    notes (n + (acts.flatMap arrived).length) e.phase
      = notes n d.phase ++ (Runs.outputs step observe d acts).filterMap Seen.note := by
  induction acts generalizing d n with
  | nil =>
    cases hrun
    simp [Runs.outputs]
  | cons act acts ih =>
    obtain ⟨u, hu, hrest⟩ := Option.bind_eq_some_iff.mp hrun
    obtain ⟨hfresh', hnotes⟩ := step_notes hfresh hu
    have hmore := ih hfresh' hrest
    simp only [List.flatMap_cons, List.length_append, ← Nat.add_assoc, hmore, hnotes,
      Runs.outputs, hu, List.filterMap_append, List.append_assoc]

end Duplex

end Ymuduo
