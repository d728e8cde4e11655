/-
  Ymuduo/Fifo.lean
  ================
  **A FIFO queue that remembers what has left it.**

  `popped` is everything that has been taken out so far, `waiting` what is still
  inside, both in order.  `pushed = popped ++ waiting` is then the whole history
  of the queue: pushing appends to it and popping leaves it alone.  A component
  refines such a queue when its own operations are pushes at the back and pops at
  the front; that nothing is lost, duplicated or reordered is `pushed_push` and
  `pushed_pop`.
-/
import Mathlib.Data.List.Basic

namespace Ymuduo

structure Fifo (α : Type*) where
  popped : List α
  waiting : List α
deriving DecidableEq, Repr

namespace Fifo

variable {α : Type*}

def empty : Fifo α := ⟨[], []⟩

/-- Everything ever put into the queue, in order. -/
def pushed (q : Fifo α) : List α := q.popped ++ q.waiting

def push (q : Fifo α) (xs : List α) : Fifo α := { q with waiting := q.waiting ++ xs }

/-- Take `n` elements out at the front (all of them when there are fewer). -/
def pop (q : Fifo α) (n : Nat) : Fifo α :=
  ⟨q.popped ++ q.waiting.take n, q.waiting.drop n⟩

@[simp] theorem pushed_empty : (empty : Fifo α).pushed = [] := rfl

@[simp] theorem waiting_push (q : Fifo α) (xs : List α) :
    (q.push xs).waiting = q.waiting ++ xs := rfl

@[simp] theorem popped_push (q : Fifo α) (xs : List α) : (q.push xs).popped = q.popped := rfl

@[simp] theorem waiting_pop (q : Fifo α) (n : Nat) :
    (q.pop n).waiting = q.waiting.drop n := rfl

@[simp] theorem popped_pop (q : Fifo α) (n : Nat) :
    (q.pop n).popped = q.popped ++ q.waiting.take n := rfl

@[simp] theorem push_nil (q : Fifo α) : q.push [] = q := by
  rw [push, List.append_nil]

/-- Splitting what is waiting after `xs` is popping `xs.length` elements. -/
theorem pop_of_waiting_eq_append {q : Fifo α} {xs ys : List α} (h : q.waiting = xs ++ ys) :
    q.pop xs.length = ⟨q.popped ++ xs, ys⟩ := by
  simp [pop, h]

@[simp] theorem pushed_push (q : Fifo α) (xs : List α) :
    (q.push xs).pushed = q.pushed ++ xs := by
  simp [pushed]

@[simp] theorem pushed_pop (q : Fifo α) (n : Nat) : (q.pop n).pushed = q.pushed := by
  simp [pushed]

end Fifo

/-! ### Order in a list -/

section Precedes

variable {α β : Type*} {x y z : α} {l : List α}

/-- Wherever `y` stands in the list, `x` stands before it. -/
def Precedes (x y : α) (l : List α) : Prop := ∀ l₁ l₂, l = l₁ ++ y :: l₂ → x ∈ l₁

theorem precedes_of_not_mem (h : y ∉ l) : Precedes x y l := by
  intro l₁ l₂ hl
  exact absurd (by simp [hl]) h

theorem Precedes.extend {l' : List α} (h : Precedes x y l) (hx : x ∈ l) (hpre : l <+: l') :
    Precedes x y l' := by
  obtain ⟨l'', rfl⟩ := hpre
  intro l₁ l₂ hl
  rcases List.append_eq_append_iff.mp hl with ⟨m, rfl, _⟩ | ⟨m, rfl, hrest⟩
  · exact List.mem_append_left _ hx
  · cases m with
    | nil => simpa using hx
    | cons w m =>
      obtain ⟨rfl, _⟩ := List.cons.inj hrest
      exact h l₁ m rfl

theorem Precedes.of_prefix {l' : List α} (h : Precedes x y l) (hpre : l' <+: l) :
    Precedes x y l' := by
  obtain ⟨l'', rfl⟩ := hpre
  intro l₁ l₂ hl
  exact h l₁ (l₂ ++ l'') (by simp [hl])

/-- The order among the elements that `f` keeps is the order in the list. -/
theorem Precedes.of_filterMap {f : β → Option α} {a b : β} {l : List β}
    (ha : ∀ c, f c = some x → c = a) (hb : f b = some y) (h : Precedes x y (l.filterMap f)) :
    Precedes a b l := by
  intro l₁ l₂ hl
  have hkept : l.filterMap f = l₁.filterMap f ++ y :: l₂.filterMap f := by
    rw [hl, List.filterMap_append, List.filterMap_cons_some hb]
  obtain ⟨c, hmem, hc⟩ := List.mem_filterMap.mp (h _ _ hkept)
  exact ha c hc ▸ hmem

end Precedes

end Ymuduo
