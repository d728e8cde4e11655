/-
  Ymuduo/ReadyList.lean
  =====================
  **A queue that is served in turn, one batch at a time.**

  `ReadyQueue` is how somebody else keeps the queue; `InTurn` is all that is known of it: a
  batch has reports of waiting items only, none twice, and whoever is ready is in the batch
  or moves up by the whole of it.

  The list that is scanned from the front is such a queue (`readyList_inTurn`).  `scan n` goes
  on until it has `n` reports.  An item with nothing to report drops out; the others that were
  reached go back to the end (`serve`).
-/
import Mathlib.Data.List.Nodup

namespace Ymuduo.ReadyList

variable {α β : Type*}

/-! ### In turn -/

/-- The item is in the queue, behind at most `m` others. -/
def Within (m : Nat) (x : α) (xs : List α) : Prop :=
  ∃ before after, xs = before ++ x :: after ∧ before.length ≤ m

theorem within_of_mem {x : α} {xs : List α} (h : x ∈ xs) : Within (xs.length - 1) x xs := by
  obtain ⟨before, after, rfl⟩ := List.append_of_mem h
  refine ⟨before, after, rfl, ?_⟩
  rw [List.length_append, List.length_cons]
  omega

/-- A queue of items.  `wait report n` gives at most `n` reports, and the queue that is left;
    `arrive` is for an item that has become ready, `retain` for items that are not watched
    any more. -/
structure ReadyQueue (α β : Type*) where
  wait : (α → Option β) → Nat → List α → List (α × β) × List α
  arrive : α → List α → List α
  retain : (α → Bool) → List α → List α

namespace ReadyQueue

/-- The queue is served in turn. -/
structure InTurn (q : ReadyQueue α β) : Prop where
  reports : ∀ {report n xs x y}, (x, y) ∈ (q.wait report n xs).1 → x ∈ xs ∧ report x = some y
  length_le : ∀ report n xs, (q.wait report n xs).1.length ≤ n
  nodup_reports : ∀ {report n xs}, xs.Nodup → ((q.wait report n xs).1.map Prod.fst).Nodup
  nodup_wait : ∀ {report n xs}, xs.Nodup → (q.wait report n xs).2.Nodup
  mem_wait : ∀ {report n xs x}, x ∈ (q.wait report n xs).2 → x ∈ xs
  turn : ∀ {report n m xs x y}, report x = some y → Within m x xs →
    (x, y) ∈ (q.wait report n xs).1
      ∨ (q.wait report n xs).1.length = n ∧ n ≤ m ∧ Within (m - n) x (q.wait report n xs).2
  nodup_arrive : ∀ {x xs}, xs.Nodup → (q.arrive x xs).Nodup
  mem_arrive : ∀ {x z xs}, z ∈ q.arrive x xs → z = x ∨ z ∈ xs
  within_arrive : ∀ {m x z xs}, Within m x xs → Within m x (q.arrive z xs)
  nodup_retain : ∀ {keep xs}, xs.Nodup → (q.retain keep xs).Nodup
  mem_retain : ∀ {keep x xs}, x ∈ q.retain keep xs → x ∈ xs ∧ keep x = true
  within_retain : ∀ {m keep x xs}, keep x = true → Within m x xs → Within m x (q.retain keep xs)

/-- If there is room for all, no one that is ready is left out. -/
theorem InTurn.mem_of_room {q : ReadyQueue α β} (h : q.InTurn) {report : α → Option β} {n : Nat}
    {xs : List α} {x : α} {y : β} (hx : report x = some y) (hin : x ∈ xs) (hroom : xs.length ≤ n) :
    (x, y) ∈ (q.wait report n xs).1 := by
  refine (h.turn hx (within_of_mem hin)).resolve_right fun hpassed => ?_
  have hpos := List.length_pos_of_mem hin
  omega

end ReadyQueue

/-! ### A list -/

/-- The first `n` reports, and what is behind them. -/
def scan (report : α → Option β) : Nat → List α → List (α × β) × List α
  | 0, xs => ([], xs)
  | _ + 1, [] => ([], [])
  | n + 1, x :: xs =>
    match report x with
    | none => scan report (n + 1) xs
    | some y => ((x, y) :: (scan report n xs).1, (scan report n xs).2)

variable {report : α → Option β} {n : Nat} {x : α} {y : β} {xs : List α}

@[simp] theorem scan_zero : scan report 0 xs = ([], xs) := by
  cases xs <;> rfl

@[simp] theorem scan_nil : scan report n [] = ([], []) := by
  cases n <;> rfl

theorem scan_cons_none (h : report x = none) :
    scan report (n + 1) (x :: xs) = scan report (n + 1) xs := by
  rw [scan, h]

theorem scan_cons_some (h : report x = some y) : scan report (n + 1) (x :: xs)
    = ((x, y) :: (scan report n xs).1, (scan report n xs).2) := by
  rw [scan, h]

/-- What was reached and what was not keep their order. -/
theorem scan_sublist (report : α → Option β) (n : Nat) (xs : List α) :
    ((scan report n xs).1.map Prod.fst ++ (scan report n xs).2).Sublist xs := by
  induction xs generalizing n with
  | nil => simp
  | cons x xs ih =>
    cases n with
    | zero => simp
    | succ n =>
      cases h : report x with
      | none =>
        rw [scan_cons_none h]
        exact (ih (n + 1)).cons x
      | some y =>
        rw [scan_cons_some h]
        exact (ih n).cons_cons x

theorem report_of_mem_scan (h : (x, y) ∈ (scan report n xs).1) : report x = some y := by
  induction xs generalizing n with
  | nil => simp at h
  | cons z xs ih =>
    cases n with
    | zero => simp at h
    | succ n =>
      cases hz : report z with
      | none =>
        rw [scan_cons_none hz] at h
        exact ih h
      | some w =>
        rw [scan_cons_some hz] at h
        rcases List.mem_cons.mp h with heq | hrest
        · cases heq
          exact hz
        · exact ih hrest

theorem length_scan_le (report : α → Option β) (n : Nat) (xs : List α) :
    (scan report n xs).1.length ≤ n := by
  induction xs generalizing n with
  | nil => simp
  | cons x xs ih =>
    cases n with
    | zero => simp
    | succ n =>
      cases h : report x with
      | none =>
        rw [scan_cons_none h]
        exact ih (n + 1)
      | some y =>
        rw [scan_cons_some h]
        exact Nat.succ_le_succ (ih n)

/-- **Whoever is ready is reported, or moves up by a full batch.** -/
theorem mem_scan_or_moves_up (hx : report x = some y) (before after : List α) :
    (x, y) ∈ (scan report n (before ++ x :: after)).1
      ∨ (scan report n (before ++ x :: after)).1.length = n
        ∧ ∃ before', (scan report n (before ++ x :: after)).2 = before' ++ x :: after
          ∧ before'.length + n ≤ before.length := by
  induction before generalizing n with
  | nil =>
    cases n with
    | zero => exact Or.inr ⟨by simp, [], by simp, Nat.le_refl _⟩
    | succ n =>
      rw [List.nil_append, scan_cons_some hx]
      exact Or.inl List.mem_cons_self
  | cons z before ih =>
    cases n with
    | zero => exact Or.inr ⟨by simp, z :: before, by simp, Nat.le_refl _⟩
    | succ n =>
      rw [List.cons_append]
      cases hz : report z with
      | none =>
        rw [scan_cons_none hz]
        rcases ih (n := n + 1) with hin | ⟨hfull, before', hrest, hless⟩
        · exact Or.inl hin
        · exact Or.inr ⟨hfull, before', hrest, Nat.le_succ_of_le hless⟩
      | some w =>
        rw [scan_cons_some hz]
        rcases ih (n := n) with hin | ⟨hfull, before', hrest, hless⟩
        · exact Or.inl (List.mem_cons_of_mem _ hin)
        · exact Or.inr ⟨congrArg Nat.succ hfull, before', hrest, Nat.succ_le_succ hless⟩

/-- The list after a batch: those that were reported are behind the others. -/
def serve (report : α → Option β) (n : Nat) (xs : List α) : List α :=
  (scan report n xs).2 ++ (scan report n xs).1.map Prod.fst

theorem nodup_serve (h : xs.Nodup) : (serve report n xs).Nodup :=
  List.perm_append_comm.nodup ((scan_sublist report n xs).nodup h)

theorem mem_of_mem_serve (h : x ∈ serve report n xs) : x ∈ xs :=
  (scan_sublist report n xs).subset (List.perm_append_comm.subset h)

theorem nodup_reported (h : xs.Nodup) : ((scan report n xs).1.map Prod.fst).Nodup :=
  ((List.sublist_append_left _ _).trans (scan_sublist report n xs)).nodup h

/-- The list, with new items at its end. -/
def readyList [DecidableEq α] : ReadyQueue α β where
  wait report n xs := ((scan report n xs).1, serve report n xs)
  arrive x xs := if x ∈ xs then xs else xs ++ [x]
  retain keep xs := xs.filter keep

/-- **The list is served in turn.** -/
theorem readyList_inTurn [DecidableEq α] : (readyList : ReadyQueue α β).InTurn where
  reports hmem := ⟨mem_of_mem_serve (List.mem_append_right _ (List.mem_map_of_mem hmem)),
    report_of_mem_scan hmem⟩
  length_le report n xs := length_scan_le report n xs
  nodup_reports hnodup := nodup_reported hnodup
  nodup_wait hnodup := nodup_serve hnodup
  mem_wait hmem := mem_of_mem_serve hmem
  turn := by
    rintro report n m xs x y hx ⟨before, after, rfl, hm⟩
    rcases mem_scan_or_moves_up (n := n) hx before after with
      hin | ⟨hfull, before', hrest, hless⟩
    · exact Or.inl hin
    · refine Or.inr ⟨hfull, by omega, before',
        after ++ (scan report n (before ++ x :: after)).1.map Prod.fst, ?_, by omega⟩
      simp only [readyList, serve, hrest, List.append_assoc, List.cons_append]
  nodup_arrive := by
    intro x xs hnodup
    simp only [readyList]
    split
    · exact hnodup
    · rename_i hnew
      exact hnodup.append (List.nodup_singleton x) (by simpa using hnew)
  mem_arrive := by
    intro x z xs hmem
    simp only [readyList] at hmem
    split at hmem
    · exact Or.inr hmem
    · exact (List.mem_append.mp hmem).symm.imp_left List.mem_singleton.mp
  within_arrive := by
    rintro m x z xs ⟨before, after, rfl, hm⟩
    simp only [readyList]
    split
    · exact ⟨before, after, rfl, hm⟩
    · exact ⟨before, after ++ [z], by rw [List.append_assoc, List.cons_append], hm⟩
  nodup_retain hnodup := hnodup.filter _
  mem_retain hmem := List.mem_filter.mp hmem
  within_retain := by
    rintro m keep x xs hkeep ⟨before, after, rfl, hm⟩
    refine ⟨before.filter keep, after.filter keep, ?_,
      Nat.le_trans (List.length_filter_le _ _) hm⟩
    simp only [readyList, List.filter_append, List.filter_cons, if_pos hkeep]

end Ymuduo.ReadyList
