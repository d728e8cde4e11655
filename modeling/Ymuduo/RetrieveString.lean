/-
  Ymuduo/RetrieveString.lean
  ==========================
  **`retrieveAsString` after any history of a buffer.**

  The copy and the update of the indices are two functions: the constructor of
  `std::string` copies `len` bytes from `peek()` on, whatever they are, while `retrieve`
  clamps `len` to `readableBytes()`.  For a `len` beyond the readable bytes the string has
  what earlier traffic left behind `writerIndex_`, or what lies behind `buffer_`.

  `retrieveAsString_correct_iff` holds after every history, one in which
  `ensureWritableBytes` wraps around included; where nothing wraps, the length alone
  decides (`retrieves_iff_of_noWrap`).
-/
import Ymuduo.BufferHistory

namespace Ymuduo

open Block

namespace Buffer64

/-- What `retrieveAsString(len)` is for: the first bytes of the readable ones, as many as
    there are up to `len`, all copied from in front of `writerIndex_`, and the others stay
    readable. -/
def Retrieves (b : Buffer) (len : Nat) : StringResult → Prop
  | .returned result b' =>
    result = b.contents.take (min len (readableBytes b))
      ∧ (∀ i, b.readerIndex ≤ i → i < b.readerIndex + result.length →
        i < b.writerIndex ∧ i < b.buffer.length)
      ∧ b'.contents = b.contents.drop (min len (readableBytes b))
      ∧ result ++ b'.contents = b.contents
  | .threw _ | .outside => False

variable {b b' : Buffer} {allocated : Bool} {len : Nat}

/-! ### The string and the bytes that stay -/

/-- `retrieve` clamps. -/
theorem Bounded.contents_retrieve (h : Bounded b) (len : Nat) :
    (Buffer64.retrieve b len).contents = b.contents.drop len := by
  by_cases hlt : len < readableBytes b
  · obtain ⟨heq, _⟩ := h.retrieve_lt hlt
    rw [heq]
    exact (drop_slice _ _ _ _).symm
  · have hall : b.contents.length ≤ len := by
      rw [Buffer.contents, slice, List.length_take, ← h.readableBytes_eq]
      exact Nat.le_trans (Nat.min_le_left _ _) (Nat.le_of_not_lt hlt)
    rw [Buffer64.retrieve, if_neg hlt, Buffer.contents_retrieveAll, List.drop_eq_nil_of_le hall]

theorem Bounded.retrieves_iff (h : Bounded b) :
    Retrieves b len (Buffer64.retrieveAsString b allocated len)
      ↔ allocated = true ∧ len ≤ readableBytes b ∧ b.readerIndex + len ≤ b.buffer.length := by
  cases allocated with
  | false => simp only [Buffer64.retrieveAsString, Retrieves, Bool.false_eq_true, if_false,
      false_and]
  | true =>
    by_cases hfit : b.readerIndex + len ≤ b.buffer.length
    · have hresult : Buffer64.retrieveAsString b true len
          = .returned (slice b.buffer b.readerIndex (b.readerIndex + len))
            (Buffer64.retrieve b len) := by
        rw [Buffer64.retrieveAsString, if_pos rfl, if_pos hfit]
      have hlength : (slice b.buffer b.readerIndex (b.readerIndex + len)).length = len := by
        rw [length_slice hfit, Nat.add_sub_cancel_left]
      rw [hresult]
      constructor
      · rintro ⟨htake, _, _, _⟩
        refine ⟨rfl, ?_, hfit⟩
        -- what `std::string` copies is `len` bytes long, a prefix of the readable ones is not
        rw [htake] at hlength
        calc len = (b.contents.take (min len (readableBytes b))).length := hlength.symm
          _ ≤ min len (readableBytes b) := List.length_take_le _ _
          _ ≤ readableBytes b := Nat.min_le_right _ _
      · rintro ⟨_, hlen, _⟩
        have hwriter : b.readerIndex + len ≤ b.writerIndex := by
          have hreader := h.reader_le
          rw [h.readableBytes_eq] at hlen
          omega
        have htake : slice b.buffer b.readerIndex (b.readerIndex + len) = b.contents.take len :=
          (take_slice hwriter).symm
        have hdrop := h.contents_retrieve len
        refine ⟨?_, ?_, ?_, ?_⟩
        · rw [Nat.min_eq_left hlen, htake]
        · intro i _ hi
          rw [hlength] at hi
          exact ⟨Nat.lt_of_lt_of_le hi hwriter, Nat.lt_of_lt_of_le hi hfit⟩
        · rw [Nat.min_eq_left hlen, hdrop]
        · rw [htake, hdrop, List.take_append_drop]
    · have hresult : Buffer64.retrieveAsString b true len = .outside := by
        rw [Buffer64.retrieveAsString, if_pos rfl, if_neg hfit]
      rw [hresult]
      exact ⟨False.elim, fun hcond => hfit hcond.2.2⟩

/-! ### Histories without wrap-around -/

/-- The sum in which `ensureWritableBytes` computes a new size does not wrap. -/
def NoWrap (b : Buffer) (a : BufferAct) : Prop := b.writerIndex + room a.op < sizeTBound

instance : ∀ b a, Decidable (NoWrap b a) := fun b a =>
  inferInstanceAs (Decidable (b.writerIndex + room a.op < sizeTBound))

/-- Where no sum wraps, the readable bytes lie in `buffer_` after every history, and the
    length that `retrieveAsString` gets decides alone. -/
theorem retrieves_iff_of_noWrap {initialSize : Nat} {b₀ : Buffer} {acts : List BufferAct}
    (hsum : kCheapPrepend + initialSize < sizeTBound)
    (hnew : Buffer64.new initialSize = some b₀) (hnowrap : Runs.Along Buffer64.step NoWrap b₀ acts)
    (hrun : Runs.run Buffer64.step b₀ acts = some b) :
    Retrieves b len (Buffer64.retrieveAsString b true len) ↔ len ≤ b.readableBytes := by
  have h : Sound b := Runs.run_induction_along (fun _ _ _ h hC hstep => kept_sound.step h hC hstep)
    (.new hsum hnew) hnowrap hrun
  have hreader := h.reader_le
  have hwriter := h.writer_le
  rw [h.retrieves_iff, readableBytes_eq h.wf h.size_lt]
  constructor
  · rintro ⟨_, hlen, _⟩
    exact hlen
  · intro hlen
    refine ⟨rfl, hlen, ?_⟩
    rw [Buffer.readableBytes] at hlen
    omega

/-! ### Any history -/

/-- **After any history `retrieveAsString(len)` hands out readable bytes exactly where
    `len` is not beyond `readableBytes()`** and these lie in `buffer_`. -/
theorem retrieveAsString_correct_iff {initialSize : Nat} {b₀ : Buffer} {acts : List BufferAct}
    (hnew : Buffer64.new initialSize = some b₀)
    (hrun : Runs.run Buffer64.step b₀ acts = some b) (allocated : Bool) (len : Nat) :
    Retrieves b len (Buffer64.retrieveAsString b allocated len)
      ↔ allocated = true ∧ len ≤ readableBytes b ∧ b.readerIndex + len ≤ b.buffer.length :=
  (Bounded.of_run hnew hrun).retrieves_iff

/-- A history with an allocation that fails and old bytes behind `writerIndex_`. -/
def staleActs : List BufferAct :=
  [⟨.append [97, 98, 99, 100, 101], true⟩, ⟨.ensureWritableBytes 4096, false⟩,
    ⟨.retrieve 100, true⟩, ⟨.append [120, 121], true⟩]

theorem retrieveAsString_correct_iff_staleActs :
    ∃ b₀ b, Buffer64.new 16 = some b₀ ∧ Runs.run Buffer64.step b₀ staleActs = some b
      ∧ (Retrieves b 2 (Buffer64.retrieveAsString b true 2)
        ↔ true = true ∧ 2 ≤ readableBytes b ∧ b.readerIndex + 2 ≤ b.buffer.length) := by
  obtain ⟨b₀, hnew⟩ := Option.isSome_iff_exists.mp
    (by decide +kernel : (Buffer64.new 16).isSome = true)
  have hsome : ∀ c, Buffer64.new 16 = some c →
      (Runs.run Buffer64.step c staleActs).isSome = true := by
    decide +kernel
  obtain ⟨b, hrun⟩ := Option.isSome_iff_exists.mp (hsome b₀ hnew)
  exact ⟨b₀, b, hnew, hrun, retrieveAsString_correct_iff hnew hrun true 2⟩

/-- Behind the two readable bytes `xy` the string gets what is left of `abcde`, and a
    longer one leaves `buffer_`. -/
theorem retrieveAsString_stale :
    ∃ b₀ b b', Buffer64.new 16 = some b₀ ∧ Runs.run Buffer64.step b₀ staleActs = some b
      ∧ b.contents = [120, 121]
      ∧ Buffer64.retrieveAsString b true 4 = .returned [120, 121, 99, 100] b'
      ∧ ¬ Retrieves b 4 (Buffer64.retrieveAsString b true 4)
      ∧ Buffer64.retrieveAsString b true 100 = .outside
      ∧ ¬ Retrieves b 100 (Buffer64.retrieveAsString b true 100) := by
  have hstale : Buffer64.retrieveAsString
      ⟨List.replicate 8 0 ++ [120, 121, 99, 100, 101] ++ List.replicate 11 0, 8, 10⟩ true 4
      = .returned [120, 121, 99, 100]
        ⟨List.replicate 8 0 ++ [120, 121, 99, 100, 101] ++ List.replicate 11 0, 8, 8⟩ := by
    decide +kernel
  have houtside : Buffer64.retrieveAsString
      ⟨List.replicate 8 0 ++ [120, 121, 99, 100, 101] ++ List.replicate 11 0, 8, 10⟩ true 100
      = .outside := by
    decide +kernel
  refine ⟨_, _, _, rfl, by decide +kernel, by decide +kernel, hstale, ?_, houtside, ?_⟩
  · rw [hstale]
    rintro ⟨htake, _⟩
    exact absurd htake (by decide +kernel)
  · rw [houtside]
    exact id

end Buffer64

end Ymuduo
