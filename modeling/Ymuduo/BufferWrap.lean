/-
  Ymuduo/BufferWrap.lean
  ======================
  **`ensureWritableBytes` with the arithmetic of `size_t`.**

  The sums and differences of Buffer.h are taken modulo `2 ^ 64` here, and
  `vector::resize` may throw.  On a buffer with the invariant of the class, and as long
  as `writerIndex_ + len` does not wrap, the function does what the one of
  Ymuduo/Buffer.lean does, or throws (`correct_of_lt`); a length for which the sum wraps is
  handled wrongly for every such buffer (`not_correct_of_ge`).
-/
import Ymuduo.Buffer

namespace Ymuduo

open Block

/-! ### `size_t` -/

/-- `2 ^ 64` -/
def sizeTBound : Nat := 18446744073709551616

namespace SizeT

def add (a b : Nat) : Nat := (a + b) % sizeTBound

def sub (a b : Nat) : Nat := (a + sizeTBound - b) % sizeTBound

variable {a b : Nat}

theorem add_of_lt (h : a + b < sizeTBound) : add a b = a + b :=
  Nat.mod_eq_of_lt h

theorem add_of_ge (ha : a < sizeTBound) (hb : b < sizeTBound) (h : sizeTBound ≤ a + b) :
    add a b = a + b - sizeTBound := by
  rw [add, Nat.mod_eq_sub_mod h]
  apply Nat.mod_eq_of_lt
  omega

theorem sub_of_le (ha : a < sizeTBound) (h : b ≤ a) : sub a b = a - b := by
  have hsum : a + sizeTBound - b = a - b + sizeTBound := by omega
  rw [sub, hsum, Nat.add_mod_right]
  apply Nat.mod_eq_of_lt
  omega

theorem sub_of_gt (hb : b < sizeTBound) (h : a < b) : sub a b = a + sizeTBound - b := by
  apply Nat.mod_eq_of_lt
  omega

end SizeT

/-! ### The code -/

/-- `std::vector<char>::max_size()`, `2 ^ 63 - 1` -/
def vectorMaxSize : Nat := 9223372036854775807

inductive VectorError where
  | lengthError
  | badAlloc
deriving DecidableEq, Repr

/-- How `ensureWritableBytes` ends.  `undefined` is a `std::copy` that C++ does not define. -/
inductive SpaceResult where
  | returned (b : Buffer)
  | threw (e : VectorError) (b : Buffer)
  | assertFailed
  | undefined
deriving DecidableEq, Repr

namespace Buffer64

def readableBytes (b : Buffer) : Nat := SizeT.sub b.writerIndex b.readerIndex

def writableBytes (b : Buffer) : Nat := SizeT.sub b.buffer.length b.writerIndex

/-- `buffer_.resize(n)`; `allocated` says whether an allocation would succeed. -/
def resizeBuffer (b : Buffer) (allocated : Bool) (n : Nat) : SpaceResult :=
  if n ≤ b.buffer.length then .returned { b with buffer := resize b.buffer n 0 }
  else if vectorMaxSize < n then .threw .lengthError b
  else if allocated then .returned { b with buffer := resize b.buffer n 0 }
  else .threw .badAlloc b

def makeSpace (b : Buffer) (allocated : Bool) (len : Nat) : SpaceResult :=
  if SizeT.add (writableBytes b) b.prependableBytes < SizeT.add len kCheapPrepend then
    resizeBuffer b allocated (SizeT.add b.writerIndex len)
  else
    match move b.buffer b.readerIndex b.writerIndex kCheapPrepend with
    | some moved =>
      .returned
        { buffer := moved
          readerIndex := kCheapPrepend
          writerIndex := SizeT.add kCheapPrepend (readableBytes b) }
    | none => .undefined

/-- `assert(writableBytes() >= len)` -/
def assertWritable (len : Nat) : SpaceResult → SpaceResult
  | .returned b => if len ≤ writableBytes b then .returned b else .assertFailed
  | r => r

def ensureWritableBytes (b : Buffer) (allocated : Bool) (len : Nat) : SpaceResult :=
  assertWritable len (if writableBytes b < len then makeSpace b allocated len else .returned b)

/-- What `ensureWritableBytes(len)` is for: the invariant, the readable bytes, room for
    `len` more, and a buffer that has not become smaller; or an exception that has
    changed nothing.  In either case `writerIndex_` is not beyond `buffer_`. -/
def Correct (b : Buffer) (len : Nat) : SpaceResult → Prop
  | .returned b' => b'.WF ∧ b'.contents = b.contents
      ∧ b'.writerIndex + len ≤ b'.buffer.length ∧ b.buffer.length ≤ b'.buffer.length
  | .threw _ b' => b' = b ∧ b'.writerIndex ≤ b'.buffer.length
  | .assertFailed | .undefined => False

variable {b : Buffer} {len : Nat}

/-! ### Without wrap-around -/

theorem writableBytes_eq (h : b.WF) (hsize : b.buffer.length < sizeTBound) :
    writableBytes b = b.writableBytes :=
  SizeT.sub_of_le hsize h.writer_le

theorem readableBytes_eq (h : b.WF) (hsize : b.buffer.length < sizeTBound) :
    readableBytes b = b.readableBytes :=
  SizeT.sub_of_le (Nat.lt_of_le_of_lt h.writer_le hsize) h.reader_le

/-- The space in front of and behind the readable bytes never wraps. -/
theorem space_eq (h : b.WF) (hsize : b.buffer.length < sizeTBound) :
    SizeT.add (writableBytes b) b.prependableBytes = b.writableBytes + b.prependableBytes := by
  rw [writableBytes_eq h hsize]
  apply SizeT.add_of_lt
  have hreader := h.reader_le
  have hwriter := h.writer_le
  simp only [Buffer.writableBytes, Buffer.prependableBytes]
  omega

theorem resizeBuffer_of_lt (allocated : Bool) {n : Nat} (h : b.buffer.length < n) :
    resizeBuffer b allocated n = .returned { b with buffer := resize b.buffer n 0 }
      ∨ ∃ e, resizeBuffer b allocated n = .threw e b := by
  rw [resizeBuffer, if_neg (Nat.not_le.mpr h)]
  split
  · exact Or.inr ⟨.lengthError, rfl⟩
  · split
    · exact Or.inl rfl
    · exact Or.inr ⟨.badAlloc, rfl⟩

theorem length_le_of_ensureWritableBytes {b' : Buffer}
    (hb' : b.ensureWritableBytes len = some b') (h : b.WF) :
    b.buffer.length ≤ b'.buffer.length := by
  have hwriter := h.writer_le
  unfold Buffer.ensureWritableBytes at hb'
  obtain ⟨b₁, hb₁, hassert⟩ := Option.bind_eq_some_iff.mp hb'
  simp only [Option.ite_none_right_eq_some, Option.some.injEq] at hassert
  obtain ⟨_, rfl⟩ := hassert
  split at hb₁
  · rename_i hshort
    unfold Buffer.makeSpace at hb₁
    split at hb₁
    · cases hb₁
      have hgrow : b.buffer.length ≤ b.writerIndex + len := by
        simp only [Buffer.writableBytes] at hshort
        omega
      exact Nat.le_trans hgrow (Nat.le_of_eq (length_resize 0 hgrow).symm)
    · obtain ⟨moved, hmove, rfl⟩ := Option.map_eq_some_iff.mp hb₁
      exact Nat.le_of_eq (length_move hmove).symm
  · cases hb₁
    exact Nat.le_refl _

/-- A buffer with room for `len` more passes the `assert`. -/
theorem assertWritable_returned (h : b.WF) (hsize : b.buffer.length < sizeTBound)
    (hroom : len ≤ b.writableBytes) : assertWritable len (.returned b) = .returned b := by
  rw [assertWritable, writableBytes_eq h hsize, if_pos hroom]

/-- **Where `writerIndex_ + len` does not wrap**, the function does what the one over
    `Nat` does, or throws. -/
theorem ensureWritableBytes_refines (h : b.WF) (hsize : b.buffer.length < sizeTBound)
    (allocated : Bool) (hlen : b.writerIndex + len < sizeTBound) :
    (∃ b', b.ensureWritableBytes len = some b'
        ∧ ensureWritableBytes b allocated len = .returned b')
      ∨ ∃ e, ensureWritableBytes b allocated len = .threw e b := by
  have hprepend := h.prepend_le
  have hreader := h.reader_le
  have hneed : SizeT.add len kCheapPrepend = len + kCheapPrepend := by
    apply SizeT.add_of_lt
    omega
  unfold ensureWritableBytes
  rw [writableBytes_eq h hsize]
  obtain ⟨b', hb', hwf', _, hroom⟩ := h.ensureWritableBytes len
  have hresult := hb'
  unfold Buffer.ensureWritableBytes at hresult
  by_cases hshort : b.writableBytes < len
  · rw [if_pos hshort] at hresult ⊢
    rw [makeSpace, space_eq h hsize, hneed, SizeT.add_of_lt hlen]
    by_cases hspace : b.writableBytes + b.prependableBytes < len + kCheapPrepend
    · rw [if_pos hspace]
      rw [Buffer.makeSpace, if_pos hspace, Option.bind_some] at hresult
      simp only [Option.ite_none_right_eq_some, Option.some.injEq] at hresult
      obtain ⟨_, rfl⟩ := hresult
      have hgrow : b.buffer.length < b.writerIndex + len := by
        simp only [Buffer.writableBytes] at hshort
        omega
      rcases resizeBuffer_of_lt allocated hgrow with hgrown | ⟨e, hthrew⟩
      · refine Or.inl ⟨_, hb', ?_⟩
        rw [hgrown]
        refine assertWritable_returned hwf' ?_ hroom
        exact Nat.lt_of_le_of_lt (Nat.le_of_eq (length_resize 0 (Nat.le_of_lt hgrow))) hlen
      · exact Or.inr ⟨e, by rw [hthrew]; rfl⟩
    · rw [if_neg hspace]
      rw [Buffer.makeSpace, if_neg hspace] at hresult
      cases hmove : move b.buffer b.readerIndex b.writerIndex kCheapPrepend with
      | none =>
        rw [hmove] at hresult
        cases hresult
      | some moved =>
        simp only [hmove, Option.map_some, Option.bind_some, Option.ite_none_right_eq_some,
          Option.some.injEq] at hresult
        obtain ⟨_, rfl⟩ := hresult
        refine Or.inl ⟨_, hb', ?_⟩
        have hwriter : SizeT.add kCheapPrepend (readableBytes b)
            = kCheapPrepend + b.readableBytes := by
          rw [readableBytes_eq h hsize]
          apply SizeT.add_of_lt
          simp only [Buffer.readableBytes]
          omega
        simp only [hwriter]
        refine assertWritable_returned hwf' ?_ hroom
        exact Nat.lt_of_le_of_lt (Nat.le_of_eq (length_move hmove)) hsize
  · rw [if_neg hshort] at hresult ⊢
    rw [Option.bind_some] at hresult
    simp only [Option.ite_none_right_eq_some, Option.some.injEq] at hresult
    obtain ⟨_, rfl⟩ := hresult
    exact Or.inl ⟨b, hb', assertWritable_returned h hsize hroom⟩

theorem correct_of_lt (h : b.WF) (hsize : b.buffer.length < sizeTBound) (allocated : Bool)
    (hlen : b.writerIndex + len < sizeTBound) :
    Correct b len (ensureWritableBytes b allocated len) := by
  rcases ensureWritableBytes_refines h hsize allocated hlen with ⟨b', hb', heq⟩ | ⟨e, heq⟩
  · obtain ⟨c, hc, hwf, hcontents, hroom⟩ := h.ensureWritableBytes len
    rw [hb', Option.some.injEq] at hc
    subst hc
    have hwriter := hwf.writer_le
    have hfit : b'.writerIndex + len ≤ b'.buffer.length := by
      simp only [Buffer.writableBytes] at hroom
      omega
    rw [heq]
    exact ⟨hwf, hcontents, hfit, length_le_of_ensureWritableBytes hb' h⟩
  · rw [heq]
    exact ⟨rfl, h.writer_le⟩

/-! ### With wrap-around -/

theorem Correct.of_assertWritable {r : SpaceResult} (h : Correct b len (assertWritable len r)) :
    Correct b len r := by
  cases r with
  | returned c =>
    by_cases hroom : len ≤ writableBytes c
    · rw [assertWritable, if_pos hroom] at h
      exact h
    · rw [assertWritable, if_neg hroom] at h
      exact absurd h id
  | threw | assertFailed | undefined => exact h

/-- Where `writerIndex_ + len` wraps, `buffer_` is cut in front of `writerIndex_`, or,
    with `len + kCheapPrepend` wrapping too, nothing is gained by a move. -/
theorem not_correct_of_ge (h : b.WF) (hsize : b.buffer.length ≤ vectorMaxSize)
    (allocated : Bool) (hlen : len < sizeTBound) (hwrap : sizeTBound ≤ b.writerIndex + len) :
    ¬ Correct b len (ensureWritableBytes b allocated len) := by
  intro hcorrect
  have hprepend := h.prepend_le
  have hreader := h.reader_le
  have hwriter := h.writer_le
  have hmax : vectorMaxSize < len ∧ vectorMaxSize < sizeTBound := by
    simp only [vectorMaxSize, sizeTBound] at hsize hwrap ⊢
    omega
  have hbound : b.buffer.length < sizeTBound := by omega
  have hwritable := writableBytes_eq h hbound
  have hshort : writableBytes b < len := by
    rw [hwritable, Buffer.writableBytes]
    omega
  replace hcorrect := hcorrect.of_assertWritable
  rw [if_pos hshort, makeSpace, space_eq h hbound] at hcorrect
  by_cases hneed : len + kCheapPrepend < sizeTBound
  · have hspace : b.writableBytes + b.prependableBytes < len + kCheapPrepend := by
      simp only [Buffer.writableBytes, Buffer.prependableBytes]
      omega
    -- the new size is below `writerIndex_`
    have hcut : SizeT.add b.writerIndex len = b.writerIndex + len - sizeTBound :=
      SizeT.add_of_ge (by omega) hlen hwrap
    have hle : b.writerIndex + len - sizeTBound ≤ b.buffer.length := by omega
    rw [SizeT.add_of_lt hneed, if_pos hspace, hcut, resizeBuffer, if_pos hle] at hcorrect
    have hwriter' := Nat.le_trans hcorrect.1.writer_le (Nat.le_of_eq (length_resize_of_ge 0 hle))
    have hlt : b.writerIndex + len - sizeTBound < b.writerIndex := by omega
    exact Nat.not_le_of_lt hlt hwriter'
  · have hsum : SizeT.add len kCheapPrepend = len + kCheapPrepend - sizeTBound := by
      apply SizeT.add_of_ge hlen _ (Nat.le_of_not_lt hneed)
      simp only [kCheapPrepend, sizeTBound]
      omega
    have hspace : ¬ b.writableBytes + b.prependableBytes < len + kCheapPrepend - sizeTBound := by
      simp only [Buffer.prependableBytes]
      omega
    rw [hsum, if_neg hspace] at hcorrect
    cases hmove : move b.buffer b.readerIndex b.writerIndex kCheapPrepend with
    | none =>
      rw [hmove] at hcorrect
      exact hcorrect
    | some moved =>
      rw [hmove] at hcorrect
      have hfit := hcorrect.2.2.1
      simp only [length_move hmove] at hfit
      omega

end Buffer64

end Ymuduo
