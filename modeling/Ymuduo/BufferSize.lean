/-
  Ymuduo/BufferSize.lean
  ======================
  **How much memory a `Buffer` takes.**

  `makeSpace` grows `buffer_` only when moving the readable bytes to the front would not
  do, so the size follows the most that was ever readable, not the traffic
  (`size_bounded`).  A reader that empties the buffer before each `readFd` never needs
  more than the `128k-1` bytes that one `readv` can bring (`read_size_bounded`).
-/
import Ymuduo.Buffer

namespace Ymuduo

/-- What an operation may leave unused on top of the contents. -/
def BufferOp.slack : BufferOp → Nat
  | .append data => data.length
  | .ensureWritableBytes len => 2 * len
  | .readFd _ => extrabufSize
  | .retrieve _ | .retrieveAll | .retrieveAllAsString | .retrieveAsString _ | .writeFd _ => 0

namespace Buffer

variable {b b' : Buffer}

/-! ### The size after an operation -/

/-- `makeSpace` grows the buffer only when it holds little besides the contents. -/
theorem WF.length_ensureWritableBytes (h : b.WF) {len : Nat}
    (hb : b.ensureWritableBytes len = some b') :
    b'.buffer.length = b.buffer.length
      ∨ b'.buffer.length = b.writerIndex + len
        ∧ b'.buffer.length < kCheapPrepend + b.readableBytes + 2 * len := by
  have hreader := h.reader_le
  have hwriter := h.writer_le
  unfold Buffer.ensureWritableBytes at hb
  obtain ⟨c, hc, hroom⟩ := Option.bind_eq_some_iff.mp hb
  obtain ⟨_, heq⟩ := Option.ite_none_right_eq_some.mp hroom
  cases heq
  by_cases hshort : b.writableBytes < len
  · rw [if_pos hshort, makeSpace] at hc
    by_cases hresize : b.writableBytes + b.prependableBytes < len + kCheapPrepend
    · rw [if_pos hresize] at hc
      cases hc
      simp only [writableBytes, prependableBytes] at hshort hresize
      have hlength : (Block.resize b.buffer (b.writerIndex + len) (0 : Byte)).length
          = b.writerIndex + len := Block.length_resize 0 (by omega)
      right
      rw [hlength, readableBytes]
      omega
    · rw [if_neg hresize] at hc
      obtain ⟨moved, hmoved, rfl⟩ := Option.map_eq_some_iff.mp hc
      exact Or.inl (Block.length_move hmoved)
  · rw [if_neg hshort] at hc
    cases hc
    exact Or.inl rfl

theorem WF.length_append (h : b.WF) {data : List Byte} (hb : b.append data = some b') :
    b'.buffer.length = b.buffer.length
      ∨ b'.buffer.length = b.writerIndex + data.length
        ∧ b'.buffer.length < kCheapPrepend + b.readableBytes + 2 * data.length := by
  obtain ⟨c, hc, hstore⟩ := Option.bind_eq_some_iff.mp hb
  obtain ⟨stored, hstored, rfl⟩ := Option.map_eq_some_iff.mp hstore
  rw [hasWritten, Block.length_store hstored]
  exact h.length_ensureWritableBytes hc

/-- Only what does not fit behind `writerIndex` makes `readFd` grow the buffer. -/
theorem WF.length_readFd (h : b.WF) {bytes : List Byte} {res : SysResult}
    (hb : b.readFd (.ok bytes) = some (res, b')) :
    b'.buffer.length = b.buffer.length
      ∨ b.writableBytes < bytes.length
        ∧ b'.buffer.length = b.buffer.length + (bytes.length - b.writableBytes)
        ∧ b'.buffer.length < kCheapPrepend + (b.readableBytes + bytes.length)
          + (bytes.length - b.writableBytes) := by
  have hreader := h.reader_le
  have hwriter := h.writer_le
  by_cases hfit : bytes.length ≤ b.writableBytes
  · rw [Buffer.readFd, if_pos hfit] at hb
    obtain ⟨stored, hstored, heq⟩ := Option.map_eq_some_iff.mp hb
    cases heq
    exact Or.inl (Block.length_store hstored)
  · rw [Buffer.readFd, if_neg hfit] at hb
    obtain ⟨c, hc, hb⟩ := Option.bind_eq_some_iff.mp hb
    obtain ⟨d, hd, heq⟩ := Option.map_eq_some_iff.mp hb
    cases heq
    have hwf : c.WF := by
      obtain ⟨c', hc', hwf, _⟩ := h.fillWritable (Nat.lt_of_not_le hfit)
      rw [hc] at hc'
      cases hc'
      exact hwf
    obtain ⟨stored, hstored, rfl⟩ := Option.map_eq_some_iff.mp hc
    have hgrown := hwf.length_append hd
    simp only [readableBytes, writableBytes, List.length_drop, Block.length_store hstored]
      at hgrown hfit ⊢
    omega

theorem length_retrieve (b : Buffer) (len : Nat) :
    (b.retrieve len).buffer.length = b.buffer.length := by
  unfold retrieve
  split
  · rfl
  · rfl

/-- **An operation leaves the size as it is, or at little more than the contents.** -/
theorem exec_size (h : b.WF) {op : BufferOp} (hop : op.Admissible b) {out : List Byte}
    (hb : b.exec op = some (b', out)) :
    b'.buffer.length = b.buffer.length
      ∨ b'.buffer.length < kCheapPrepend + b'.contents.length + op.slack := by
  obtain ⟨c, hexec, _, hcontents⟩ := exec_refines h hop
  rw [hb] at hexec
  obtain ⟨rfl, _⟩ := Prod.mk.inj (Option.some.inj hexec)
  have hreadable := h.length_contents
  cases op with
  | append data =>
    obtain ⟨c, hc, heq⟩ := Option.map_eq_some_iff.mp hb
    cases heq
    have hsize := h.length_append hc
    simp only [BufferOp.spec] at hcontents
    rw [hcontents, List.length_append, BufferOp.slack, hreadable]
    omega
  | ensureWritableBytes len =>
    obtain ⟨c, hc, heq⟩ := Option.map_eq_some_iff.mp hb
    cases heq
    have hsize := h.length_ensureWritableBytes hc
    simp only [BufferOp.spec] at hcontents
    rw [hcontents, BufferOp.slack, hreadable]
    omega
  | readFd res =>
    obtain ⟨hc, rfl⟩ := exec_readFd hb
    cases res with
    | err e =>
      cases hc
      exact Or.inl rfl
    | ok bytes =>
      have hsize := h.length_readFd hc
      have htotal : bytes.length ≤ b.iovTotal := hop
      simp only [BufferOp.spec] at hcontents
      rw [hcontents, List.length_append, BufferOp.slack, hreadable]
      unfold iovTotal at htotal
      split at htotal <;> omega
  | retrieve len =>
    cases hb
    exact Or.inl (b.length_retrieve len)
  | retrieveAll =>
    cases hb
    exact Or.inl rfl
  | retrieveAllAsString | retrieveAsString len =>
    obtain ⟨⟨string, c⟩, hc, heq⟩ := Option.map_eq_some_iff.mp hb
    cases heq
    obtain ⟨_, heq⟩ := Option.ite_none_right_eq_some.mp hc
    cases heq
    exact Or.inl (b.length_retrieve _)
  | writeFd res =>
    cases res with
    | err e =>
      cases hb
      exact Or.inl rfl
    | ok n =>
      cases hb
      left
      simp only [writeFd]
      split
      · rfl
      · exact b.length_retrieve n

/-! ### Runs -/

/-- The bytes readable after the operation. -/
def peak (s : Buffer × List Byte) (op : BufferOp) : Nat := (op.spec s.1.contents).1.length

/-- **The size of a buffer follows the most it has held.**  If at most `R` bytes are readable
    at any time, and no operation has more slack than `A`, then no run makes a new buffer
    larger than that, however many bytes go through it. -/
theorem size_bounded (initialSize R A : Nat) (ops : List BufferOp) (b : Buffer) (out : List Byte)
    (hrun : Runs.run step (new initialSize, []) ops = some (b, out))
    (hops : Runs.Along step (fun s op => op.Admissible s.1 ∧ peak s op ≤ R ∧ op.slack ≤ A)
      (new initialSize, []) ops) :
    b.buffer.length ≤ kCheapPrepend + max initialSize (R + A) := by
  have hkept := @Runs.run_induction_along _ _ step
    (fun s => s.1.WF ∧ s.1.buffer.length ≤ kCheapPrepend + max initialSize (R + A)) _
    (fun s op t hs hop hstep => ?_) _ _ _ ⟨WF.new initialSize, ?_⟩ hops hrun
  · exact hkept.2
  · obtain ⟨hwf, hsize⟩ := hs
    obtain ⟨hadmissible, hpeak, hslack⟩ := hop
    obtain ⟨⟨c, handed⟩, hc, rfl⟩ := Option.map_eq_some_iff.mp hstep
    obtain ⟨c', hc', hwf', hcontents⟩ := exec_refines hwf hadmissible
    rw [hc] at hc'
    cases hc'
    refine ⟨hwf', ?_⟩
    rcases exec_size hwf hadmissible hc with hsame | hless
    · exact hsame.symm ▸ hsize
    · rw [hcontents] at hless
      simp only [peak] at hpeak
      dsimp only
      omega
  · simp only [new, List.length_replicate]
    omega

theorem size_bounded_traffic :
    ∃ b out, Runs.run step (new 16, []) [.append [1, 2, 3, 4, 5, 6, 7, 8, 9, 10], .retrieve 8,
        .append [1, 2, 3, 4, 5, 6, 7, 8, 9, 10], .retrieve 8,
        .append [1, 2, 3, 4, 5, 6, 7, 8, 9, 10]] = some (b, out)
      ∧ b.buffer.length ≤ kCheapPrepend + max 16 (14 + 10) := by
  obtain ⟨b, out, hrun⟩ : ∃ b out, Runs.run step (new 16, [])
      [.append [1, 2, 3, 4, 5, 6, 7, 8, 9, 10], .retrieve 8,
        .append [1, 2, 3, 4, 5, 6, 7, 8, 9, 10], .retrieve 8,
        .append [1, 2, 3, 4, 5, 6, 7, 8, 9, 10]] = some (b, out) := ⟨_, _, rfl⟩
  exact ⟨b, out, hrun, size_bounded 16 14 10 _ b out hrun (by decide)⟩

/-! ### A reader that empties the buffer -/

/-- The most that one `readv` brings when `extrabuf` is used: `128k-1`. -/
def maxSpillRead : Nat := 2 * extrabufSize - 1

/-- The reader takes everything out before it reads again. -/
def DrainsFirst (s : Buffer × List Byte) : BufferOp → Prop
  | .readFd _ => s.1.contents = []
  | .append _ | .ensureWritableBytes _ => False
  | .retrieve _ | .retrieveAll | .retrieveAllAsString | .retrieveAsString _ | .writeFd _ => True

instance (s : Buffer × List Byte) : (op : BufferOp) → Decidable (DrainsFirst s op)
  | .readFd _ => inferInstanceAs (Decidable (s.1.contents = []))
  | .append _ | .ensureWritableBytes _ => inferInstanceAs (Decidable False)
  | .retrieve _ | .retrieveAll | .retrieveAllAsString | .retrieveAsString _ | .writeFd _ =>
    inferInstanceAs (Decidable True)

theorem iovTotal_cases (b : Buffer) :
    b.writableBytes < extrabufSize ∧ b.iovTotal = b.writableBytes + extrabufSize
      ∨ extrabufSize ≤ b.writableBytes ∧ b.iovTotal = b.writableBytes := by
  unfold iovTotal
  split
  · rename_i hsmall
    exact Or.inl ⟨hsmall, rfl⟩
  · rename_i hlarge
    exact Or.inr ⟨Nat.le_of_not_lt hlarge, rfl⟩

/-- An empty buffer has its indices at the front. -/
def Fronted (b : Buffer) : Prop := b.readableBytes = 0 → b.readerIndex = kCheapPrepend

theorem fronted_retrieve (len : Nat) : (b.retrieve len).Fronted := by
  unfold retrieve
  split
  · rename_i hlt
    intro hempty
    simp only [readableBytes] at hlt hempty
    omega
  · exact fun _ => rfl

/-- `readFd` on an empty buffer spills at most once: then the buffer is large enough. -/
theorem WF.readFd_drained (h : b.WF) (hfront : b.Fronted) (hempty : b.contents = [])
    {bytes : List Byte} (htotal : bytes.length ≤ b.iovTotal) {res : SysResult}
    (hb : b.readFd (.ok bytes) = some (res, b')) :
    b'.Fronted ∧ (b'.buffer.length = b.buffer.length
      ∨ b'.buffer.length ≤ kCheapPrepend + maxSpillRead) := by
  have hreadable : b.readableBytes = 0 := by rw [← h.length_contents, hempty, List.length_nil]
  have hreader := hfront hreadable
  constructor
  · intro hnone
    obtain ⟨c, hc, hwf, hcontents⟩ := h.readFd_ok bytes
    rw [hb] at hc
    cases hc
    rw [← hwf.length_contents, hcontents, hempty, List.nil_append,
      List.length_eq_zero_iff] at hnone
    subst hnone
    rw [Buffer.readFd, if_pos (by exact Nat.zero_le _)] at hb
    obtain ⟨stored, _, heq⟩ := Option.map_eq_some_iff.mp hb
    cases heq
    exact hreader
  · rcases h.length_readFd hb with hsame | ⟨hspill, hgrown, _⟩
    · exact Or.inl hsame
    · right
      have hwriter := h.writer_le
      have hreader' := h.reader_le
      simp only [readableBytes] at hreadable
      rcases b.iovTotal_cases with ⟨hsmall, htwo⟩ | ⟨_, hone⟩
      · simp only [writableBytes] at hsmall htwo hspill hgrown
        unfold maxSpillRead
        omega
      · omega

/-- An operation of such a reader. -/
theorem WF.exec_drained (h : b.WF) (hfront : b.Fronted) {op : BufferOp}
    (hop : op.Admissible b) {taken out : List Byte} (hdrains : DrainsFirst (b, taken) op)
    (hb : b.exec op = some (b', out)) :
    b'.Fronted ∧ (b'.buffer.length = b.buffer.length
      ∨ b'.buffer.length ≤ kCheapPrepend + maxSpillRead) := by
  cases op with
  | append data | ensureWritableBytes len => exact hdrains.elim
  | retrieve len =>
    cases hb
    exact ⟨fronted_retrieve len, Or.inl (b.length_retrieve len)⟩
  | retrieveAll =>
    cases hb
    exact ⟨fun _ => rfl, Or.inl rfl⟩
  | retrieveAllAsString | retrieveAsString len =>
    obtain ⟨⟨string, c⟩, hc, heq⟩ := Option.map_eq_some_iff.mp hb
    cases heq
    obtain ⟨_, heq⟩ := Option.ite_none_right_eq_some.mp hc
    cases heq
    exact ⟨fronted_retrieve _, Or.inl (b.length_retrieve _)⟩
  | readFd res =>
    obtain ⟨hc, rfl⟩ := exec_readFd hb
    cases res with
    | err e =>
      cases hc
      exact ⟨hfront, Or.inl rfl⟩
    | ok bytes => exact h.readFd_drained hfront hdrains hop hc
  | writeFd res =>
    cases res with
    | err e =>
      cases hb
      exact ⟨hfront, Or.inl rfl⟩
    | ok n =>
      cases hb
      simp only [Buffer.writeFd]
      split
      · exact ⟨hfront, Or.inl rfl⟩
      · exact ⟨fronted_retrieve n, Or.inl (b.length_retrieve n)⟩

/-- **A reader that empties the buffer first reads at most `128k-1` bytes at a time**, and the
    buffer never needs more than that.  (A buffer that is larger from the start stays as it
    is, and is read into as a whole.) -/
theorem read_size_bounded (initialSize : Nat) (ops : List BufferOp) (b : Buffer)
    (out : List Byte) (hrun : Runs.run step (new initialSize, []) ops = some (b, out))
    (hops : Runs.Along step (fun s op => op.Admissible s.1 ∧ DrainsFirst s op)
      (new initialSize, []) ops) :
    b.buffer.length ≤ kCheapPrepend + max initialSize maxSpillRead
      ∧ (b.contents = [] → b.iovTotal ≤ max initialSize maxSpillRead) := by
  have hkept := @Runs.run_induction_along _ _ step
    (fun s => s.1.WF ∧ s.1.Fronted
      ∧ s.1.buffer.length ≤ kCheapPrepend + max initialSize maxSpillRead) _
    (fun s op t hs hop hstep => ?_) _ _ _ ⟨WF.new initialSize, fun _ => rfl, ?_⟩ hops hrun
  · change b.WF ∧ b.Fronted ∧ b.buffer.length ≤ _ at hkept
    obtain ⟨hwf, hfront, hsize⟩ := hkept
    refine ⟨hsize, fun hempty => ?_⟩
    have hreadable : b.readableBytes = 0 := by
      rw [← hwf.length_contents, hempty, List.length_nil]
    have hreader := hfront hreadable
    have hle := hwf.reader_le
    simp only [readableBytes] at hreadable
    unfold maxSpillRead at hsize ⊢
    rcases b.iovTotal_cases with ⟨hsmall, htwo⟩ | ⟨_, hone⟩
    · omega
    · rw [hone, writableBytes]
      omega
  · obtain ⟨hwf, hfront, hsize⟩ := hs
    obtain ⟨hadmissible, hdrains⟩ := hop
    obtain ⟨⟨c, handed⟩, hc, rfl⟩ := Option.map_eq_some_iff.mp hstep
    obtain ⟨c', hc', hwf', hcontents⟩ := exec_refines hwf hadmissible
    obtain ⟨hfront', hfresh⟩ := hwf.exec_drained hfront hadmissible hdrains hc
    rw [hc] at hc'
    cases hc'
    refine ⟨hwf', hfront', ?_⟩
    rcases hfresh with hsame | hgrown
    · exact hsame.symm ▸ hsize
    · dsimp only
      omega
  · simp only [new, List.length_replicate]
    omega

theorem read_size_bounded_echo :
    ∃ b out, Runs.run step (new 4, []) [.readFd (.ok [1, 2, 3, 4, 5, 6]), .retrieveAllAsString,
        .readFd (.ok [7, 8]), .retrieveAllAsString] = some (b, out)
      ∧ b.buffer.length ≤ kCheapPrepend + max 4 maxSpillRead
      ∧ (b.contents = [] → b.iovTotal ≤ max 4 maxSpillRead) := by
  obtain ⟨b, out, hrun⟩ : ∃ b out, Runs.run step (new 4, []) [.readFd (.ok [1, 2, 3, 4, 5, 6]),
      .retrieveAllAsString, .readFd (.ok [7, 8]), .retrieveAllAsString] = some (b, out) :=
    ⟨_, _, rfl⟩
  exact ⟨b, out, hrun, read_size_bounded 4 _ b out hrun (by decide)⟩

end Buffer

end Ymuduo
