/-
  Ymuduo/Buffer.lean
  ==================
  **`Buffer` (Buffer.h, Buffer.cc) and its refinement of a byte queue.**

      +-------------------+------------------+------------------+
      | prependable bytes |  readable bytes  |  writable bytes  |
      +-------------------+------------------+------------------+
      0      <=      readerIndex   <=   writerIndex    <=     size

  The operations are partial: `none` stands for a failed `assert`, for a read or
  write outside `buffer`, and for a `std::copy` onto its own source range.
  `size_t` is `Nat`, that is, sizes are small enough not to wrap.

  The abstract component is a list of bytes with appends at the back and removals
  at the front (`BufferOp.spec`).  `Buffer.exec_refines` is the step of the
  refinement, `Buffer.run_refines` the run, and `WfBuffer` packages a buffer with
  its invariant so that users of the buffer only ever see `contents`.
-/
import Ymuduo.Block
import Ymuduo.Kernel
import Ymuduo.Runs

namespace Ymuduo

open Block

/-- `static const size_t kCheapPrepend` -/
def kCheapPrepend : Nat := 8

/-- `static const size_t kInitialSize` -/
def kInitialSize : Nat := 1024

/-- `sizeof extrabuf` in `readFd` -/
def extrabufSize : Nat := 65536

structure Buffer where
  buffer : List Byte
  readerIndex : Nat
  writerIndex : Nat
deriving DecidableEq, Repr

namespace Buffer

/-! ### The operations -/

/-- `Buffer(size_t initialSize)` -/
def new (initialSize : Nat) : Buffer where
  buffer := List.replicate (kCheapPrepend + initialSize) 0
  readerIndex := kCheapPrepend
  writerIndex := kCheapPrepend

def readableBytes (b : Buffer) : Nat := b.writerIndex - b.readerIndex

def writableBytes (b : Buffer) : Nat := b.buffer.length - b.writerIndex

def prependableBytes (b : Buffer) : Nat := b.readerIndex

/-- The bytes `[peek(), beginWrite())`. -/
def contents (b : Buffer) : List Byte := slice b.buffer b.readerIndex b.writerIndex

def retrieveAll (b : Buffer) : Buffer :=
  { b with readerIndex := kCheapPrepend, writerIndex := kCheapPrepend }

def retrieve (b : Buffer) (len : Nat) : Buffer :=
  if len < b.readableBytes then { b with readerIndex := b.readerIndex + len }
  else b.retrieveAll

/-- `std::string result(peek(), len); retrieve(len);`  The constructor reads `len`
    bytes from `peek()` on, which must all lie in `buffer`. -/
def retrieveAsString (b : Buffer) (len : Nat) : Option (List Byte × Buffer) :=
  if b.readerIndex + len ≤ b.buffer.length then
    some (slice b.buffer b.readerIndex (b.readerIndex + len), b.retrieve len)
  else none

def retrieveAllAsString (b : Buffer) : Option (List Byte × Buffer) :=
  b.retrieveAsString b.readableBytes

def hasWritten (b : Buffer) (len : Nat) : Buffer :=
  { b with writerIndex := b.writerIndex + len }

/-- Grow `buffer`, or move the readable bytes to the front when the space before
    them is enough. -/
def makeSpace (b : Buffer) (len : Nat) : Option Buffer :=
  if b.writableBytes + b.prependableBytes < len + kCheapPrepend then
    some { b with buffer := resize b.buffer (b.writerIndex + len) 0 }
  else
    (move b.buffer b.readerIndex b.writerIndex kCheapPrepend).map fun moved =>
      { buffer := moved
        readerIndex := kCheapPrepend
        writerIndex := kCheapPrepend + b.readableBytes }

/-- `ensureWritableBytes`, with its closing `assert(writableBytes() >= len)`. -/
def ensureWritableBytes (b : Buffer) (len : Nat) : Option Buffer :=
  (if b.writableBytes < len then b.makeSpace len else some b).bind fun b' =>
    if len ≤ b'.writableBytes then some b' else none

def append (b : Buffer) (data : List Byte) : Option Buffer :=
  (b.ensureWritableBytes data.length).bind fun b' =>
    (store b'.buffer b'.writerIndex data).map fun stored =>
      { b' with buffer := stored }.hasWritten data.length

/-- The total length of the iovecs that `readFd` passes to `::readv`. -/
def iovTotal (b : Buffer) : Nat :=
  if b.writableBytes < extrabufSize then b.writableBytes + extrabufSize
  else b.writableBytes

/-- The buffer after `::readv` filled `vec[0]` with as much of `bytes` as fits and
    `readFd` moved `writerIndex` to the end of `buffer`. -/
def fillWritable (b : Buffer) (bytes : List Byte) : Option Buffer :=
  (store b.buffer b.writerIndex (bytes.take b.writableBytes)).map fun stored =>
    { b with buffer := stored, writerIndex := b.buffer.length }

/-- `readFd`: the returned `n` and the buffer.  The kernel has put the first
    `writableBytes()` bytes behind `writerIndex` and the rest into `extrabuf`. -/
def readFd (b : Buffer) : ReadvResult → Option (SysResult × Buffer)
  | .err savedErrno => some (.err savedErrno, b)
  | .ok bytes =>
    if bytes.length ≤ b.writableBytes then
      (store b.buffer b.writerIndex bytes).map fun stored =>
        (.ok bytes.length, { b with buffer := stored }.hasWritten bytes.length)
    else
      (b.fillWritable bytes).bind fun b' =>
        (b'.append (bytes.drop b.writableBytes)).map fun b'' => (.ok bytes.length, b'')

/-- `writeFd`: the returned `n` and the buffer.  The request is
    `::write(fd, peek(), readableBytes())`. -/
def writeFd (b : Buffer) : SysResult → SysResult × Buffer
  | .err savedErrno => (.err savedErrno, b)
  | .ok n => (.ok n, if n = 0 then b else b.retrieve n)

/-! ### The invariant -/

/-- `kCheapPrepend <= readerIndex <= writerIndex <= buffer.size()` -/
structure WF (b : Buffer) : Prop where
  prepend_le : kCheapPrepend ≤ b.readerIndex
  reader_le : b.readerIndex ≤ b.writerIndex
  writer_le : b.writerIndex ≤ b.buffer.length

theorem WF.length_contents {b : Buffer} (h : b.WF) :
    b.contents.length = b.readableBytes :=
  length_slice h.writer_le

theorem WF.new (initialSize : Nat) : (new initialSize).WF := by
  refine ⟨Nat.le_refl _, Nat.le_refl _, ?_⟩
  simp [Buffer.new]

@[simp] theorem contents_new (initialSize : Nat) : (new initialSize).contents = [] :=
  slice_self _ _

/-! ### One specification per operation -/

theorem WF.retrieveAll {b : Buffer} (h : b.WF) : b.retrieveAll.WF :=
  ⟨Nat.le_refl _, Nat.le_refl _,
    Nat.le_trans h.prepend_le (Nat.le_trans h.reader_le h.writer_le)⟩

@[simp] theorem contents_retrieveAll (b : Buffer) : b.retrieveAll.contents = [] :=
  slice_self _ _

theorem WF.retrieve {b : Buffer} (h : b.WF) (len : Nat) : (b.retrieve len).WF := by
  unfold Buffer.retrieve
  split
  · rename_i hlt
    have hle : b.readerIndex + len ≤ b.writerIndex := by
      simp only [readableBytes] at hlt; omega
    exact ⟨Nat.le_trans h.prepend_le (Nat.le_add_right _ _), hle, h.writer_le⟩
  · exact h.retrieveAll

/-- `retrieve` clamps: it removes `len` bytes at the front, or all there are. -/
theorem WF.contents_retrieve {b : Buffer} (h : b.WF) (len : Nat) :
    (b.retrieve len).contents = b.contents.drop len := by
  unfold Buffer.retrieve
  split
  · exact (drop_slice _ _ _ _).symm
  · rename_i hge
    rw [contents_retrieveAll, List.drop_eq_nil_of_le]
    rw [h.length_contents]
    omega

theorem WF.retrieveAsString {b : Buffer} (h : b.WF) {len : Nat}
    (hlen : len ≤ b.readableBytes) :
    b.retrieveAsString len = some (b.contents.take len, b.retrieve len) := by
  have hwriter : b.readerIndex + len ≤ b.writerIndex := by
    have := h.reader_le
    simp only [readableBytes] at hlen
    omega
  unfold Buffer.retrieveAsString
  rw [if_pos (Nat.le_trans hwriter h.writer_le), contents, take_slice hwriter]

/-- The in-place move of `makeSpace(len)` is what `ensureWritableBytes(len)` runs. -/
def Moves (b : Buffer) (len : Nat) : Prop :=
  b.writableBytes < len ∧ ¬ b.writableBytes + b.prependableBytes < len + kCheapPrepend

instance (b : Buffer) (len : Nat) : Decidable (b.Moves len) :=
  inferInstanceAs (Decidable (_ ∧ _))

/-- The tests of `ensureWritableBytes` and `makeSpace` come to `Moves`. -/
theorem ensureWritableBytes_eq (b : Buffer) (len : Nat) :
    b.ensureWritableBytes len = (if b.Moves len then
        (move b.buffer b.readerIndex b.writerIndex kCheapPrepend).map fun moved =>
          ⟨moved, kCheapPrepend, kCheapPrepend + b.readableBytes⟩
      else if b.writableBytes < len then
        some { b with buffer := resize b.buffer (b.writerIndex + len) 0 }
      else some b).bind fun b' => if len ≤ b'.writableBytes then some b' else none := by
  unfold ensureWritableBytes makeSpace Moves
  by_cases hshort : b.writableBytes < len
  · by_cases hspace : b.writableBytes + b.prependableBytes < len + kCheapPrepend
    · simp only [hshort, hspace, if_true, not_true, and_false, if_false]
    · simp only [hshort, hspace, if_true, not_false_eq_true, and_self, if_false]
  · simp only [hshort, if_false, false_and]

/-- A move is only chosen when bytes before `readerIndex` can be gained, so its
    destination lies before its source. -/
theorem Moves.prepend_lt {b : Buffer} {len : Nat} (h : b.Moves len) :
    kCheapPrepend < b.readerIndex := by
  obtain ⟨hshort, hspace⟩ := h
  simp only [prependableBytes] at hspace
  omega

theorem WF.makeSpace_resize {b : Buffer} (h : b.WF) {len : Nat}
    (hshort : b.writableBytes < len)
    (hspace : b.writableBytes + b.prependableBytes < len + kCheapPrepend) :
    ∃ b', b.makeSpace len = some b' ∧ b'.WF ∧ b'.contents = b.contents
      ∧ len ≤ b'.writableBytes := by
  have hgrow : b.buffer.length ≤ b.writerIndex + len := by
    simp only [writableBytes] at hshort; omega
  have hlength := length_resize (0 : Byte) hgrow
  refine ⟨_, if_pos hspace, ⟨h.prepend_le, h.reader_le, ?_⟩, ?_, ?_⟩
  · rw [hlength]; exact Nat.le_add_right _ _
  · exact slice_resize _ h.writer_le hgrow
  · simp only [writableBytes, hlength]; omega

theorem WF.makeSpace_move {b : Buffer} (h : b.WF) {len : Nat} (hmoves : b.Moves len) :
    ∃ b', b.makeSpace len = some b' ∧ b'.WF ∧ b'.contents = b.contents
      ∧ len ≤ b'.writableBytes := by
  have hfront : kCheapPrepend < b.readerIndex := hmoves.prepend_lt
  obtain ⟨hshort, hspace⟩ := hmoves
  have hreader := h.reader_le
  have hwriter := h.writer_le
  have hlen : (slice b.buffer b.readerIndex b.writerIndex).length = b.readableBytes :=
    h.length_contents
  have hfit : kCheapPrepend + (slice b.buffer b.readerIndex b.writerIndex).length
      ≤ b.buffer.length := by
    rw [hlen, readableBytes]; omega
  obtain ⟨moved, hstore⟩ : ∃ moved, store b.buffer kCheapPrepend
      (slice b.buffer b.readerIndex b.writerIndex) = some moved := ⟨_, store_eq_some hfit⟩
  have hmove : move b.buffer b.readerIndex b.writerIndex kCheapPrepend = some moved :=
    (move_eq_store hfront).trans hstore
  have hcontents := slice_store (Nat.le_refl _) hstore
  have hlength := length_store hstore
  rw [slice_self, List.nil_append, hlen] at hcontents
  refine ⟨⟨moved, kCheapPrepend, kCheapPrepend + b.readableBytes⟩, ?_,
    ⟨Nat.le_refl _, Nat.le_add_right _ _, ?_⟩, hcontents, ?_⟩
  · rw [makeSpace, if_neg hspace, hmove, Option.map_some]
  · show kCheapPrepend + b.readableBytes ≤ moved.length
    rw [hlength, readableBytes]
    omega
  · simp only [writableBytes, prependableBytes] at hspace
    simp only [writableBytes, hlength, readableBytes]
    omega

/-- `ensureWritableBytes` never fails its `assert`, keeps the readable bytes and
    leaves room for `len` more. -/
theorem WF.ensureWritableBytes {b : Buffer} (h : b.WF) (len : Nat) :
    ∃ b', b.ensureWritableBytes len = some b' ∧ b'.WF ∧ b'.contents = b.contents
      ∧ len ≤ b'.writableBytes := by
  unfold Buffer.ensureWritableBytes
  by_cases hshort : b.writableBytes < len
  · have hspace : ∃ b', b.makeSpace len = some b' ∧ b'.WF ∧ b'.contents = b.contents
        ∧ len ≤ b'.writableBytes := by
      by_cases hresize : b.writableBytes + b.prependableBytes < len + kCheapPrepend
      · exact h.makeSpace_resize hshort hresize
      · exact h.makeSpace_move ⟨hshort, hresize⟩
    obtain ⟨b', hb', hwf, hcontents, hroom⟩ := hspace
    exact ⟨b', by simp [hshort, hb', hroom], hwf, hcontents, hroom⟩
  · have hroom : len ≤ b.writableBytes := by omega
    exact ⟨b, by simp [hshort, hroom], h, rfl, hroom⟩

/-- Bytes stored at `writerIndex` and accounted for become readable. -/
theorem WF.hasWritten_store {b : Buffer} (h : b.WF) {data : List Byte}
    (hroom : data.length ≤ b.writableBytes) :
    ∃ stored, store b.buffer b.writerIndex data = some stored
      ∧ ({ b with buffer := stored }.hasWritten data.length).WF
      ∧ ({ b with buffer := stored }.hasWritten data.length).contents
          = b.contents ++ data := by
  have hwriter := h.writer_le
  have hfit : b.writerIndex + data.length ≤ b.buffer.length := by
    simp only [writableBytes] at hroom; omega
  have hstore := store_eq_some hfit
  refine ⟨_, hstore, ⟨h.prepend_le, Nat.le_trans h.reader_le (Nat.le_add_right _ _), ?_⟩, ?_⟩
  · rw [← length_store hstore] at hfit
    exact hfit
  · exact slice_store h.reader_le hstore

theorem WF.append {b : Buffer} (h : b.WF) (data : List Byte) :
    ∃ b', b.append data = some b' ∧ b'.WF ∧ b'.contents = b.contents ++ data := by
  obtain ⟨b₁, hb₁, hwf₁, hcontents₁, hroom⟩ := h.ensureWritableBytes data.length
  obtain ⟨stored, hstored, hwf, hcontents⟩ := hwf₁.hasWritten_store hroom
  refine ⟨_, ?_, hwf, by rw [hcontents, hcontents₁]⟩
  rw [Buffer.append, hb₁, Option.bind_some, hstored, Option.map_some]

theorem WF.fillWritable {b : Buffer} (h : b.WF) {bytes : List Byte}
    (hspill : b.writableBytes < bytes.length) :
    ∃ b', b.fillWritable bytes = some b' ∧ b'.WF
      ∧ b'.contents = b.contents ++ bytes.take b.writableBytes := by
  have hwriter := h.writer_le
  have hlen : (bytes.take b.writableBytes).length = b.writableBytes := by
    rw [List.length_take]; omega
  obtain ⟨stored, hstored, hwf, hcontents⟩ := h.hasWritten_store (Nat.le_of_eq hlen)
  have hend : b.writerIndex + (bytes.take b.writableBytes).length = b.buffer.length := by
    rw [hlen, writableBytes]; omega
  refine ⟨_, ?_, hwf, hcontents⟩
  rw [Buffer.fillWritable, hstored, Option.map_some, hasWritten, hend]

/-- `readFd` pushes exactly the bytes that were read, in order, whether or not
    they spilled into `extrabuf`. -/
theorem WF.readFd_ok {b : Buffer} (h : b.WF) (bytes : List Byte) :
    ∃ b', b.readFd (.ok bytes) = some (.ok bytes.length, b') ∧ b'.WF
      ∧ b'.contents = b.contents ++ bytes := by
  by_cases hfit : bytes.length ≤ b.writableBytes
  · obtain ⟨stored, hstored, hwf, hcontents⟩ := h.hasWritten_store hfit
    refine ⟨_, ?_, hwf, hcontents⟩
    rw [Buffer.readFd, if_pos hfit, hstored, Option.map_some]
  · obtain ⟨b₁, hb₁, hwf₁, hcontents₁⟩ := h.fillWritable (Nat.lt_of_not_le hfit)
    obtain ⟨b₂, hb₂, hwf₂, hcontents₂⟩ := hwf₁.append (bytes.drop b.writableBytes)
    refine ⟨b₂, ?_, hwf₂, ?_⟩
    · rw [Buffer.readFd, if_neg hfit, hb₁, Option.bind_some, hb₂, Option.map_some]
    · rw [hcontents₂, hcontents₁, List.append_assoc, List.take_append_drop]

theorem WF.writeFd {b : Buffer} (h : b.WF) (n : Nat) :
    (b.writeFd (.ok n)).2.WF ∧ (b.writeFd (.ok n)).2.contents = b.contents.drop n := by
  by_cases hn : n = 0
  · subst hn
    exact ⟨h, rfl⟩
  · simp only [Buffer.writeFd, if_neg hn]
    exact ⟨h.retrieve n, h.contents_retrieve n⟩

end Buffer

/-! ### The abstract byte queue -/

/-- An operation on a buffer, with what its system call returned. -/
inductive BufferOp where
  | append (data : List Byte)
  | ensureWritableBytes (len : Nat)
  | retrieve (len : Nat)
  | retrieveAll
  | retrieveAllAsString
  | retrieveAsString (len : Nat)
  | readFd (res : ReadvResult)
  | writeFd (res : SysResult)
deriving DecidableEq, Repr

namespace BufferOp

/-- What the operation does to a byte queue, and the bytes it hands out. -/
def spec (q : List Byte) : BufferOp → List Byte × List Byte
  | append data => (q ++ data, [])
  | ensureWritableBytes _ => (q, [])
  | retrieve len => (q.drop len, [])
  | retrieveAll => ([], [])
  | retrieveAllAsString => ([], q)
  | retrieveAsString len => (q.drop len, q.take len)
  | readFd (.ok bytes) => (q ++ bytes, [])
  | readFd (.err _) => (q, [])
  | writeFd (.ok n) => (q.drop n, q.take n)
  | writeFd (.err _) => (q, [])

/-- The operations a caller and the kernel may perform on the buffer: a string is
    cut out of the readable bytes only, `::readv` delivers at most what the iovecs
    hold, `::write` takes at most what it was given. -/
def Admissible (b : Buffer) : BufferOp → Prop
  | retrieveAsString len => len ≤ b.readableBytes
  | readFd (.ok bytes) => bytes.length ≤ b.iovTotal
  | writeFd res => res.Possible b.readableBytes
  | _ => True

instance (b : Buffer) : (op : BufferOp) → Decidable (op.Admissible b)
  | retrieveAsString len => inferInstanceAs (Decidable (len ≤ b.readableBytes))
  | readFd (.ok bytes) => inferInstanceAs (Decidable (bytes.length ≤ b.iovTotal))
  | writeFd res => inferInstanceAs (Decidable (res.Possible b.readableBytes))
  | readFd (.err _) | append _ | ensureWritableBytes _ | retrieve _ | retrieveAll
  | retrieveAllAsString => inferInstanceAs (Decidable True)

/-- The calls of `ensureWritableBytes` that the operation makes: the buffer each is
    made on and its argument. -/
def ensureCalls (b : Buffer) : BufferOp → List (Buffer × Nat)
  | append data => [(b, data.length)]
  | ensureWritableBytes len => [(b, len)]
  | readFd (.ok bytes) =>
    if bytes.length ≤ b.writableBytes then []
    else (b.fillWritable bytes).toList.map fun b' => (b', (bytes.drop b.writableBytes).length)
  | _ => []

end BufferOp

namespace Buffer

/-- Run an operation: the buffer it leaves and the bytes it hands out, to the
    caller (`retrieveAsString`) or to the kernel (`writeFd`).  `none` also if `readFd`
    does not return what `::readv` returned. -/
def exec (b : Buffer) : BufferOp → Option (Buffer × List Byte)
  | .append data => (b.append data).map fun b' => (b', [])
  | .ensureWritableBytes len => (b.ensureWritableBytes len).map fun b' => (b', [])
  | .retrieve len => some (b.retrieve len, [])
  | .retrieveAll => some (b.retrieveAll, [])
  | .retrieveAllAsString => b.retrieveAllAsString.map fun r => (r.2, r.1)
  | .retrieveAsString len => (b.retrieveAsString len).map fun r => (r.2, r.1)
  | .readFd res =>
    (b.readFd res).bind fun r => if r.1 = res.returned then some (r.2, []) else none
  | .writeFd (.ok n) => some ((b.writeFd (.ok n)).2, b.contents.take n)
  | .writeFd (.err e) => some ((b.writeFd (.err e)).2, [])

theorem exec_readFd {b b' : Buffer} {res : ReadvResult} {out : List Byte}
    (hb : b.exec (.readFd res) = some (b', out)) :
    b.readFd res = some (res.returned, b') ∧ out = [] := by
  obtain ⟨⟨n, c⟩, hc, hchecked⟩ := Option.bind_eq_some_iff.mp hb
  obtain ⟨hreturned, heq⟩ := Option.ite_none_right_eq_some.mp hchecked
  cases heq
  dsimp only at hreturned
  exact ⟨hreturned ▸ hc, rfl⟩

/-- **Every admissible operation refines the byte queue**: it does not fail, keeps
    the invariant, and does to `contents` what `spec` does. -/
theorem exec_refines {b : Buffer} (h : b.WF) {op : BufferOp} (hop : op.Admissible b) :
    ∃ b', b.exec op = some (b', (op.spec b.contents).2) ∧ b'.WF
      ∧ b'.contents = (op.spec b.contents).1 := by
  cases op with
  | append data =>
    obtain ⟨b', hb', hwf, hcontents⟩ := h.append data
    exact ⟨b', by simp [exec, hb', BufferOp.spec], hwf, hcontents⟩
  | ensureWritableBytes len =>
    obtain ⟨b', hb', hwf, hcontents, _⟩ := h.ensureWritableBytes len
    exact ⟨b', by simp [exec, hb', BufferOp.spec], hwf, hcontents⟩
  | retrieve len => exact ⟨_, rfl, h.retrieve len, h.contents_retrieve len⟩
  | retrieveAll => exact ⟨_, rfl, h.retrieveAll, contents_retrieveAll b⟩
  | retrieveAllAsString =>
    have hall := h.retrieveAsString (Nat.le_refl b.readableBytes)
    have htake : b.contents.take b.readableBytes = b.contents :=
      List.take_of_length_le (Nat.le_of_eq h.length_contents)
    refine ⟨_, ?_, h.retrieve b.readableBytes, ?_⟩
    · rw [exec, retrieveAllAsString, hall, Option.map_some, htake]
      rfl
    · rw [h.contents_retrieve, ← h.length_contents, List.drop_length]
      rfl
  | retrieveAsString len =>
    refine ⟨_, ?_, h.retrieve len, h.contents_retrieve len⟩
    rw [exec, h.retrieveAsString hop, Option.map_some]
    rfl
  | readFd res =>
    cases res with
    | ok bytes =>
      obtain ⟨b', hb', hwf, hcontents⟩ := h.readFd_ok bytes
      exact ⟨b', by simp [exec, hb', BufferOp.spec, ReadvResult.returned], hwf, hcontents⟩
    | err e => exact ⟨b, if_pos rfl, h, rfl⟩
  | writeFd res =>
    cases res with
    | ok n => exact ⟨_, rfl, (h.writeFd n).1, (h.writeFd n).2⟩
    | err e => exact ⟨b, rfl, h, rfl⟩

/-- A buffer together with everything it has handed out. -/
def step (s : Buffer × List Byte) (op : BufferOp) : Option (Buffer × List Byte) :=
  (s.1.exec op).map fun r => (r.1, s.2 ++ r.2)

/-- The byte queue with everything it has handed out. -/
def specStep (s : List Byte × List Byte) (op : BufferOp) : List Byte × List Byte :=
  ((op.spec s.1).1, s.2 ++ (op.spec s.1).2)

/-- The operation is admissible in the state, and each of its moves starts with
    `readerIndex` beyond `kCheapPrepend`. -/
def Safe (s : Buffer × List Byte) (op : BufferOp) : Prop :=
  ∀ call ∈ op.ensureCalls s.1, call.1.Moves call.2 → kCheapPrepend < call.1.readerIndex

/-- **`Buffer` refines a byte queue.**  Every run of admissible operations on a new
    buffer goes through (no assert fails, nothing is read or written outside, no
    copy overlaps), ends in a well-formed buffer, and has moved exactly the bytes
    the abstract queue moves. -/
theorem run_refines (initialSize : Nat) (ops : List BufferOp)
    (hops : Runs.Along step (fun s op => op.Admissible s.1) (new initialSize, []) ops) :
    ∃ b out, Runs.run step (new initialSize, []) ops = some (b, out) ∧ b.WF
      ∧ (b.contents, out) = ops.foldl specStep ([], [])
      ∧ Runs.Along step Safe (new initialSize, []) ops := by
  have hrun : ∀ (ops : List BufferOp) (b : Buffer) (out : List Byte), b.WF →
      Runs.Along step (fun s op => op.Admissible s.1) (b, out) ops →
      ∃ b' out', Runs.run step (b, out) ops = some (b', out') ∧ b'.WF
        ∧ (b'.contents, out') = ops.foldl specStep (b.contents, out)
        ∧ Runs.Along step Safe (b, out) ops := by
    intro ops
    induction ops with
    | nil => intro b out hwf _; exact ⟨b, out, rfl, hwf, rfl, trivial⟩
    | cons op ops ih =>
      intro b out hwf hops
      obtain ⟨b₁, hb₁, hwf₁, hcontents₁⟩ := exec_refines hwf hops.1
      have hstep : step (b, out) op = some (b₁, out ++ (op.spec b.contents).2) := by
        rw [step, hb₁, Option.map_some]
      obtain ⟨b', out', hrun, hwf', hcontents', hsafe⟩ := ih b₁ _ hwf₁ (hops.2 _ hstep)
      refine ⟨b', out', ?_, hwf', ?_, ?_, ?_⟩
      · rw [Runs.run_cons, hstep, Option.bind_some, hrun]
      · rw [hcontents', List.foldl_cons, specStep, hcontents₁]
      · intro call _ hmoves
        exact hmoves.prepend_lt
      · intro t ht
        rw [hstep] at ht
        cases ht
        exact hsafe
  have hnew := hrun ops (new initialSize) [] (WF.new initialSize) hops
  rw [contents_new] at hnew
  exact hnew

/-- A run that grows the buffer, moves its contents to the front and writes part of
    them out. -/
theorem run_refines_grow_move_write :
    ∃ b out, Runs.run step (new 3, [])
        [.append [1, 2, 3, 4, 5], .retrieveAsString 4, .append [6, 7, 8], .writeFd (.ok 2)]
          = some (b, out) ∧ b.WF
      ∧ (b.contents, out) = ([7, 8], [1, 2, 3, 4, 5, 6])
      ∧ Runs.Along step Safe (new 3, [])
        [.append [1, 2, 3, 4, 5], .retrieveAsString 4, .append [6, 7, 8], .writeFd (.ok 2)] :=
  run_refines 3
    [.append [1, 2, 3, 4, 5], .retrieveAsString 4, .append [6, 7, 8], .writeFd (.ok 2)]
    (by decide)

end Buffer

/-! ### A buffer with its invariant -/

def WfBuffer : Type := { b : Buffer // b.WF }

namespace WfBuffer

def contents (b : WfBuffer) : List Byte := b.val.contents

def readableBytes (b : WfBuffer) : Nat := b.val.readableBytes

def new (initialSize : Nat) : WfBuffer := ⟨.new initialSize, .new initialSize⟩

/-- The result of an operation that is known not to fail. -/
def ofSome {x : Option Buffer} (h : ∃ b, x = some b ∧ b.WF) : WfBuffer :=
  ⟨x.get (by obtain ⟨b, hb, _⟩ := h; simp [hb]),
    by obtain ⟨b, hb, hwf⟩ := h; simpa [hb] using hwf⟩

theorem eq_some_ofSome {x : Option Buffer} (h : ∃ b, x = some b ∧ b.WF) :
    x = some (ofSome h).val := by
  simp [ofSome]

def append (b : WfBuffer) (data : List Byte) : WfBuffer :=
  ofSome (x := b.val.append data)
    (by obtain ⟨b', hb', hwf, _⟩ := b.property.append data; exact ⟨b', hb', hwf⟩)

def retrieve (b : WfBuffer) (len : Nat) : WfBuffer :=
  ⟨b.val.retrieve len, b.property.retrieve len⟩

def readFd (b : WfBuffer) : ReadvResult → SysResult × WfBuffer
  | .err savedErrno => (.err savedErrno, b)
  | .ok bytes => (.ok bytes.length, ofSome (x := (b.val.readFd (.ok bytes)).map Prod.snd)
      (by obtain ⟨b', hb', hwf, _⟩ := b.property.readFd_ok bytes
          exact ⟨b', by rw [hb', Option.map_some], hwf⟩))

def writeFd (b : WfBuffer) : SysResult → SysResult × WfBuffer
  | .err savedErrno => (.err savedErrno, b)
  | .ok n => (.ok n, ⟨(b.val.writeFd (.ok n)).2, (b.property.writeFd n).1⟩)

/-! The operations are those of `Buffer`, which never fail here. -/

theorem append_val (b : WfBuffer) (data : List Byte) :
    b.val.append data = some (b.append data).val :=
  eq_some_ofSome _

theorem readFd_val (b : WfBuffer) (res : ReadvResult) :
    b.val.readFd res = some ((b.readFd res).1, (b.readFd res).2.val) := by
  cases res with
  | err e => rfl
  | ok bytes =>
    obtain ⟨b', hb', _⟩ := b.property.readFd_ok bytes
    simp [readFd, ofSome, hb']

theorem length_contents (b : WfBuffer) : b.contents.length = b.readableBytes :=
  b.property.length_contents

@[simp] theorem contents_new (initialSize : Nat) : (new initialSize).contents = [] :=
  Buffer.contents_new initialSize

@[simp] theorem contents_append (b : WfBuffer) (data : List Byte) :
    (b.append data).contents = b.contents ++ data := by
  obtain ⟨b', hb', _, hcontents⟩ := b.property.append data
  have hval : b' = (b.append data).val := Option.some.inj (hb'.symm.trans (b.append_val data))
  rw [contents, ← hval]
  exact hcontents

@[simp] theorem contents_retrieve (b : WfBuffer) (len : Nat) :
    (b.retrieve len).contents = b.contents.drop len :=
  b.property.contents_retrieve len

@[simp] theorem contents_writeFd_ok (b : WfBuffer) (n : Nat) :
    (b.writeFd (.ok n)).2.contents = b.contents.drop n :=
  (b.property.writeFd n).2

@[simp] theorem contents_writeFd_err (b : WfBuffer) (e : Errno) :
    (b.writeFd (.err e)).2.contents = b.contents := rfl

@[simp] theorem contents_readFd_ok (b : WfBuffer) (bytes : List Byte) :
    (b.readFd (.ok bytes)).2.contents = b.contents ++ bytes := by
  obtain ⟨b', hb', _, hcontents⟩ := b.property.readFd_ok bytes
  have hval : b' = (b.readFd (.ok bytes)).2.val :=
    (Prod.mk.inj (Option.some.inj (hb'.symm.trans (b.readFd_val (.ok bytes))))).2
  rw [contents, ← hval]
  exact hcontents

theorem readableBytes_eq_zero (b : WfBuffer) : b.readableBytes = 0 ↔ b.contents = [] := by
  rw [← b.length_contents, List.length_eq_zero_iff]

end WfBuffer

end Ymuduo
