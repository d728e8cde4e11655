/-
  Ymuduo/BufferHistory.lean
  =========================
  **What a history of a buffer leaves, with the arithmetic of `size_t`.**

  A history is a run of the operations of `Buffer` with any `len` and allocations that
  may fail.  `Bounded` is what every history leaves of the invariant of the class, one in
  which a size wraps around included; where nothing wraps the invariant is kept (`Sound`).

  After any history `ensureWritableBytes(len)` is correct exactly where `writerIndex_` is
  not beyond `buffer_` and `writerIndex_ + len` does not wrap
  (`ensureWritableBytes_correct_iff`).
-/
import Ymuduo.BufferWrap
import Ymuduo.Runs

namespace Ymuduo

open Block

/-- The buffer that the function leaves, where the process goes on. -/
def SpaceResult.left : SpaceResult → Option Buffer
  | .returned b | .threw _ b => some b
  | .assertFailed | .undefined => none

/-- Go on where the function has returned. -/
def SpaceResult.andThen (f : Buffer → SpaceResult) : SpaceResult → SpaceResult
  | .returned b => f b
  | r => r

theorem SpaceResult.left_andThen {f : Buffer → SpaceResult} {r : SpaceResult} {b : Buffer}
    (h : (r.andThen f).left = some b) :
    ∃ c, r.left = some c ∧ (c = b ∨ (f c).left = some b) := by
  cases r with
  | returned c => exact ⟨c, rfl, Or.inr h⟩
  | threw e c =>
    cases h
    exact ⟨b, rfl, Or.inl rfl⟩
  | assertFailed | undefined => cases h

/-- How `retrieveAsString` ends.  `outside`: `[peek(), peek() + len)` is not in `buffer_`;
    for `len` 0 no byte is read then, but `peek()` itself is not defined. -/
inductive StringResult where
  | returned (result : List Byte) (b : Buffer)
  | threw (b : Buffer)
  | outside
deriving DecidableEq, Repr

def StringResult.left : StringResult → Option Buffer
  | .returned _ b | .threw b => some b
  | .outside => none

/-- An operation on a buffer, and whether it gets the memory that it asks for. -/
structure BufferAct where
  op : BufferOp
  allocated : Bool
deriving DecidableEq, Repr

namespace Buffer64

/-! ### The operations -/

/-- `Buffer(size_t initialSize)`; `none` where the constructor of `buffer_` throws. -/
def new (initialSize : Nat) : Option Buffer :=
  if SizeT.add kCheapPrepend initialSize ≤ vectorMaxSize then
    some
      { buffer := List.replicate (SizeT.add kCheapPrepend initialSize) 0
        readerIndex := kCheapPrepend
        writerIndex := kCheapPrepend }
  else none

def retrieve (b : Buffer) (len : Nat) : Buffer :=
  if len < readableBytes b then { b with readerIndex := SizeT.add b.readerIndex len }
  else b.retrieveAll

/-- `std::string result(peek(), len); retrieve(len);`  The constructor throws where it
    cannot make a string of `len` bytes. -/
def retrieveAsString (b : Buffer) (allocated : Bool) (len : Nat) : StringResult :=
  if allocated then
    if b.readerIndex + len ≤ b.buffer.length then
      .returned (slice b.buffer b.readerIndex (b.readerIndex + len)) (retrieve b len)
    else .outside
  else .threw b

def hasWritten (b : Buffer) (len : Nat) : Buffer :=
  { b with writerIndex := SizeT.add b.writerIndex len }

/-- `std::copy(data, data+len, beginWrite()); hasWritten(len);` -/
def copyIn (b : Buffer) (data : List Byte) : SpaceResult :=
  match store b.buffer b.writerIndex data with
  | some stored => .returned (hasWritten { b with buffer := stored } data.length)
  | none => .undefined

def append (b : Buffer) (allocated : Bool) (data : List Byte) : SpaceResult :=
  (ensureWritableBytes b allocated data.length).andThen fun b' => copyIn b' data

/-- The buffer after `::readv` has filled `vec[0]`, which makes `stored` of `buffer_`. -/
def filled (b : Buffer) (stored : List Byte) : Buffer :=
  { b with buffer := stored, writerIndex := b.buffer.length }

/-- `readFd`: `vec[0]` takes what fits, and `extrabuf` the rest. -/
def readFd (b : Buffer) (allocated : Bool) : ReadvResult → SpaceResult
  | .err _ => .returned b
  | .ok bytes =>
    if bytes.length ≤ writableBytes b then copyIn b bytes
    else
      match store b.buffer b.writerIndex (bytes.take (writableBytes b)) with
      | some stored => append (filled b stored) allocated (bytes.drop (writableBytes b))
      | none => .undefined

def writeFd (b : Buffer) : SysResult → Buffer
  | .err _ => b
  | .ok n => if n = 0 then b else retrieve b n

def step (b : Buffer) (a : BufferAct) : Option Buffer :=
  match a.op with
  | .append data => (append b a.allocated data).left
  | .ensureWritableBytes len => (ensureWritableBytes b a.allocated len).left
  | .retrieve len => some (retrieve b len)
  | .retrieveAll => some b.retrieveAll
  | .retrieveAllAsString => (retrieveAsString b a.allocated (readableBytes b)).left
  | .retrieveAsString len => (retrieveAsString b a.allocated len).left
  | .readFd res => (readFd b a.allocated res).left
  | .writeFd res => some (writeFd b res)

/-! ### Invariants -/

/-- The writable bytes that an operation asks for. -/
def room : BufferOp → Nat
  | .append data => data.length
  | .ensureWritableBytes len => len
  | .readFd (.ok bytes) => bytes.length
  | _ => 0

/-- What the elementary operations keep, where `C` holds of the buffer and of the room
    that is asked for. -/
structure Kept (I : Buffer → Prop) (C : Buffer → Nat → Prop) : Prop where
  retrieve : ∀ {b : Buffer} (len : Nat), I b → I (retrieve b len)
  retrieveAll : ∀ {b : Buffer}, I b → I b.retrieveAll
  ensureWritableBytes : ∀ {b b' : Buffer} {allocated : Bool} {len : Nat}, I b → C b len →
    (ensureWritableBytes b allocated len).left = some b' → I b'
  copyIn : ∀ {b b' : Buffer} {data : List Byte}, I b → (copyIn b data).left = some b' → I b'
  filled : ∀ {b : Buffer} {bytes stored : List Byte}, I b → C b bytes.length →
    writableBytes b < bytes.length →
    store b.buffer b.writerIndex (bytes.take (writableBytes b)) = some stored →
    I (filled b stored) ∧ C (filled b stored) (bytes.drop (writableBytes b)).length

section Kept

variable {I : Buffer → Prop} {C : Buffer → Nat → Prop} {b b' : Buffer} {allocated : Bool}

theorem Kept.retrieveAsString (hkept : Kept I C) (h : I b) {len : Nat}
    (hleft : (retrieveAsString b allocated len).left = some b') : I b' := by
  unfold Buffer64.retrieveAsString at hleft
  split at hleft
  · split at hleft
    · cases hleft
      exact hkept.retrieve len h
    · cases hleft
  · cases hleft
    exact h

theorem Kept.append (hkept : Kept I C) (h : I b) {data : List Byte} (hC : C b data.length)
    (hleft : (append b allocated data).left = some b') : I b' := by
  obtain ⟨c, hspace, hdone⟩ := SpaceResult.left_andThen hleft
  have hc : I c := hkept.ensureWritableBytes h hC hspace
  rcases hdone with rfl | hcopied
  · exact hc
  · exact hkept.copyIn hc hcopied

theorem Kept.readFd (hkept : Kept I C) (h : I b) {res : ReadvResult}
    (hC : C b (room (.readFd res))) (hleft : (readFd b allocated res).left = some b') : I b' := by
  cases res with
  | err e =>
    cases hleft
    exact h
  | ok bytes =>
    simp only [Buffer64.readFd] at hleft
    split at hleft
    · exact hkept.copyIn h hleft
    · rename_i hspill
      split at hleft
      · rename_i stored hstore
        obtain ⟨hfilled, hrest⟩ := hkept.filled h hC (Nat.lt_of_not_le hspill) hstore
        exact hkept.append hfilled hrest hleft
      · cases hleft

/-- **What the elementary operations keep, every operation keeps.** -/
theorem Kept.step (hkept : Kept I C) (h : I b) {a : BufferAct} (hC : C b (room a.op))
    (hstep : step b a = some b') : I b' := by
  obtain ⟨op, allocated⟩ := a
  cases op with
  | append data => exact hkept.append h hC hstep
  | ensureWritableBytes len => exact hkept.ensureWritableBytes h hC hstep
  | retrieve len =>
    cases hstep
    exact hkept.retrieve len h
  | retrieveAll =>
    cases hstep
    exact hkept.retrieveAll h
  | retrieveAllAsString => exact hkept.retrieveAsString h hstep
  | retrieveAsString len => exact hkept.retrieveAsString h hstep
  | readFd res => exact hkept.readFd h hC hstep
  | writeFd res =>
    cases hstep
    cases res with
    | err e => exact h
    | ok n =>
      simp only [Buffer64.writeFd]
      split
      · exact h
      · exact hkept.retrieve n h

end Kept

/-! ### What every history keeps -/

/-- The indices are in order, and no sum of them wraps.  `writerIndex_` may be beyond
    `buffer_`, which `ensureWritableBytes` can have cut. -/
structure Bounded (b : Buffer) : Prop where
  prepend_le : kCheapPrepend ≤ b.readerIndex
  reader_le : b.readerIndex ≤ b.writerIndex
  writer_max : b.writerIndex ≤ vectorMaxSize
  size_max : b.buffer.length ≤ vectorMaxSize

variable {b b' : Buffer} {allocated : Bool} {len : Nat}

theorem vectorMaxSize_lt : vectorMaxSize < sizeTBound := by decide

theorem kCheapPrepend_le_vectorMaxSize : kCheapPrepend ≤ vectorMaxSize := by decide

theorem Bounded.readableBytes_eq (h : Bounded b) :
    readableBytes b = b.writerIndex - b.readerIndex :=
  SizeT.sub_of_le (Nat.lt_of_le_of_lt h.writer_max vectorMaxSize_lt) h.reader_le

theorem Bounded.new {initialSize : Nat} (hnew : new initialSize = some b) : Bounded b := by
  simp only [Buffer64.new, Option.ite_none_right_eq_some, Option.some.injEq] at hnew
  obtain ⟨hmax, rfl⟩ := hnew
  refine ⟨Nat.le_refl _, Nat.le_refl _, kCheapPrepend_le_vectorMaxSize, ?_⟩
  rw [List.length_replicate]
  exact hmax

theorem Bounded.retrieveAll (h : Bounded b) : Bounded b.retrieveAll :=
  ⟨Nat.le_refl _, Nat.le_refl _, kCheapPrepend_le_vectorMaxSize, h.size_max⟩

theorem Bounded.retrieve_lt (h : Bounded b) (hlen : len < readableBytes b) :
    retrieve b len = { b with readerIndex := b.readerIndex + len }
      ∧ b.readerIndex + len < b.writerIndex := by
  have hsum : b.readerIndex + len < b.writerIndex := by
    rw [h.readableBytes_eq] at hlen
    omega
  have hwrap : SizeT.add b.readerIndex len = b.readerIndex + len := by
    apply SizeT.add_of_lt
    exact Nat.lt_trans (Nat.lt_of_lt_of_le hsum h.writer_max) vectorMaxSize_lt
  rw [retrieve, if_pos hlen, hwrap]
  exact ⟨rfl, hsum⟩

theorem Bounded.retrieve (h : Bounded b) (len : Nat) : Bounded (retrieve b len) := by
  by_cases hlen : len < readableBytes b
  · obtain ⟨heq, hsum⟩ := h.retrieve_lt hlen
    rw [heq]
    exact ⟨Nat.le_trans h.prepend_le (Nat.le_add_right _ _), Nat.le_of_lt hsum, h.writer_max,
      h.size_max⟩
  · rw [Buffer64.retrieve, if_neg hlen]
    exact h.retrieveAll

theorem Bounded.resizeBuffer (h : Bounded b) {n : Nat}
    (hleft : (resizeBuffer b allocated n).left = some b') : Bounded b' := by
  unfold Buffer64.resizeBuffer at hleft
  split at hleft
  · rename_i hle
    cases hleft
    refine { h with size_max := ?_ }
    rw [length_resize_of_ge 0 hle]
    exact Nat.le_trans hle h.size_max
  · rename_i hgrow
    split at hleft
    · cases hleft
      exact h
    · rename_i hmax
      split at hleft
      · cases hleft
        refine { h with size_max := ?_ }
        rw [length_resize 0 (Nat.le_of_not_le hgrow)]
        exact Nat.le_of_not_lt hmax
      · cases hleft
        exact h

theorem Bounded.makeSpace (h : Bounded b)
    (hleft : (makeSpace b allocated len).left = some b') : Bounded b' := by
  unfold Buffer64.makeSpace at hleft
  split at hleft
  · exact h.resizeBuffer hleft
  · split at hleft
    · rename_i moved hmove
      cases hleft
      have hprepend := h.prepend_le
      have hreader := h.reader_le
      have hwriter := h.writer_max
      have hsum : kCheapPrepend + (b.writerIndex - b.readerIndex) ≤ vectorMaxSize := by omega
      have hwrap : SizeT.add kCheapPrepend (readableBytes b)
          = kCheapPrepend + (b.writerIndex - b.readerIndex) := by
        rw [h.readableBytes_eq]
        exact SizeT.add_of_lt (Nat.lt_of_le_of_lt hsum vectorMaxSize_lt)
      refine ⟨Nat.le_refl _, ?_, ?_, ?_⟩
      · simp only [hwrap]
        exact Nat.le_add_right _ _
      · simp only [hwrap]
        exact hsum
      · simp only [length_move hmove]
        exact h.size_max
    · cases hleft

theorem Bounded.ensureWritableBytes (h : Bounded b)
    (hleft : (ensureWritableBytes b allocated len).left = some b') : Bounded b' := by
  have hassert : ∀ {r : SpaceResult}, (assertWritable len r).left = some b' → r.left = some b' := by
    intro r hr
    cases r with
    | returned c =>
      simp only [assertWritable] at hr
      split at hr
      · exact hr
      · cases hr
    | threw | assertFailed | undefined => exact hr
  have hspace := hassert hleft
  split at hspace
  · exact h.makeSpace hspace
  · cases hspace
    exact h

/-- Bytes are only copied where they fit behind `writerIndex_`. -/
theorem Bounded.copyIn_left (h : Bounded b) {data : List Byte}
    (hleft : (copyIn b data).left = some b') :
    b'.readerIndex = b.readerIndex ∧ b'.writerIndex = b.writerIndex + data.length
      ∧ b'.buffer.length = b.buffer.length ∧ b'.writerIndex ≤ b'.buffer.length := by
  unfold Buffer64.copyIn at hleft
  split at hleft
  · rename_i stored hstore
    cases hleft
    have hlength := length_store hstore
    have hfit := fits_of_store hstore
    have hwrap : SizeT.add b.writerIndex data.length = b.writerIndex + data.length :=
      SizeT.add_of_lt
        (Nat.lt_of_le_of_lt (Nat.le_trans hfit h.size_max) vectorMaxSize_lt)
    simp only [hasWritten, hwrap, hlength]
    exact ⟨trivial, trivial, trivial, hfit⟩
  · cases hleft

theorem Bounded.copyIn (h : Bounded b) {data : List Byte}
    (hleft : (copyIn b data).left = some b') : Bounded b' := by
  obtain ⟨hreader, hwriter, hlength, hfit⟩ := h.copyIn_left hleft
  have hmax : b'.buffer.length ≤ vectorMaxSize := Nat.le_trans (Nat.le_of_eq hlength) h.size_max
  refine ⟨?_, ?_, Nat.le_trans hfit hmax, hmax⟩
  · rw [hreader]
    exact h.prepend_le
  · rw [hreader, hwriter]
    exact Nat.le_trans h.reader_le (Nat.le_add_right _ _)

theorem Bounded.filled (h : Bounded b) {bytes stored : List Byte}
    (hstore : store b.buffer b.writerIndex bytes = some stored) :
    Bounded (filled b stored) := by
  have hwriter : b.writerIndex ≤ b.buffer.length :=
    Nat.le_trans (Nat.le_add_right _ _) (fits_of_store hstore)
  refine ⟨h.prepend_le, Nat.le_trans h.reader_le hwriter, h.size_max, ?_⟩
  simp only [Buffer64.filled, length_store hstore]
  exact h.size_max

theorem kept_bounded : Kept Bounded fun _ _ => True where
  retrieve len h := h.retrieve len
  retrieveAll h := h.retrieveAll
  ensureWritableBytes h _ hleft := h.ensureWritableBytes hleft
  copyIn h hleft := h.copyIn hleft
  filled h _ _ hstore := ⟨h.filled hstore, trivial⟩

theorem Bounded.of_run {initialSize : Nat} {b₀ : Buffer} {acts : List BufferAct}
    (hnew : Buffer64.new initialSize = some b₀) (hrun : Runs.run Buffer64.step b₀ acts = some b) :
    Bounded b :=
  Runs.run_induction (fun _ _ _ h hstep => kept_bounded.step h trivial hstep) (.new hnew) hrun

/-! ### Histories without wrap-around -/

/-- The invariant of the class, for a size that a vector can have. -/
structure Sound (b : Buffer) : Prop extends Bounded b where
  writer_le : b.writerIndex ≤ b.buffer.length

theorem Sound.wf (h : Sound b) : b.WF := ⟨h.prepend_le, h.reader_le, h.writer_le⟩

theorem Sound.size_lt (h : Sound b) : b.buffer.length < sizeTBound :=
  Nat.lt_of_le_of_lt h.size_max vectorMaxSize_lt

theorem Sound.new {initialSize : Nat} (hsum : kCheapPrepend + initialSize < sizeTBound)
    (hnew : Buffer64.new initialSize = some b) : Sound b := by
  refine ⟨.new hnew, ?_⟩
  simp only [Buffer64.new, Option.ite_none_right_eq_some, Option.some.injEq] at hnew
  obtain ⟨_, rfl⟩ := hnew
  simp only [List.length_replicate, SizeT.add_of_lt hsum]
  exact Nat.le_add_right _ _

/-- On such a buffer `retrieve` does what the one of Ymuduo/Buffer.lean does. -/
theorem Sound.retrieve_eq (h : Sound b) (len : Nat) :
    Buffer64.retrieve b len = b.retrieve len := by
  have hreadable := readableBytes_eq h.wf h.size_lt
  by_cases hlen : len < readableBytes b
  · rw [(h.retrieve_lt hlen).1, Buffer.retrieve, if_pos (hreadable ▸ hlen)]
  · rw [Buffer64.retrieve, if_neg hlen, Buffer.retrieve, if_neg (hreadable ▸ hlen)]

theorem Sound.retrieveAsString_eq (h : Sound b) (len : Nat) :
    Buffer64.retrieveAsString b true len
      = (b.retrieveAsString len).elim .outside fun r => .returned r.1 r.2 := by
  rw [Buffer64.retrieveAsString, if_pos rfl, Buffer.retrieveAsString, h.retrieve_eq]
  split <;> rfl

theorem Sound.retrieve (h : Sound b) (len : Nat) : Sound (Buffer64.retrieve b len) := by
  refine ⟨h.toBounded.retrieve len, ?_⟩
  rw [h.retrieve_eq]
  exact (h.wf.retrieve len).writer_le

theorem Sound.ensureWritableBytes (h : Sound b) (hsum : b.writerIndex + len < sizeTBound)
    (hleft : (Buffer64.ensureWritableBytes b allocated len).left = some b') : Sound b' := by
  refine ⟨h.toBounded.ensureWritableBytes hleft, ?_⟩
  have hcorrect := correct_of_lt h.wf h.size_lt allocated hsum
  cases hspace : Buffer64.ensureWritableBytes b allocated len with
  | returned c =>
    rw [hspace] at hcorrect hleft
    obtain rfl : c = b' := Option.some.inj hleft
    exact hcorrect.1.writer_le
  | threw e c =>
    rw [hspace] at hcorrect hleft
    obtain rfl : c = b' := Option.some.inj hleft
    obtain ⟨rfl, hwriter⟩ := hcorrect
    exact hwriter
  | assertFailed | undefined =>
    rw [hspace] at hcorrect
    exact False.elim hcorrect

theorem Sound.copyIn (h : Sound b) {data : List Byte}
    (hleft : (Buffer64.copyIn b data).left = some b') : Sound b' :=
  ⟨h.toBounded.copyIn hleft, (h.copyIn_left hleft).2.2.2⟩

/-- The rest of what `::readv` has read goes behind the end of `buffer_`. -/
theorem Sound.filled (h : Sound b) {bytes stored : List Byte}
    (hsum : b.writerIndex + bytes.length < sizeTBound) (hspill : writableBytes b < bytes.length)
    (hstore : store b.buffer b.writerIndex (bytes.take (writableBytes b)) = some stored) :
    Sound (filled b stored)
      ∧ (filled b stored).writerIndex + (bytes.drop (writableBytes b)).length < sizeTBound := by
  have hwriter := h.writer_le
  refine ⟨⟨h.toBounded.filled hstore, Nat.le_of_eq (length_store hstore).symm⟩, ?_⟩
  rw [writableBytes_eq h.wf h.size_lt, Buffer.writableBytes] at hspill
  rw [writableBytes_eq h.wf h.size_lt, Buffer.writableBytes, List.length_drop]
  simp only [Buffer64.filled]
  omega

theorem kept_sound : Kept Sound fun b len => b.writerIndex + len < sizeTBound where
  retrieve len h := h.retrieve len
  retrieveAll h := ⟨h.toBounded.retrieveAll, h.wf.retrieveAll.writer_le⟩
  ensureWritableBytes h hsum hleft := h.ensureWritableBytes hsum hleft
  copyIn h hleft := h.copyIn hleft
  filled h hsum hspill hstore := h.filled hsum hspill hstore

/-! ### Any history -/

/-- With `writerIndex_` beyond `buffer_`, `writableBytes()` wraps and is believed; a `len`
    beyond even that finds no room in any vector. -/
theorem Bounded.not_correct_of_beyond (h : Bounded b) (hbeyond : b.buffer.length < b.writerIndex) :
    ¬ Correct b len (Buffer64.ensureWritableBytes b allocated len) := by
  intro hcorrect
  by_cases hshort : writableBytes b < len
  · cases hspace : Buffer64.ensureWritableBytes b allocated len with
    | returned c =>
      rw [hspace] at hcorrect
      have hsize := (h.ensureWritableBytes (by rw [hspace]; rfl : _ = some c)).size_max
      have hfit := hcorrect.2.2.1
      have hwriter := h.writer_max
      rw [writableBytes, SizeT.sub_of_gt (Nat.lt_of_le_of_lt hwriter vectorMaxSize_lt) hbeyond]
        at hshort
      simp only [vectorMaxSize, sizeTBound] at hsize hwriter hshort
      omega
    | threw e c =>
      rw [hspace] at hcorrect
      obtain ⟨rfl, hwriter⟩ := hcorrect
      exact Nat.not_le_of_lt hbeyond hwriter
    | assertFailed | undefined =>
      rw [hspace] at hcorrect
      exact hcorrect
  · rw [Buffer64.ensureWritableBytes, if_neg hshort] at hcorrect
    exact Nat.not_le_of_lt hbeyond hcorrect.of_assertWritable.1.writer_le

/-- **After any history `ensureWritableBytes(len)` is correct exactly where `writerIndex_`
    lies in `buffer_`** and `writerIndex_ + len` does not wrap. -/
theorem ensureWritableBytes_correct_iff {initialSize : Nat} {b₀ : Buffer} {acts : List BufferAct}
    (hnew : Buffer64.new initialSize = some b₀) (hrun : Runs.run Buffer64.step b₀ acts = some b)
    (allocated : Bool) (hlen : len < sizeTBound) :
    Correct b len (Buffer64.ensureWritableBytes b allocated len)
      ↔ b.writerIndex ≤ b.buffer.length ∧ b.writerIndex + len < sizeTBound := by
  have h := Bounded.of_run hnew hrun
  constructor
  · intro hcorrect
    have hwriter : b.writerIndex ≤ b.buffer.length :=
      Nat.le_of_not_lt fun hbeyond => h.not_correct_of_beyond hbeyond hcorrect
    refine ⟨hwriter, Nat.lt_of_not_le fun hwrap => ?_⟩
    exact not_correct_of_ge (Sound.wf ⟨h, hwriter⟩) h.size_max allocated hlen hwrap hcorrect
  · rintro ⟨hwriter, hnowrap⟩
    have hsound : Sound b := ⟨h, hwriter⟩
    exact correct_of_lt hsound.wf hsound.size_lt allocated hnowrap

/-- A history with an allocation that fails, in which nothing wraps. -/
def grownActs : List BufferAct :=
  [⟨.append [97, 98, 99], true⟩, ⟨.ensureWritableBytes 4096, false⟩, ⟨.retrieve 2, true⟩]

theorem ensureWritableBytes_correct_iff_grownActs :
    ∃ b₀ b, Buffer64.new 16 = some b₀ ∧ Runs.run Buffer64.step b₀ grownActs = some b
      ∧ (Correct b vectorMaxSize (Buffer64.ensureWritableBytes b true vectorMaxSize)
        ↔ b.writerIndex ≤ b.buffer.length ∧ b.writerIndex + vectorMaxSize < sizeTBound) := by
  obtain ⟨b₀, hnew⟩ := Option.isSome_iff_exists.mp
    (by decide +kernel : (Buffer64.new 16).isSome = true)
  have hsome : ∀ c, Buffer64.new 16 = some c →
      (Runs.run Buffer64.step c grownActs).isSome = true := by
    decide +kernel
  obtain ⟨b, hrun⟩ := Option.isSome_iff_exists.mp (hsome b₀ hnew)
  exact ⟨b₀, b, hnew, hrun, ensureWritableBytes_correct_iff hnew hrun true (by decide)⟩

/-- On a new buffer the `assert` fails.  Behind three bytes it passes, and `buffer_` has
    been cut to one byte in front of `writerIndex_`.  And where the sum in the constructor
    has wrapped, a buffer of no bytes passes for one with room. -/
theorem ensureWritableBytes_wraps :
    (∃ b, Buffer64.new 16 = some b
      ∧ Buffer64.ensureWritableBytes b true (sizeTBound - 8) = .assertFailed
      ∧ ¬ Correct b (sizeTBound - 8) (Buffer64.ensureWritableBytes b true (sizeTBound - 8)))
    ∧ (∃ b₀ b b', Buffer64.new 16 = some b₀
      ∧ Runs.run Buffer64.step b₀ [⟨.append [97, 98, 99], true⟩] = some b
      ∧ Buffer64.ensureWritableBytes b true (sizeTBound - 10) = .returned b'
      ∧ b'.buffer.length = 1 ∧ b'.writerIndex = 11
      ∧ ¬ Correct b (sizeTBound - 10) (Buffer64.ensureWritableBytes b true (sizeTBound - 10)))
    ∧ ∃ b, Buffer64.new (sizeTBound - 8) = some b ∧ b.buffer.length = 0 ∧ b.writerIndex = 8
      ∧ Buffer64.ensureWritableBytes b true 5 = .returned b
      ∧ ¬ Correct b 5 (Buffer64.ensureWritableBytes b true 5) := by
  have hfails : Buffer64.ensureWritableBytes ⟨List.replicate 24 0, 8, 8⟩ true (sizeTBound - 8)
      = .assertFailed := by
    decide +kernel
  have hcut : Buffer64.ensureWritableBytes
      ⟨List.replicate 8 0 ++ [97, 98, 99] ++ List.replicate 13 0, 8, 11⟩ true (sizeTBound - 10)
      = .returned ⟨[0], 8, 11⟩ := by
    decide +kernel
  have hbelieved : Buffer64.ensureWritableBytes ⟨[], 8, 8⟩ true 5 = .returned ⟨[], 8, 8⟩ := by
    decide +kernel
  refine ⟨⟨_, by decide +kernel, hfails, ?_⟩, ⟨_, _, _, rfl, by decide +kernel, hcut, rfl, rfl, ?_⟩,
    ⟨_, by decide +kernel, rfl, rfl, hbelieved, ?_⟩⟩
  · rw [hfails]
    exact id
  · rw [hcut]
    intro hcorrect
    exact absurd hcorrect.1.writer_le (by decide)
  · rw [hbelieved]
    intro hcorrect
    exact absurd hcorrect.1.writer_le (by decide)

end Buffer64

end Ymuduo
