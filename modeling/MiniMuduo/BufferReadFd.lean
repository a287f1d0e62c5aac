import MiniMuduo.BufferProofs

/-! A scatter read is an append. The kernel fills the tail of the vector first and
`extrabuf` behind it; `readFd` appends what went to `extrabuf`, which may move or
grow the vector that already holds the first part. -/
namespace MiniMuduo.Buffer

variable {b : Buffer} {call other : Readv} {bytes : List Byte} {len : UInt64}

/-- The kernel's side of the call: `extrabuf` has its 65536 bytes, and no more is
delivered than was offered. -/
structure Possible (b : Buffer) (call : Readv) : Prop where
  scratch : call.extrabuf.length = extrabufSize.toNat
  within : ∀ bytes, call.result = .delivered bytes → bytes.length ≤ b.offered

/-- What is left for `extrabuf` when the tail is full. -/
def overflow (b : Buffer) (bytes : List Byte) : List Byte := bytes.drop b.writableBytes.toNat

/-- The buffer when the kernel has filled its tail. -/
def Filled (b : Buffer) (bytes : List Byte) (full : Buffer) : Prop :=
  full.WellFormed ∧ full.content = b.content ++ bytes.take b.writableBytes.toNat ∧
    full.buffer.length = b.buffer.length ∧ full.writerIndex.toNat = b.buffer.length ∧
    full.readerIndex = b.readerIndex

theorem offered_word (wellFormed : b.WellFormed) (within : bytes.length ≤ b.offered) :
    (UInt64.ofNat bytes.length).toNat = bytes.length := by
  have bounded := wellFormed.bounded
  have writable := writableBytes_toNat wellFormed
  have scratch : extrabufSize.toNat = 65536 := rfl
  rw [vectorMaxSize] at bounded
  rw [offered] at within
  apply UInt64.toNat_ofNat_of_lt'
  show bytes.length < 2 ^ 64
  split at within <;> omega

theorem overflow_fits (within : bytes.length ≤ b.offered) :
    (b.overflow bytes).length ≤ extrabufSize.toNat := by
  rw [offered] at within
  rw [overflow, List.length_drop]
  split at within <;> omega

theorem overflow_word (within : bytes.length ≤ b.offered) :
    (UInt64.ofNat (b.overflow bytes).length).toNat = (b.overflow bytes).length :=
  UInt64.toNat_ofNat_of_lt' (Nat.lt_of_le_of_lt (overflow_fits within) (by decide))

/-- The kernel fills the tail of the vector as an append of that many bytes would. -/
theorem fill_tail (wellFormed : b.WellFormed) (enough : b.writableBytes.toNat ≤ bytes.length) :
    ∃ filled, inBounds (ForwardCopy.copyFrom bytes b.buffer 0 b.beginWrite
        b.writableBytes.toNat) = .ok filled ∧
      Filled b bytes ⟨filled, b.readerIndex, UInt64.ofNat filled.length⟩ := by
  have inside := wellFormed.inside
  have bounded := wellFormed.bounded
  have word := max_size_word
  have writable := writableBytes_toNat wellFormed
  obtain ⟨filled, copied, kept, content, length⟩ :=
    write_content wellFormed bytes enough (by omega)
  have last : UInt64.ofNat filled.length = b.writerIndex + b.writableBytes := by
    apply UInt64.toNat_inj.mp
    rw [add_toNat (by omega), UInt64.toNat_ofNat_of_lt' (show filled.length < 2 ^ 64 by omega)]
    omega
  refine ⟨filled, copied, ?_⟩
  rw [last]
  exact ⟨kept, content, length, by simp only [add_toNat (show b.writerIndex.toNat +
    b.writableBytes.toNat < 2 ^ 64 by omega)]; omega, rfl⟩

/-- The rest goes to the front of `extrabuf`. -/
theorem fill_scratch (possible : b.Possible call) (delivered : call.result = .delivered bytes)
    (enough : b.writableBytes.toNat ≤ bytes.length) :
    inBounds (ForwardCopy.copyFrom bytes call.extrabuf b.writableBytes.toNat 0
        (bytes.length - b.writableBytes.toNat)) =
      .ok (b.overflow bytes ++ call.extrabuf.drop (b.overflow bytes).length) := by
  have fits := overflow_fits (possible.within bytes delivered)
  have length : (b.overflow bytes).length = bytes.length - b.writableBytes.toNat :=
    List.length_drop
  rw [ForwardCopy.copyFrom_eq bytes _ (by omega) (by rw [possible.scratch]; omega)]
  have all : (bytes.drop b.writableBytes.toNat).take (bytes.length - b.writableBytes.toNat) =
      b.overflow bytes := List.take_of_length_le (Nat.le_of_eq length)
  simp [all, length, inBounds]

/-- `append` looks at no byte of its data behind the first `len`. -/
theorem append_take (b : Buffer) (data : List Byte) (len : UInt64) :
    b.append (data.take len.toNat) len = b.append data len := by
  simp only [append, ForwardCopy.copyFrom_take data len.toNat (Nat.le_of_eq (Nat.zero_add _))]

/-- Up to a full tail the indices alone move. -/
theorem readFd_within (wellFormed : b.WellFormed) (within : bytes.length ≤ b.offered)
    (fits : UInt64.ofNat bytes.length < b.writableBytes) :
    ∃ after : Buffer, after.WellFormed ∧ after.content = b.content ++ bytes ∧
      after.buffer.length = b.buffer.length ∧
      ∀ call : Readv, call.result = .delivered bytes →
        b.readFd call = .ok (bytes.length, none, after) := by
  have n := offered_word wellFormed within
  have less := UInt64.lt_iff_toNat_lt.mp fits
  have inside := wellFormed.inside
  have writable := writableBytes_toNat wellFormed
  obtain ⟨filled, copied, kept, content, length⟩ :=
    write_content wellFormed bytes (Nat.le_of_eq n) (by omega)
  rw [n, List.take_length] at content
  refine ⟨⟨filled, b.readerIndex, b.writerIndex + UInt64.ofNat bytes.length⟩, kept, content,
    length, fun call delivered => ?_⟩
  have tail : min bytes.length b.writableBytes.toNat = bytes.length := by omega
  rw [n] at copied
  simp only [readFd, delivered, tail, copied, Nat.sub_self, bind, Except.bind, if_pos fits]
  rfl

/-- From a full tail on, `readFd` is the append of what went to `extrabuf`. -/
theorem readFd_beyond (wellFormed : b.WellFormed) (within : bytes.length ≤ b.offered)
    (full : ¬ UInt64.ofNat bytes.length < b.writableBytes) :
    ∃ filled : Buffer, Filled b bytes filled ∧
      ∀ call, b.Possible call → call.result = .delivered bytes →
        b.readFdThrown call = filled ∧
        b.readFd call = (fun after => (↑bytes.length, none, after)) <$>
          filled.append (b.overflow bytes) (UInt64.ofNat (b.overflow bytes).length) := by
  have n := offered_word wellFormed within
  have enough : b.writableBytes.toNat ≤ bytes.length := by
    rw [← n]
    exact Nat.not_lt.mp (mt UInt64.lt_iff_toNat_lt.mpr full)
  obtain ⟨filled, copied, kept⟩ := fill_tail wellFormed enough
  have tail : min bytes.length b.writableBytes.toNat = b.writableBytes.toNat := by omega
  have word := overflow_word within
  have rest : UInt64.ofNat bytes.length - b.writableBytes =
      UInt64.ofNat (b.overflow bytes).length := by
    apply UInt64.toNat_inj.mp
    rw [UInt64.toNat_sub_of_le _ _ (UInt64.le_iff_toNat_le.mpr (by omega)), n, word, overflow,
      List.length_drop]
  refine ⟨⟨filled, b.readerIndex, UInt64.ofNat filled.length⟩, kept, ?_⟩
  intro call possible delivered
  have scratch := fill_scratch possible delivered enough
  constructor
  · cases ran : ForwardCopy.copyFrom bytes b.buffer 0 b.beginWrite b.writableBytes.toNat with
    | none => simp [ran, inBounds] at copied
    | some array =>
      obtain rfl : array = filled := by simpa [ran, inBounds] using copied
      simp only [readFdThrown, delivered, tail, ran]
  · have read : b.readFd call = (fun after => (↑bytes.length, none, after)) <$>
        append ⟨filled, b.readerIndex, UInt64.ofNat filled.length⟩
          (b.overflow bytes ++ call.extrabuf.drop (b.overflow bytes).length)
          (UInt64.ofNat (b.overflow bytes).length) := by
      simp only [readFd, delivered, tail, copied, scratch, rest, bind, Except.bind, if_neg full]
      rfl
    rw [read, ← append_take _ (_ ++ _), word, List.take_left' rfl]

theorem filled_fits {full : Buffer} (wellFormed : b.WellFormed) (filled : Filled b bytes full)
    (within : bytes.length ≤ b.offered) :
    full.Fits (UInt64.ofNat (b.overflow bytes).length) := by
  have word := overflow_word within
  have fits := overflow_fits within
  have scratch : extrabufSize.toNat = 65536 := rfl
  have bounded := wellFormed.bounded
  rw [vectorMaxSize] at bounded
  exact ⟨by omega, by rw [filled.2.2.2.1]; omega⟩

theorem readFd_failed {errno : Int} (failed : call.result = .error errno) :
    b.readFd call = .ok (-1, some errno, b) := by
  simp only [readFd, failed]
  rfl

/-- Data that was delivered ends up behind the content, in whichever of its three
ways, or the vector would have to grow beyond `max_size()`. -/
theorem readFd_delivered (wellFormed : b.WellFormed) (possible : b.Possible call)
    (delivered : call.result = .delivered bytes) :
    (∃ after, b.readFd call = .ok (bytes.length, none, after) ∧ after.WellFormed ∧
      after.content = b.content ++ bytes) ∨
      (b.readFd call = .error .lengthError ∧
        vectorMaxSize < b.buffer.length + (b.overflow bytes).length) := by
  have within := possible.within bytes delivered
  by_cases fits : UInt64.ofNat bytes.length < b.writableBytes
  · obtain ⟨after, kept, content, _, ran⟩ := readFd_within wellFormed within fits
    exact Or.inl ⟨after, ran call delivered, kept, content⟩
  · obtain ⟨full, filled, ran⟩ := readFd_beyond wellFormed within fits
    obtain ⟨_, read⟩ := ran call possible delivered
    have word := overflow_word within
    rcases append_spec filled.1 (filled_fits wellFormed filled within) (b.overflow bytes)
      (Nat.le_of_eq word) with ⟨after, appended, kept, content⟩ | ⟨threw, large⟩
    · refine Or.inl ⟨after, by rw [read, appended]; rfl, kept, ?_⟩
      rw [content, filled.2.1, word, List.take_length, List.append_assoc, overflow,
        List.take_append_drop]
    · refine Or.inr ⟨by rw [read, threw]; rfl, ?_⟩
      rwa [word, filled.2.2.2.1] at large

/-- What `extrabuf` held before the call plays no part. -/
theorem readFd_scratch (wellFormed : b.WellFormed) (possible : b.Possible call)
    (again : b.Possible other) (same : other.result = call.result) :
    b.readFd other = b.readFd call := by
  cases result : call.result with
  | error errno => simp only [readFd, same, result]
  | delivered bytes =>
    have within := possible.within bytes result
    by_cases fits : UInt64.ofNat bytes.length < b.writableBytes
    · obtain ⟨after, _, _, _, ran⟩ := readFd_within wellFormed within fits
      rw [ran call result, ran other (same.trans result)]
    · obtain ⟨full, _, ran⟩ := readFd_beyond wellFormed within fits
      rw [(ran call possible result).2, (ran other again (same.trans result)).2]

/-- `readFd` returns what `readv` returned. An error changes nothing; delivered
bytes are appended to the content in order, unless `std::length_error` is thrown for
a vector beyond `max_size()`; no other byte of `extrabuf` has any effect. -/
theorem readFd_appends_delivered (wellFormed : b.WellFormed) (possible : b.Possible call) :
    (∀ errno, call.result = .error errno → b.readFd call = .ok (-1, some errno, b)) ∧
    (∀ bytes, call.result = .delivered bytes →
      (∃ after, b.readFd call = .ok (bytes.length, none, after) ∧ after.WellFormed ∧
        after.content = b.content ++ bytes) ∨
      (b.readFd call = .error .lengthError ∧
        vectorMaxSize < b.buffer.length + (b.overflow bytes).length)) ∧
    ∀ other, b.Possible other → other.result = call.result → b.readFd other = b.readFd call := by
  refine ⟨?_, fun bytes => readFd_delivered wellFormed possible,
    fun other => readFd_scratch wellFormed possible⟩
  intro errno failed
  simp only [readFd, failed]
  rfl

/-- Three bytes for a buffer with one byte of room: the tail, `extrabuf`, and a
vector that grows. -/
theorem three_bytes_delivered :
    ∃ after, readFd ⟨List.replicate 8 0 ++ [97, 0], 8, 9⟩
        ⟨List.replicate 65536 7, .delivered [98, 99, 100]⟩ = .ok (3, none, after) ∧
      after.WellFormed ∧ after.content = [97, 98, 99, 100] := by
  have wellFormed : WellFormed ⟨List.replicate 8 0 ++ [97, 0], 8, 9⟩ :=
    ⟨by decide, by decide, by decide, by decide⟩
  have possible : Possible ⟨List.replicate 8 0 ++ [97, 0], 8, 9⟩
      ⟨List.replicate 65536 7, .delivered [98, 99, 100]⟩ := by
    refine ⟨List.length_replicate, ?_⟩
    rintro bytes ⟨⟩
    decide
  rcases (readFd_appends_delivered wellFormed possible).2.1 [98, 99, 100] rfl with
    ⟨after, ran, kept, content⟩ | ⟨_, large⟩
  · exact ⟨after, ran, kept, content⟩
  · exact absurd large (by decide)

end MiniMuduo.Buffer
