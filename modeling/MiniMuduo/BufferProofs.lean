import MiniMuduo.Buffer
import MiniMuduo.Library.Triple

/-! One specification for each `Buffer` operation, over the layout invariant the
class comment draws. Later modules use these and never unfold an operation. -/
namespace MiniMuduo.Buffer

variable {b : Buffer} {len : UInt64}

/-- The picture above the class, with the vector no larger than a vector can be. -/
structure WellFormed (b : Buffer) : Prop where
  prepend : 8 ≤ b.readerIndex.toNat
  ordered : b.readerIndex.toNat ≤ b.writerIndex.toNat
  inside : b.writerIndex.toNat ≤ b.buffer.length
  bounded : b.buffer.length ≤ vectorMaxSize

/-- The two sums `append` and `ensureWritableBytes` form from a length do not
wrap. -/
structure Fits (b : Buffer) (len : UInt64) : Prop where
  reserve : len.toNat + 8 < 2 ^ 64
  grown : b.writerIndex.toNat + len.toNat < 2 ^ 64

@[simp] theorem kCheapPrepend_toNat : kCheapPrepend.toNat = 8 := rfl

theorem max_size_word : vectorMaxSize < 2 ^ 64 := by decide

theorem size_toNat (wellFormed : b.WellFormed) : b.size.toNat = b.buffer.length := by
  have bounded := wellFormed.bounded
  have word := max_size_word
  rw [size, UInt64.toNat_ofNat_of_lt']
  exact Nat.lt_of_le_of_lt bounded word

theorem readableBytes_toNat (wellFormed : b.WellFormed) :
    b.readableBytes.toNat = b.writerIndex.toNat - b.readerIndex.toNat :=
  UInt64.toNat_sub_of_le _ _ (UInt64.le_iff_toNat_le.mpr wellFormed.ordered)

theorem writableBytes_toNat (wellFormed : b.WellFormed) :
    b.writableBytes.toNat = b.buffer.length - b.writerIndex.toNat := by
  have size := size_toNat wellFormed
  rw [writableBytes, UInt64.toNat_sub_of_le _ _, size]
  exact UInt64.le_iff_toNat_le.mpr (by rw [size]; exact wellFormed.inside)

theorem content_eq (wellFormed : b.WellFormed) :
    b.content = (b.buffer.drop b.readerIndex.toNat).take
      (b.writerIndex.toNat - b.readerIndex.toNat) := by
  rw [content, readableBytes_toNat wellFormed, peek]

theorem content_length (wellFormed : b.WellFormed) :
    b.content.length = b.readableBytes.toNat := by
  have inside := wellFormed.inside
  rw [content_eq wellFormed, readableBytes_toNat wellFormed, List.length_take, List.length_drop]
  omega

/-- A sum of two indices that stays below `2 ^ 64` is the sum of their values. -/
theorem add_toNat {i j : UInt64} (small : i.toNat + j.toNat < 2 ^ 64) :
    (i + j).toNat = i.toNat + j.toNat := by
  rw [UInt64.toNat_add, Nat.mod_eq_of_lt small]

theorem vectorResize_grows {vector : List Byte} {size : UInt64}
    (larger : vector.length ≤ size.toNat) (small : size.toNat ≤ vectorMaxSize) :
    vectorResize vector size =
      .ok (vector ++ List.replicate (size.toNat - vector.length) 0) := by
  rw [vectorResize, if_neg (Nat.not_lt.mpr small), List.take_of_length_le larger]

/-- The vector of a constructor. -/
theorem vectorResize_empty {size : UInt64} (small : size.toNat ≤ vectorMaxSize) :
    vectorResize [] size = .ok (List.replicate size.toNat 0) := by
  have grown : vectorResize [] size = .ok ([] ++ List.replicate (size.toNat - 0) 0) :=
    vectorResize_grows (Nat.zero_le _) small
  simpa using grown

theorem vectorResize_throws {vector : List Byte} {size : UInt64}
    (large : vectorMaxSize < size.toNat) : vectorResize vector size = .error .lengthError := by
  rw [vectorResize, if_pos large]

theorem inBounds_eq_ok {copied : Option (List Byte)} {array : List Byte}
    (inside : inBounds copied = .ok array) : copied = some array := by
  cases copied with
  | none => cases inside
  | some other => exact congrArg some (Except.ok.inj inside)

theorem vectorResize_length {vector resized : List Byte} {size : UInt64}
    (ran : vectorResize vector size = .ok resized) : resized.length = size.toNat := by
  unfold vectorResize at ran
  split at ran
  · cases ran
  · obtain rfl := Except.ok.inj ran
    simp only [List.length_append, List.length_take, List.length_replicate]
    omega

/-! ### Taking bytes out -/

theorem retrieveAll_wellFormed (wellFormed : b.WellFormed) : b.retrieveAll.WellFormed := by
  have prepend := wellFormed.prepend
  have ordered := wellFormed.ordered
  have inside := wellFormed.inside
  exact ⟨Nat.le_refl _, Nat.le_refl _, by simp only [retrieveAll, kCheapPrepend_toNat]; omega,
    wellFormed.bounded⟩

@[simp] theorem retrieveAll_content (b : Buffer) : b.retrieveAll.content = [] := by
  simp [retrieveAll, content, readableBytes]

private theorem retrieve_some_reader (wellFormed : b.WellFormed) (some : len < b.readableBytes) :
    (b.readerIndex + len).toNat = b.readerIndex.toNat + len.toNat ∧
      b.readerIndex.toNat + len.toNat < b.writerIndex.toNat := by
  have less := UInt64.lt_iff_toNat_lt.mp some
  rw [readableBytes_toNat wellFormed] at less
  have word := b.writerIndex.toNat_lt
  exact ⟨add_toNat (by omega), by omega⟩

theorem retrieve_wellFormed (wellFormed : b.WellFormed) : (b.retrieve len).WellFormed := by
  unfold retrieve
  split
  · rename_i some
    obtain ⟨reader, below⟩ := retrieve_some_reader wellFormed some
    have prepend := wellFormed.prepend
    exact ⟨by simp only [reader]; omega, by simp only [reader]; omega, wellFormed.inside,
      wellFormed.bounded⟩
  · exact retrieveAll_wellFormed wellFormed

/-- `retrieve` takes the first `len` bytes, or everything when there are fewer. -/
theorem retrieve_content (wellFormed : b.WellFormed) :
    (b.retrieve len).content = b.content.drop len.toNat := by
  have kept : (b.retrieve len).WellFormed := retrieve_wellFormed wellFormed
  have length := content_length wellFormed
  unfold retrieve at kept ⊢
  split
  · rename_i some
    obtain ⟨reader, below⟩ := retrieve_some_reader wellFormed some
    rw [if_pos some] at kept
    rw [content_eq kept, content_eq wellFormed, List.drop_take, List.drop_drop]
    simp only [reader, Nat.sub_sub]
  · rename_i all
    rw [retrieveAll_content, List.drop_of_length_le]
    rw [length]
    exact Nat.not_lt.mp (fun less => all (UInt64.lt_iff_toNat_lt.mpr less))

theorem stringAt_eq (wellFormed : b.WellFormed) (enough : len ≤ b.readableBytes) :
    b.stringAt len = .ok (b.content.take len.toNat) := by
  have less := UInt64.le_iff_toNat_le.mp enough
  have inside := wellFormed.inside
  have ordered := wellFormed.ordered
  rw [readableBytes_toNat wellFormed] at less
  rw [stringAt, ForwardCopy.copyFrom_eq _ _ (by rw [peek]; omega) (by simp), content_eq wellFormed,
    List.take_take, Nat.min_eq_left less, peek]
  simp [inBounds]

/-- A request within the content returns exactly the bytes it removes. -/
theorem retrieveAsString_within (wellFormed : b.WellFormed) (enough : len ≤ b.readableBytes) :
    b.retrieveAsString len = .ok ⟨b.content.take len.toNat, [], b.retrieve len⟩ := by
  rw [retrieveAsString, if_pos enough, stringAt_eq wellFormed enough]
  rfl

/-- A longer request returns one space, logs an error and removes nothing. -/
theorem retrieveAsString_over (long : ¬ len ≤ b.readableBytes) :
    b.retrieveAsString len = .ok ⟨[32], [retrieveError], b⟩ := by
  rw [retrieveAsString, if_neg long]
  rfl

theorem retrieveAllAsString_eq (wellFormed : b.WellFormed) :
    b.retrieveAllAsString = .ok ⟨b.content, [], b.retrieveAll⟩ := by
  rw [retrieveAllAsString, retrieveAsString_within wellFormed UInt64.le_rfl,
    List.take_of_length_le (Nat.le_of_eq (content_length wellFormed)), retrieve,
    if_neg (UInt64.lt_irrefl _)]

/-! ### Making room and putting bytes in -/

/-- What making room may do: the content stays, the vector does not shrink. -/
structure RoomFor (before : Buffer) (len : UInt64) (after : Buffer) : Prop where
  wellFormed : after.WellFormed
  content : after.content = before.content
  size : before.buffer.length ≤ after.buffer.length
  room : after.writerIndex.toNat + len.toNat ≤ after.buffer.length
  writer : after.writerIndex.toNat ≤ before.writerIndex.toNat

theorem prepended_toNat (wellFormed : b.WellFormed) :
    (b.writableBytes + b.prependableBytes).toNat =
      b.buffer.length - b.writerIndex.toNat + b.readerIndex.toNat := by
  have inside := wellFormed.inside
  have ordered := wellFormed.ordered
  have bounded := wellFormed.bounded
  have word := max_size_word
  have writable := writableBytes_toNat wellFormed
  rw [add_toNat (by rw [writable, prependableBytes]; omega), writable, prependableBytes]

private theorem grow_room (wellFormed : b.WellFormed) (fits : b.Fits len)
    (short : b.buffer.length < b.writerIndex.toNat + len.toNat)
    (allowed : b.writerIndex.toNat + len.toNat ≤ vectorMaxSize) :
    ∃ grown, vectorResize b.buffer (b.writerIndex + len) = .ok grown ∧
      b.RoomFor len { b with buffer := grown } := by
  have target := add_toNat fits.grown
  have inside := wellFormed.inside
  have ordered := wellFormed.ordered
  refine ⟨_, vectorResize_grows (by omega) (by omega), ?_⟩
  have longer : (b.buffer ++ List.replicate
      ((b.writerIndex + len).toNat - b.buffer.length) 0).length =
      b.writerIndex.toNat + len.toNat := by
    rw [List.length_append, List.length_replicate, target]
    omega
  have kept : WellFormed ⟨b.buffer ++ List.replicate
      ((b.writerIndex + len).toNat - b.buffer.length) 0, b.readerIndex, b.writerIndex⟩ :=
    ⟨wellFormed.prepend, ordered, by simp only [longer]; omega, by simp only [longer]; omega⟩
  refine ⟨kept, ?_, by simp only [longer]; omega, by simp only [longer]; omega, Nat.le_refl _⟩
  rw [content_eq kept, content_eq wellFormed]
  simp only
  rw [List.drop_append_of_le_length (by omega), List.take_append_of_le_length]
  rw [List.length_drop]
  omega

private theorem compact_room (wellFormed : b.WellFormed)
    (enough : len.toNat + 8 ≤ b.buffer.length - b.writerIndex.toNat + b.readerIndex.toNat) :
    ∃ compacted, b.compact = .ok compacted ∧ b.RoomFor len compacted := by
  have prepend := wellFormed.prepend
  have ordered := wellFormed.ordered
  have inside := wellFormed.inside
  have bounded := wellFormed.bounded
  have word := max_size_word
  have readable := readableBytes_toNat wellFormed
  have writer : (kCheapPrepend + b.readableBytes).toNat =
      8 + (b.writerIndex.toNat - b.readerIndex.toNat) := by
    rw [add_toNat (by rw [readable, kCheapPrepend_toNat]; omega), readable, kCheapPrepend_toNat]
  let moved := b.buffer.take 8 ++ (b.buffer.drop b.readerIndex.toNat).take b.readableBytes.toNat ++
    b.buffer.drop (8 + b.readableBytes.toNat)
  have copied : ForwardCopy.copyWithin b.buffer b.readerIndex.toNat 8 b.readableBytes.toNat =
      some moved :=
    ForwardCopy.copyWithin_eq b.readableBytes.toNat (by omega) prepend
  have length : moved.length = b.buffer.length := by
    simp only [moved, List.length_append, List.length_take, List.length_drop]
    omega
  have kept : WellFormed ⟨moved, kCheapPrepend, kCheapPrepend + b.readableBytes⟩ :=
    ⟨Nat.le_refl _, by simp only [writer, kCheapPrepend_toNat]; omega,
      by simp only [writer, length]; omega, by simp only [length]; exact bounded⟩
  refine ⟨⟨moved, kCheapPrepend, kCheapPrepend + b.readableBytes⟩, ?_, kept, ?_,
    Nat.le_of_eq length.symm, ?_, ?_⟩
  · rw [compact, kCheapPrepend_toNat, copied]
    rfl
  · rw [content_eq kept, content_eq wellFormed]
    simp only [writer, kCheapPrepend_toNat, moved, readable]
    rw [List.append_assoc, List.drop_left' (by rw [List.length_take]; omega),
      List.take_append_of_le_length (by simp only [List.length_take, List.length_drop]; omega),
      List.take_take]
    congr 1
    omega
  · simp only [writer, length]
    omega
  · simp only [writer]
    omega

/-- The two tests that lead to a longer vector. -/
def Reallocates (b : Buffer) (len : UInt64) : Prop :=
  b.writableBytes < len ∧ b.writableBytes + b.prependableBytes ≤ len + kCheapPrepend

theorem reallocates_iff (wellFormed : b.WellFormed) (reserve : len.toNat + 8 < 2 ^ 64) :
    b.Reallocates len ↔ b.buffer.length - b.writerIndex.toNat < len.toNat ∧
      b.buffer.length - b.writerIndex.toNat + b.readerIndex.toNat ≤ len.toNat + 8 := by
  rw [Reallocates, UInt64.lt_iff_toNat_lt, UInt64.le_iff_toNat_le, writableBytes_toNat wellFormed,
    prepended_toNat wellFormed, add_toNat reserve, kCheapPrepend_toNat]

/-- The vector that is made, or one of the same size. -/
theorem ensureWritableBytes_length {after : Buffer} (ran : b.ensureWritableBytes len = .ok after) :
    b.Reallocates len ∧ after.buffer.length = (b.writerIndex + len).toNat ∨
      ¬ b.Reallocates len ∧ after.buffer.length = b.buffer.length := by
  unfold ensureWritableBytes at ran
  split at ran
  · rename_i short
    unfold makeSpace at ran
    split at ran
    · rename_i tight
      obtain ⟨grown, resized, ran⟩ := Except.bind_eq_ok ran
      obtain rfl := Except.ok.inj ran
      exact Or.inl ⟨⟨short, tight⟩, vectorResize_length resized⟩
    · rename_i loose
      refine Or.inr ⟨fun grows => loose grows.2, ?_⟩
      split at ran
      · obtain ⟨moved, copied, ran⟩ := Except.bind_eq_ok ran
        obtain rfl := Except.ok.inj ran
        exact ForwardCopy.copyWithin_length (inBounds_eq_ok copied)
      · obtain rfl := Except.ok.inj ran
        rfl
  · rename_i enough
    obtain rfl := Except.ok.inj ran
    exact Or.inr ⟨fun grows => enough grows.1, rfl⟩

theorem compact_ne_lengthError : b.compact ≠ .error .lengthError := by
  intro threw
  simp only [compact] at threw
  cases copied : ForwardCopy.copyWithin b.buffer b.readerIndex.toNat kCheapPrepend.toNat
      b.readableBytes.toNat with
  | none =>
    rw [copied] at threw
    cases threw
  | some moved =>
    rw [copied] at threw
    cases threw

/-- Only a vector that would have to be too long throws. -/
theorem ensureWritableBytes_throws (threw : b.ensureWritableBytes len = .error .lengthError) :
    b.Reallocates len ∧ vectorMaxSize < (b.writerIndex + len).toNat := by
  unfold ensureWritableBytes at threw
  split at threw
  · rename_i short
    unfold makeSpace at threw
    split at threw
    · rename_i tight
      refine ⟨⟨short, tight⟩, ?_⟩
      by_contra small
      rw [vectorResize, if_neg small] at threw
      cases threw
    · split at threw
      · exact absurd threw compact_ne_lengthError
      · cases threw
  · cases threw

/-- `ensureWritableBytes` makes the room it is asked for, or throws because the
vector would have to be larger than a vector can be. -/
theorem ensureWritableBytes_spec (wellFormed : b.WellFormed) (fits : b.Fits len) :
    (∃ after, b.ensureWritableBytes len = .ok after ∧ b.RoomFor len after) ∨
      (b.ensureWritableBytes len = .error .lengthError ∧
        vectorMaxSize < b.writerIndex.toNat + len.toNat) := by
  have writable := writableBytes_toNat wellFormed
  have inside := wellFormed.inside
  have reserve : (len + kCheapPrepend).toNat = len.toNat + 8 := add_toNat fits.reserve
  unfold ensureWritableBytes
  split
  · rename_i short
    have less := UInt64.lt_iff_toNat_lt.mp short
    rw [writable] at less
    unfold makeSpace
    split
    · by_cases allowed : b.writerIndex.toNat + len.toNat ≤ vectorMaxSize
      · obtain ⟨grown, resized, room⟩ := grow_room wellFormed fits (by omega) allowed
        exact Or.inl ⟨_, by rw [resized]; rfl, room⟩
      · have large := Nat.lt_of_not_le allowed
        have threw : vectorResize b.buffer (b.writerIndex + len) = .error .lengthError :=
          vectorResize_throws (by rw [add_toNat fits.grown]; exact large)
        exact Or.inr ⟨by rw [threw]; rfl, large⟩
    · rename_i tight
      rw [UInt64.le_iff_toNat_le, prepended_toNat wellFormed, reserve] at tight
      -- The guard of the compacting branch cannot fail here: it is what the
      -- failed size test and the missing room leave of the prependable bytes.
      have guard : kCheapPrepend < b.readerIndex :=
        UInt64.lt_iff_toNat_lt.mpr (by rw [kCheapPrepend_toNat]; omega)
      have slack : len.toNat + 8 ≤
          b.buffer.length - b.writerIndex.toNat + b.readerIndex.toNat := by omega
      obtain ⟨compacted, ran, room⟩ := compact_room wellFormed slack
      exact Or.inl ⟨compacted, by rw [if_pos guard]; exact ran, room⟩
  · rename_i enough
    have held := mt UInt64.lt_iff_toNat_lt.mpr enough
    exact Or.inl ⟨b, rfl, wellFormed, rfl, Nat.le_refl _, by omega, Nat.le_refl _⟩

/-- A write behind the content extends it by what was written. -/
theorem write_content (wellFormed : b.WellFormed) (data : List Byte)
    (source : len.toNat ≤ data.length)
    (room : b.writerIndex.toNat + len.toNat ≤ b.buffer.length) :
    ∃ written, inBounds (ForwardCopy.copyFrom data b.buffer 0 b.beginWrite len.toNat) =
        .ok written ∧
      WellFormed ⟨written, b.readerIndex, b.writerIndex + len⟩ ∧
      content ⟨written, b.readerIndex, b.writerIndex + len⟩ =
        b.content ++ data.take len.toNat ∧
      written.length = b.buffer.length := by
  have prepend := wellFormed.prepend
  have ordered := wellFormed.ordered
  have inside := wellFormed.inside
  have bounded := wellFormed.bounded
  have word := max_size_word
  have writer : (b.writerIndex + len).toNat = b.writerIndex.toNat + len.toNat :=
    add_toNat (by omega)
  let written := b.buffer.take b.writerIndex.toNat ++ data.take len.toNat ++
    b.buffer.drop (b.writerIndex.toNat + len.toNat)
  have copied : ForwardCopy.copyFrom data b.buffer 0 b.writerIndex.toNat len.toNat =
      some written :=
    ForwardCopy.copyFrom_eq data len.toNat (by omega) room
  have length : written.length = b.buffer.length := by
    simp only [written, List.length_append, List.length_take, List.length_drop]
    omega
  have kept : WellFormed ⟨written, b.readerIndex, b.writerIndex + len⟩ :=
    ⟨prepend, by simp only [writer]; omega, by simp only [writer, length]; exact room,
      by simp only [length]; exact bounded⟩
  refine ⟨written, by rw [beginWrite, copied]; rfl, kept, ?_, length⟩
  have split : b.writerIndex.toNat + len.toNat - b.readerIndex.toNat =
      (b.writerIndex.toNat - b.readerIndex.toNat) + len.toNat := by omega
  rw [content_eq kept, content_eq wellFormed]
  simp only [writer, written, split]
  rw [List.append_assoc, List.drop_append_of_le_length (by rw [List.length_take]; omega),
    List.drop_take, ← List.append_assoc, List.take_append_of_le_length
      (by simp only [List.length_append, List.length_take, List.length_drop]; omega),
    List.take_of_length_le
      (by simp only [List.length_append, List.length_take, List.length_drop]; omega)]

/-- `append` puts `len` bytes behind the content, or throws because the vector
would have to be larger than a vector can be. -/
theorem append_spec (wellFormed : b.WellFormed) (fits : b.Fits len) (data : List Byte)
    (source : len.toNat ≤ data.length) :
    (∃ after, b.append data len = .ok after ∧ after.WellFormed ∧
      after.content = b.content ++ data.take len.toNat) ∨
      (b.append data len = .error .lengthError ∧
        vectorMaxSize < b.writerIndex.toNat + len.toNat) := by
  rcases ensureWritableBytes_spec wellFormed fits with ⟨roomy, ran, room⟩ | ⟨threw, large⟩
  · obtain ⟨written, copied, kept, content, _⟩ :=
      write_content room.wellFormed data source room.room
    refine Or.inl ⟨⟨written, roomy.readerIndex, roomy.writerIndex + len⟩, ?_, kept, ?_⟩
    · rw [append, ran]
      simp only [bind, Except.bind, copied]
      rfl
    · rw [content, room.content]
  · exact Or.inr ⟨by rw [append, threw]; rfl, large⟩

/-! ### System calls -/

/-- Unless it throws, `readFd` returns what `readv` returned. -/
theorem readFd_returns {call : Readv} {n : Int} {saved : Option Int} {rest : Buffer}
    (read : b.readFd call = .ok (n, saved, rest)) :
    (∃ errno, call.result = .error errno ∧ n = -1) ∨
      ∃ bytes, call.result = .delivered bytes ∧ n = bytes.length := by
  unfold readFd at read
  split at read
  · rename_i errno failed
    cases read
    exact Or.inl ⟨errno, failed, rfl⟩
  · rename_i bytes delivered
    refine Or.inr ⟨bytes, delivered, ?_⟩
    obtain ⟨filled, _, read⟩ := Except.bind_eq_ok read
    obtain ⟨extrabuf, _, read⟩ := Except.bind_eq_ok read
    split at read
    · cases read
      rfl
    · obtain ⟨appended, _, read⟩ := Except.bind_eq_ok read
      cases read
      rfl

end MiniMuduo.Buffer
