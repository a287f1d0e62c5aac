import MiniMuduo.Library.ForwardCopy
import Mathlib.Algebra.Group.Nat.Defs

/-! `Buffer.hpp` and `Buffer.cc`: one vector of chars, two indices into it.

`size_t` is `UInt64`, so that every sum and difference wraps as it does in the
source. The vector is a list; each access of it is checked, and an access outside
is the fault `outOfBounds`, so that undefined behaviour is visible. Allocation
succeeds up to `vector::max_size()` and throws `std::length_error` above it. -/
namespace MiniMuduo

abbrev Byte := UInt8

/-- How a call can fail to return normally. -/
inductive Fault where
  /-- `std::length_error`, thrown before anything has changed. -/
  | lengthError
  /-- A read or write outside the array it is meant for. -/
  | outOfBounds
  deriving DecidableEq, Repr

/-- `std::vector<char>::max_size()`. -/
def vectorMaxSize : Nat := 2 ^ 63 - 1

/-- `std::vector<char>::resize`: new elements are zero. -/
def vectorResize (vector : List Byte) (size : UInt64) : Except Fault (List Byte) :=
  if vectorMaxSize < size.toNat then .error .lengthError
  else .ok (vector.take size.toNat ++ List.replicate (size.toNat - vector.length) 0)

/-- A checked copy as a step of a call. -/
def inBounds (copied : Option (List Byte)) : Except Fault (List Byte) :=
  match copied with
  | some array => .ok array
  | none => .error .outOfBounds

/-- `Buffer`: prependable bytes up to `readerIndex`, the content up to
`writerIndex`, writable bytes behind it. -/
structure Buffer where
  buffer : List Byte
  readerIndex : UInt64
  writerIndex : UInt64
  deriving DecidableEq, Repr

/-- What `readv(2)` answers: an errno, or the bytes it delivered. -/
inductive ReadvResult where
  | error (errno : Int)
  | delivered (bytes : List Byte)
  deriving DecidableEq, Repr

/-- One `readv(2)` made by `readFd`, with what the uninitialised stack array
`extrabuf` held before it. -/
structure Readv where
  extrabuf : List Byte
  result : ReadvResult
  deriving DecidableEq, Repr

/-- What `write(2)` answers: an errno, or how many bytes the socket accepted. -/
inductive WriteResult where
  | error (errno : Int)
  | accepted (count : Nat)
  deriving DecidableEq, Repr

namespace Buffer

def kCheapPrepend : UInt64 := 8

def kInitialSize : UInt64 := 1024

/-- `sizeof extrabuf`. -/
def extrabufSize : UInt64 := 65536

/-- `Buffer::Buffer(size_t initialSize)`. -/
def new (initialSize : UInt64) : Except Fault Buffer := do
  let vector ← vectorResize [] (kCheapPrepend + initialSize)
  return ⟨vector, kCheapPrepend, kCheapPrepend⟩

/-- `buffer_.size()`. -/
def size (b : Buffer) : UInt64 := UInt64.ofNat b.buffer.length

def readableBytes (b : Buffer) : UInt64 := b.writerIndex - b.readerIndex

def writableBytes (b : Buffer) : UInt64 := b.size - b.writerIndex

def prependableBytes (b : Buffer) : UInt64 := b.readerIndex

/-- `peek()`, as an offset into the vector. -/
def peek (b : Buffer) : Nat := b.readerIndex.toNat

/-- `beginWrite()`, as an offset into the vector. -/
def beginWrite (b : Buffer) : Nat := b.writerIndex.toNat

/-- The bytes in `[readerIndex_, writerIndex_)`. -/
def content (b : Buffer) : List Byte := (b.buffer.drop b.peek).take b.readableBytes.toNat

def retrieveAll (b : Buffer) : Buffer :=
  { b with readerIndex := kCheapPrepend, writerIndex := kCheapPrepend }

def retrieve (b : Buffer) (len : UInt64) : Buffer :=
  if len < b.readableBytes then { b with readerIndex := b.readerIndex + len }
  else b.retrieveAll

/-- The format string of the error `retrieveAsString` logs; its arguments are
`__FILE__`, `__FUNCTION__` and `__LINE__`. -/
def retrieveError : String := "reading len more than len of readable error in %s:%s:%d"

/-- A returned string, what was logged at ERROR level, and the buffer left. -/
structure Retrieved where
  text : List Byte
  errors : List String
  rest : Buffer
  deriving DecidableEq, Repr

/-- `std::string result(peek(), len)`. -/
def stringAt (b : Buffer) (len : UInt64) : Except Fault (List Byte) :=
  inBounds (ForwardCopy.copyFrom b.buffer (List.replicate len.toNat 0) b.peek 0 len.toNat)

def retrieveAsString (b : Buffer) (len : UInt64) : Except Fault Retrieved :=
  if len ≤ b.readableBytes then do
    let result ← b.stringAt len
    return ⟨result, [], b.retrieve len⟩
  else return ⟨[32], [retrieveError], b⟩ -- the string " "

def retrieveAllAsString (b : Buffer) : Except Fault Retrieved :=
  b.retrieveAsString b.readableBytes

/-- `std::copy(begin() + readerIndex_, begin() + writerIndex_, begin() + kCheapPrepend)`,
then the two index assignments. -/
def compact (b : Buffer) : Except Fault Buffer := do
  let readable := b.readableBytes
  let moved ← inBounds (ForwardCopy.copyWithin b.buffer b.readerIndex.toNat
    kCheapPrepend.toNat readable.toNat)
  return ⟨moved, kCheapPrepend, kCheapPrepend + readable⟩

def makeSpace (b : Buffer) (len : UInt64) : Except Fault Buffer :=
  if b.writableBytes + b.prependableBytes ≤ len + kCheapPrepend then do
    let grown ← vectorResize b.buffer (b.writerIndex + len)
    return { b with buffer := grown }
  else if kCheapPrepend < b.readerIndex then b.compact
  else return b

def ensureWritableBytes (b : Buffer) (len : UInt64) : Except Fault Buffer :=
  if b.writableBytes < len then b.makeSpace len else return b

def append (b : Buffer) (data : List Byte) (len : UInt64) : Except Fault Buffer := do
  let roomy ← b.ensureWritableBytes len
  let written ← inBounds (ForwardCopy.copyFrom data roomy.buffer 0 roomy.beginWrite len.toNat)
  return { roomy with buffer := written, writerIndex := roomy.writerIndex + len }

/-- `readFd`: the returned `ssize_t`, what is stored through `saveError` (if
anything), and the buffer left. The kernel fills the tail first. -/
def readFd (b : Buffer) (call : Readv) : Except Fault (Int × Option Int × Buffer) :=
  match call.result with
  | .error errno => return (-1, some errno, b)
  | .delivered bytes => do
    let writable := b.writableBytes
    let n := UInt64.ofNat bytes.length
    let inTail := min bytes.length writable.toNat
    let filled ← inBounds (ForwardCopy.copyFrom bytes b.buffer 0 b.beginWrite inTail)
    let extrabuf ← inBounds (ForwardCopy.copyFrom bytes call.extrabuf inTail 0
      (bytes.length - inTail))
    if n < writable then
      return (bytes.length, none, ⟨filled, b.readerIndex, b.writerIndex + n⟩)
    else do
      let full : Buffer := ⟨filled, b.readerIndex, UInt64.ofNat filled.length⟩
      let appended ← full.append extrabuf (n - writable)
      return (bytes.length, none, appended)

/-- What `readFd` leaves behind when its `append` throws: the tail is filled and
`writerIndex_` is at the end. -/
def readFdThrown (b : Buffer) (call : Readv) : Buffer :=
  match call.result with
  | .error _ => b
  | .delivered bytes =>
    match ForwardCopy.copyFrom bytes b.buffer 0 b.beginWrite
      (min bytes.length b.writableBytes.toNat) with
    | some filled => ⟨filled, b.readerIndex, UInt64.ofNat filled.length⟩
    | none => b

/-- The total length of what `readFd` offers to `readv`: the tail of the vector,
and `extrabuf` when that is longer than the tail. -/
def offered (b : Buffer) : Nat :=
  let writable := b.writableBytes
  if writable < extrabufSize then writable.toNat + extrabufSize.toNat else writable.toNat

/-- `writeFd`: the returned `ssize_t` and what is stored through `saveError`. -/
def writeFd (_b : Buffer) (result : WriteResult) : Int × Option Int :=
  match result with
  | .error errno => (-1, some errno)
  | .accepted count => (count, none)

/-- The bytes a `write(2)` of `peek()` and `readableBytes()` hands to the socket. -/
def written (b : Buffer) (result : WriteResult) : List Byte :=
  match result with
  | .error _ => []
  | .accepted count => b.content.take count

end Buffer
end MiniMuduo
