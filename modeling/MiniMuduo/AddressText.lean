import MiniMuduo.Acceptor
import MiniMuduo.Library.Numeral
import Mathlib.Algebra.Group.Nat.Defs
import Mathlib.Data.List.Induction
import Mathlib.Data.List.TakeWhile

/-! `InetAddress.cc`: addresses and their texts. The constructor reads a dotted text with
`inet_addr`, in any of its notations; `toIp` and `toIpPort` print the plain one into arrays
of 64 chars. -/
namespace MiniMuduo
open Numeral

/-- So many bytes of a number, the most significant first. -/
def bigEndian : Nat → Nat → List UInt8
  | 0, _ => []
  | count + 1, n => bigEndian count (n / 256) ++ [UInt8.ofNat n]

/-- The number that these bytes are, the most significant first. -/
def fromBigEndian (bytes : List UInt8) : Nat := bytes.foldl (fun n byte => 256 * n + byte.toNat) 0

/-- `isspace`, in the C locale. -/
def isspace (c : Char) : Bool := c = ' ' || (9 ≤ c.toNat && c.toNat ≤ 13)

/-- `inet_aton(3)`: up to four numbers with dots between them, in any base of C; all but the
last are one byte, and the last is all the bytes that are left. White space ends the text.
`more` is how many dots may still come. -/
def inetAton (read : Nat) (more : Nat) (cp : List Char) : Option Nat :=
  if cp.head?.any Char.isDigit then
    let (val, rest) := strtoul cp
    match more, rest with
    | more + 1, '.' :: rest => if val ≤ 0xff then inetAton (256 * read + val) more rest else none
    | more, rest =>
      if (rest.head?.all isspace) ∧ val < 256 ^ (more + 1) then
        some (256 ^ (more + 1) * read + val)
      else none
  else none

/-- `INADDR_NONE`, which is 255.255.255.255. -/
def inaddrNone : Nat := 0xffffffff

/-- `inet_addr(ip.c_str())`, as the number whose bytes it stores. -/
def inetAddr (ip : String) : Nat :=
  (inetAton 0 3 (ip.toList.takeWhile (· ≠ Char.ofNat 0))).getD inaddrNone

/-- `inet_ntop(AF_INET, ..)`. -/
def inetNtop (bytes : List UInt8) : List Char :=
  List.intercalate ['.'] (bytes.map fun byte => print byte.toNat)

@[simp] theorem bigEndian_length (count n : Nat) : (bigEndian count n).length = count := by
  induction count generalizing n with
  | zero => rfl
  | succ count ih => simp [bigEndian, ih]

namespace InetAddress

/-- `InetAddress::InetAddress(uint16_t port, std::string ip)`. -/
def new (port : UInt16) (ip : String) : InetAddress where
  addr :=
    { bytes := [2, 0] ++ bigEndian 2 port.toNat ++ bigEndian 4 (inetAddr ip) ++ List.replicate 8 0
      whole := by simp }

/-- The bytes of `addr_.sin_addr`. -/
def sinAddr (a : InetAddress) : List UInt8 := (a.addr.bytes.drop 4).take 4

def port (a : InetAddress) : UInt16 := UInt16.ofNat (fromBigEndian ((a.addr.bytes.drop 2).take 2))

def toIp (a : InetAddress) : String := String.ofList (inetNtop a.sinAddr)

def toIpPort (a : InetAddress) : String :=
  String.ofList (inetNtop a.sinAddr ++ ':' :: print a.port.toNat)

example : new 0 "127.0.0.1" = loopback := by decide +kernel

example : (new 80 "0x7f.1").toIpPort = "127.0.0.1:80" := by decide +kernel

end InetAddress

/-! ### Bytes and numbers -/

theorem fromBigEndian_snoc (bytes : List UInt8) (byte : UInt8) :
    fromBigEndian (bytes ++ [byte]) = 256 * fromBigEndian bytes + byte.toNat := by
  simp [fromBigEndian]

theorem bigEndian_fromBigEndian (bytes : List UInt8) :
    bigEndian bytes.length (fromBigEndian bytes) = bytes := by
  induction bytes using List.reverseRecOn with
  | nil => rfl
  | append_singleton bytes byte ih =>
    have small := byte.toNat_lt
    have quotient : (256 * fromBigEndian bytes + byte.toNat) / 256 = fromBigEndian bytes := by
      omega
    have last : UInt8.ofNat (256 * fromBigEndian bytes + byte.toNat) = byte := by
      apply UInt8.toNat_inj.mp
      rw [UInt8.toNat_ofNat']
      omega
    rw [List.length_append, List.length_singleton, bigEndian, fromBigEndian_snoc, quotient, last,
      ih]

theorem fromBigEndian_bigEndian {count n : Nat} (small : n < 256 ^ count) :
    fromBigEndian (bigEndian count n) = n := by
  induction count generalizing n with
  | zero =>
    have zero : n = 0 := by omega
    rw [zero]
    rfl
  | succ count ih =>
    rw [Nat.pow_succ] at small
    rw [bigEndian, fromBigEndian_snoc, ih (by omega), UInt8.toNat_ofNat']
    omega

theorem fromBigEndian_lt (bytes : List UInt8) : fromBigEndian bytes < 256 ^ bytes.length := by
  induction bytes using List.reverseRecOn with
  | nil => decide
  | append_singleton bytes byte ih =>
    have small := byte.toNat_lt
    rw [fromBigEndian_snoc, List.length_append, List.length_singleton, Nat.pow_succ]
    omega

/-! ### Dotted texts -/

variable {read more val : Nat} {rest : List Char} {bytes other : List UInt8}

private theorem print_any_digit (n : Nat) (rest : List Char) :
    (print n ++ rest).head?.any Char.isDigit = true := by
  cases printed : print n with
  | nil => exact absurd printed Nat.toDigits_ne_nil
  | cons c more => exact print_digits n c (by rw [printed]; exact List.mem_cons_self)

theorem stops_dot : Stops ('.' :: rest) := stops_cons (by decide)

theorem inetAton_byte (byte : UInt8) :
    inetAton read (more + 1) (print byte.toNat ++ '.' :: rest) =
      inetAton (256 * read + byte.toNat) more rest := by
  have small : byte.toNat ≤ 0xff := Nat.le_of_lt_succ byte.toNat_lt
  rw [inetAton, if_pos (print_any_digit _ _), strtoul_print _ stops_dot]
  simp only [if_pos small]

theorem inetAton_last (byte : UInt8) :
    inetAton read 0 (print byte.toNat) = some (256 * read + byte.toNat) := by
  have digits := print_any_digit byte.toNat []
  have number := strtoul_print byte.toNat stops_nil
  rw [List.append_nil] at digits number
  rw [inetAton, if_pos digits, number]
  simp [byte.toNat_lt]

theorem inetNtop_cons (byte next : UInt8) (bytes : List UInt8) :
    inetNtop (byte :: next :: bytes) = print byte.toNat ++ '.' :: inetNtop (next :: bytes) := by
  simp [inetNtop, List.intercalate]

/-- The plain notation is read byte by byte. -/
theorem inetAton_inetNtop (byte : UInt8) (bytes : List UInt8) (read : Nat) :
    inetAton read bytes.length (inetNtop (byte :: bytes)) =
      some ((byte :: bytes).foldl (fun n byte => 256 * n + byte.toNat) read) := by
  induction bytes generalizing byte read with
  | nil => simpa [inetNtop] using inetAton_last byte
  | cons next bytes ih =>
    rw [inetNtop_cons, List.length_cons, inetAton_byte, ih]
    rfl

/-- A dotted text has digits and dots, and up to four chars for each byte. -/
theorem inetNtop_shape (bytes : List UInt8) :
    (∀ c ∈ inetNtop bytes, c.isDigit = true ∨ c = '.') ∧
      (inetNtop bytes).length ≤ 4 * bytes.length := by
  have digits (byte : UInt8) : (print byte.toNat).length ≤ 3 :=
    print_length (by decide) (Nat.lt_of_lt_of_le byte.toNat_lt (by decide))
  induction bytes with
  | nil => exact ⟨nofun, Nat.le_refl 0⟩
  | cons byte bytes ih =>
    cases bytes with
    | nil =>
      have single : inetNtop [byte] = print byte.toNat := by simp [inetNtop]
      rw [single]
      refine ⟨fun c member => Or.inl (print_digits _ c member), ?_⟩
      exact Nat.le_trans (digits byte) (Nat.le_succ 3)
    | cons next bytes =>
      rw [inetNtop_cons, List.length_append, List.length_cons, List.length_cons]
      constructor
      · intro c member
        rcases List.mem_append.mp member with here | (_ | ⟨_, there⟩)
        · exact Or.inl (print_digits _ c here)
        · exact Or.inr rfl
        · exact ih.1 c there
      · have short := digits byte
        have more := ih.2
        omega

/-- Four bytes, printed and read. -/
theorem inetAton_four (four : bytes.length = 4) :
    inetAton 0 3 (inetNtop bytes) = some (fromBigEndian bytes) := by
  match bytes, four with
  | [a, b, c, d], _ => exact inetAton_inetNtop a [b, c, d] 0

theorem inetNtop_inj (four : bytes.length = 4) (four' : other.length = 4)
    (same : inetNtop bytes = inetNtop other) : bytes = other := by
  have number : fromBigEndian bytes = fromBigEndian other := by
    rw [← Option.some_inj, ← inetAton_four four, same, inetAton_four four']
  rw [← bigEndian_fromBigEndian bytes, ← bigEndian_fromBigEndian other, number, four, four']

namespace InetAddress

variable {a b : InetAddress} {port : UInt16} {ip : String}

theorem sinAddr_length (a : InetAddress) : a.sinAddr.length = 4 := by
  simp [sinAddr, a.addr.whole]

/-- The address of a text that was printed is the one that was printed. -/
theorem inetAddr_toIp (a : InetAddress) : inetAddr a.toIp = fromBigEndian a.sinAddr := by
  have whole : (inetNtop a.sinAddr).takeWhile (· ≠ Char.ofNat 0) = inetNtop a.sinAddr := by
    refine List.takeWhile_eq_self_iff.mpr fun c member => ?_
    rcases (inetNtop_shape a.sinAddr).1 c member with digit | rfl
    · simp only [ne_eq, decide_not, Bool.not_eq_eq_eq_not, Bool.not_true, decide_eq_false_iff_not]
      rintro rfl
      exact absurd digit (by decide)
    · decide
  rw [inetAddr, toIp, String.toList_ofList, whole, inetAton_four (sinAddr_length a),
    Option.getD_some]

/-- The two bytes of `addr_.sin_port`. -/
def sinPort (a : InetAddress) : List UInt8 := (a.addr.bytes.drop 2).take 2

theorem sinPort_length (a : InetAddress) : a.sinPort.length = 2 := by
  simp [sinPort, a.addr.whole]

theorem port_toNat (a : InetAddress) : a.port.toNat = fromBigEndian a.sinPort := by
  have small := fromBigEndian_lt a.sinPort
  rw [sinPort_length] at small
  exact UInt16.toNat_ofNat_of_lt' small

/-- An address in four parts. -/
theorem bytes_eq (a : InetAddress) :
    a.addr.bytes = a.addr.bytes.take 2 ++ a.sinPort ++ a.sinAddr ++ a.addr.bytes.drop 8 := by
  have behind (count skip : Nat) : a.addr.bytes.drop skip =
      (a.addr.bytes.drop skip).take count ++ a.addr.bytes.drop (skip + count) := by
    rw [← List.drop_drop, List.take_append_drop]
  calc a.addr.bytes = a.addr.bytes.take 2 ++ a.addr.bytes.drop 2 :=
        (List.take_append_drop 2 _).symm
    _ = a.addr.bytes.take 2 ++ (a.sinPort ++ a.addr.bytes.drop 4) := by rw [behind 2 2]; rfl
    _ = a.addr.bytes.take 2 ++ (a.sinPort ++ (a.sinAddr ++ a.addr.bytes.drop 8)) := by
        rw [behind 4 4]
        rfl
    _ = a.addr.bytes.take 2 ++ a.sinPort ++ a.sinAddr ++ a.addr.bytes.drop 8 := by
        simp only [List.append_assoc]

/-- What the constructor makes of an address's own port and text. -/
theorem new_own_text (a : InetAddress) : (new a.port a.toIp).addr.bytes =
    [2, 0] ++ a.sinPort ++ a.sinAddr ++ List.replicate 8 0 := by
  have port := bigEndian_fromBigEndian a.sinPort
  have address := bigEndian_fromBigEndian a.sinAddr
  rw [sinPort_length] at port
  rw [sinAddr_length] at address
  simp only [new, port_toNat, inetAddr_toIp, port, address]

theorem new_sinPort (port : UInt16) (ip : String) :
    (new port ip).sinPort = bigEndian 2 port.toNat := by
  have skip : ([2, 0] ++ bigEndian 2 port.toNat ++ bigEndian 4 (inetAddr ip) ++
      List.replicate 8 (0 : UInt8)).drop 2 =
        bigEndian 2 port.toNat ++ (bigEndian 4 (inetAddr ip) ++ List.replicate 8 0) := by simp
  rw [sinPort, new, skip, List.take_left' (bigEndian_length 2 _)]

theorem new_port (port : UInt16) (ip : String) : (new port ip).port = port := by
  apply UInt16.toNat_inj.mp
  rw [port_toNat, new_sinPort, fromBigEndian_bigEndian port.toNat_lt]

/-- An address that the constructor could have made. -/
def Plain (a : InetAddress) : Prop :=
  a.addr.bytes.take 2 = [2, 0] ∧ a.addr.bytes.drop 8 = List.replicate 8 0

theorem own_text_iff (a : InetAddress) : new a.port a.toIp = a ↔ a.Plain := by
  constructor
  · intro same
    have bytes := new_own_text a
    rw [same] at bytes
    refine ⟨by rw [bytes]; rfl, ?_⟩
    have front : ([2, 0] ++ a.sinPort ++ a.sinAddr).length = 8 := by
      simp [sinPort_length, sinAddr_length]
    rw [bytes, List.drop_left' front]
  · rintro ⟨family, padding⟩
    have bytes := bytes_eq a
    rw [family, padding, ← new_own_text] at bytes
    exact congrArg InetAddress.mk (SockaddrIn.ext bytes.symm)

theorem new_plain (port : UInt16) (ip : String) : (new port ip).Plain := by
  have front : ([2, 0] ++ bigEndian 2 port.toNat ++ bigEndian 4 (inetAddr ip)).length = 8 := by simp
  exact ⟨rfl, List.drop_left' front⟩

/-- An address is its port and its text exactly if it is an `AF_INET` address whose padding
is zero; the constructor keeps every port, and what it makes of any text at all is stable:
printed and read again it is the same address. -/
theorem text_round_trips (a : InetAddress) (port : UInt16) (ip : String) :
    (new a.port a.toIp = a ↔ a.Plain) ∧ (new port ip).port = port ∧
      new port (new port ip).toIp = new port ip := by
  have own := (own_text_iff (new port ip)).mpr (new_plain port ip)
  rw [new_port] at own
  exact ⟨own_text_iff a, new_port port ip, own⟩

/-- The colon is where the address ends. -/
theorem toIpPort_span (a : InetAddress) :
    a.toIpPort.toList.takeWhile (· ≠ ':') = inetNtop a.sinAddr ∧
      a.toIpPort.toList.dropWhile (· ≠ ':') = ':' :: print a.port.toNat := by
  have before : ∀ c ∈ inetNtop a.sinAddr, decide (c ≠ ':') = true := by
    intro c member
    rcases (inetNtop_shape a.sinAddr).1 c member with digit | rfl
    · rw [decide_eq_true_eq]
      rintro rfl
      exact absurd digit (by decide)
    · decide
  rw [toIpPort, String.toList_ofList, List.takeWhile_append_of_pos before,
    List.dropWhile_append_of_pos before]
  simp

/-- Addresses with the same `toIpPort` have the same port and the same four bytes, and no
text is longer than the array that it is printed into, with the NUL behind it. -/
theorem toIpPort_tells_apart (a b : InetAddress) :
    (a.toIpPort = b.toIpPort ↔ a.port = b.port ∧ a.sinAddr = b.sinAddr) ∧
      a.toIp.length < 64 ∧ a.toIpPort.length < 64 := by
  refine ⟨⟨?_, ?_⟩, ?_⟩
  · intro same
    obtain ⟨address, port⟩ := toIpPort_span a
    rw [same, (toIpPort_span b).1] at address
    rw [same, (toIpPort_span b).2] at port
    have number := congrArg (value 10) (List.cons.inj port).2
    rw [value_print, value_print] at number
    exact ⟨UInt16.toNat_inj.mp number.symm,
      inetNtop_inj (sinAddr_length a) (sinAddr_length b) address.symm⟩
  · rintro ⟨port, address⟩
    rw [toIpPort, toIpPort, port, address]
  · have dotted := (inetNtop_shape a.sinAddr).2
    have digits : (print a.port.toNat).length ≤ 5 :=
      print_length (by decide) (Nat.lt_of_lt_of_le a.port.toNat_lt (by decide))
    rw [sinAddr_length] at dotted
    rw [toIp, toIpPort, String.length_ofList, String.length_ofList, List.length_append,
      List.length_cons]
    omega

end InetAddress
end MiniMuduo
