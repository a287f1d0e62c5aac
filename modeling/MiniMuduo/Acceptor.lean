import MiniMuduo.EPollPoller

/-! `Acceptor::handleRead`, `Socket::accept` and the part of `InetAddress.hpp` that they use.
What the locals of `Socket::accept` hold before they are written is an input, and so is what
waits at the listening socket. -/
namespace MiniMuduo

/-- A `sockaddr_in`, by its bytes. -/
@[ext]
structure SockaddrIn where
  bytes : List UInt8
  whole : bytes.length = 16
  deriving DecidableEq

namespace SockaddrIn

/-- `bzero(&addr, sizeof addr)`. -/
def bzero (_addr : SockaddrIn) : SockaddrIn where
  bytes := List.replicate 16 0
  whole := List.length_replicate

/-- The first bytes are overwritten with those of another address. -/
def overwrite (addr other : SockaddrIn) (count : Nat) : SockaddrIn where
  bytes := other.bytes.take count ++ addr.bytes.drop count
  whole := by
    rw [List.length_append, List.length_take, List.length_drop, addr.whole, other.whole]
    omega

end SockaddrIn

structure InetAddress where
  addr : SockaddrIn
  deriving DecidableEq

namespace InetAddress

/-- `InetAddress()`: family `AF_INET`, port 0, and 127.0.0.1 in network order. -/
def loopback : InetAddress where
  addr :=
    { bytes := [2, 0, 0, 0, 127, 0, 0, 1, 0, 0, 0, 0, 0, 0, 0, 0]
      whole := rfl }

def setSockAddr (_peer : InetAddress) (addr : SockaddrIn) : InetAddress := ⟨addr⟩

end InetAddress

/-- A connection that waits to be accepted: the descriptor it will get, and its peer. -/
structure PendingConnection where
  descriptor : Nat
  peer : SockaddrIn

def einval : Errno := 22
def emfile : Errno := 24

/-- `accept(2)` with `*addrlen = len`: the descriptor or -1, `errno`, and `addr` as it is
written. A negative length fails; else as much of the peer's address is written as fits. -/
def acceptCall (queue : Except Errno PendingConnection) (errno : Errno) (addr : SockaddrIn)
    (len : UInt32) : Int × Errno × SockaddrIn :=
  match queue with
  | .error failure => (-1, failure, addr)
  | .ok pending =>
    if len.toInt32.toInt < 0 then (-1, einval, addr)
    else (pending.descriptor, errno, addr.overwrite pending.peer (min len.toNat 16))

/-- The locals of `Socket::accept`, with what the stack holds in their place. -/
structure AcceptLocals where
  addr : SockaddrIn
  len : UInt32
  deriving DecidableEq

/-- `Socket::accept`, which never writes `len`: the descriptor, `errno`, and `*peeraddr`. -/
def Socket.accept (queue : Except Errno PendingConnection) (errno : Errno)
    (locals : AcceptLocals) (peeraddr : InetAddress) : Int × Errno × InetAddress :=
  let (connfd, errno, addr) := acceptCall queue errno locals.addr.bzero locals.len
  (connfd, errno, if 0 ≤ connfd then peeraddr.setSockAddr addr else peeraddr)

/-- What `Acceptor::handleRead` does. -/
inductive AcceptorEffect where
  | newConnection (sockfd : Int) (peer : InetAddress)
  | close (sockfd : Int)
  | logError (text : String)
  deriving DecidableEq

namespace Acceptor

/-- The errors that are logged; the place stands as in the format string. -/
def acceptError (errno : Errno) : String := s!"%s : %s : %d accept err: {errno}\n"
def limitError (errno : Errno) : String := s!"%s : %s : %d sockfd reached limit: {errno}\n"

/-- `Acceptor::handleRead`, with or without a `NewConnectionCallBack_`. -/
def handleRead (hasCallback : Bool) (queue : Except Errno PendingConnection) (errno : Errno)
    (locals : AcceptLocals) : List AcceptorEffect :=
  let (connfd, errno, peerAddr) := Socket.accept queue errno locals InetAddress.loopback
  if 0 ≤ connfd then
    if hasCallback then [.newConnection connfd peerAddr] else [.close connfd]
  else if errno = emfile then [.logError (acceptError errno), .logError (limitError errno)]
  else [.logError (acceptError errno)]

end Acceptor
end MiniMuduo
