import Proactor.Errno
/-! # How an operation ended

A completion carries a `Status`: success, or the portable reason why the operation failed.

* **Reasons** (`Status.ofErrno`).  Each error number has one status; several numbers share a
  status; a number without one keeps its value in `other`.
* **Wording.**  `Status.name` is the programmer's name, `Status.message` the reader's. -/

namespace Proactor

/-- The portable outcome of an operation on a socket. -/
inductive Status where
  | success
  /-- The operation waits in a queue. -/
  | ioPending
  | wouldBlock
  | inProgress
  | alreadyInProgress
  /-- The socket was torn down before the operation could run. -/
  | shutdown
  | connectionReset
  | connectionRefused
  | connectionAborted
  | notConnected
  | isConnected
  | addressInUse
  | addressNotAvailable
  | networkDown
  | networkUnreachable
  | hostUnreachable
  | timedOut
  | messageSize
  | noBufferSpace
  | accessDenied
  | invalidArgument
  | notSocket
  | operationNotSupported
  | protocolOption
  | addressFamilyNotSupported
  | tooManyOpenSockets
  | interrupted
  | fault
  | brokenPipe
  /-- An error number without a portable meaning. -/
  | other (number : Int)
deriving DecidableEq, Repr, Inhabited

namespace Status

/-- The status of an error number; `0` is success. -/
def ofErrno (number : Int) : Status :=
  match number with
  | 0 => success
  | 11 => wouldBlock
  | 115 => inProgress
  | 114 => alreadyInProgress
  | 108 => shutdown
  | 104 => connectionReset
  | 111 => connectionRefused
  | 103 => connectionAborted
  | 107 => notConnected
  | 106 => isConnected
  | 98 => addressInUse
  | 99 => addressNotAvailable
  | 100 => networkDown
  | 101 | 102 => networkUnreachable
  | 113 | 112 => hostUnreachable
  | 110 => timedOut
  | 90 => messageSize
  | 105 | 12 => noBufferSpace
  | 13 | 1 => accessDenied
  | 22 => invalidArgument
  | 88 | 9 => notSocket
  | 95 | 93 | 94 => operationNotSupported
  | 92 => protocolOption
  | 97 | 96 => addressFamilyNotSupported
  | 24 | 23 => tooManyOpenSockets
  | 4 => interrupted
  | 14 => fault
  | 32 => brokenPipe
  | n => other n

/-- The status of a recognised error. -/
def ofError (e : Errno) : Status := ofErrno e.number

/-- The status of a failed call that reported the number `raw`. -/
def ofRaw (raw : Int) : Status := ofError (Errno.ofRaw raw)

/-- Whether the operation did what was asked. -/
def isSuccess (s : Status) : Bool := s == success

/-- The programmer's name of a status. -/
def name : Status → String
  | success => "Success"
  | ioPending => "IoPending"
  | wouldBlock => "WouldBlock"
  | inProgress => "InProgress"
  | alreadyInProgress => "AlreadyInProgress"
  | shutdown => "Shutdown"
  | connectionReset => "ConnectionReset"
  | connectionRefused => "ConnectionRefused"
  | connectionAborted => "ConnectionAborted"
  | notConnected => "NotConnected"
  | isConnected => "IsConnected"
  | addressInUse => "AddressInUse"
  | addressNotAvailable => "AddressNotAvailable"
  | networkDown => "NetworkDown"
  | networkUnreachable => "NetworkUnreachable"
  | hostUnreachable => "HostUnreachable"
  | timedOut => "TimedOut"
  | messageSize => "MessageSize"
  | noBufferSpace => "NoBufferSpace"
  | accessDenied => "AccessDenied"
  | invalidArgument => "InvalidArgument"
  | notSocket => "NotSocket"
  | operationNotSupported => "OperationNotSupported"
  | protocolOption => "ProtocolOption"
  | addressFamilyNotSupported => "AddressFamilyNotSupported"
  | tooManyOpenSockets => "TooManyOpenSockets"
  | interrupted => "Interrupted"
  | fault => "Fault"
  | brokenPipe => "BrokenPipe"
  | other n => s!"Other({n})"

/-- The wording of a status in messages and log lines. -/
def message : Status → String
  | success => "success"
  | ioPending => "operation pending"
  | wouldBlock => "operation would block"
  | inProgress => "operation in progress"
  | alreadyInProgress => "operation already in progress"
  | shutdown => "socket shut down"
  | connectionReset => "connection reset by peer"
  | connectionRefused => "connection refused"
  | connectionAborted => "connection aborted"
  | notConnected => "socket not connected"
  | isConnected => "socket already connected"
  | addressInUse => "address in use"
  | addressNotAvailable => "address not available"
  | networkDown => "network down"
  | networkUnreachable => "network unreachable"
  | hostUnreachable => "host unreachable"
  | timedOut => "timed out"
  | messageSize => "message too long"
  | noBufferSpace => "no buffer space available"
  | accessDenied => "access denied"
  | invalidArgument => "invalid argument"
  | notSocket => "not a socket"
  | operationNotSupported => "operation not supported"
  | protocolOption => "protocol option not supported"
  | addressFamilyNotSupported => "address family not supported"
  | tooManyOpenSockets => "too many open sockets"
  | interrupted => "interrupted"
  | fault => "bad address"
  | brokenPipe => "broken pipe"
  | other n => s!"socket error: errno {n}"

@[simp] theorem isSuccess_iff (s : Status) : s.isSuccess = true ↔ s = success := by
  simp [isSuccess]

theorem ofErrno_zero : ofErrno 0 = success := rfl

end Status
end Proactor
