/-! The tunable limits of the library and the error codes it returns. -/

namespace Pittacus

/-- Version number every member of the cluster announces. -/
def protocolVersion : UInt16 := 0x01

/-- The interval in milliseconds between retry attempts. -/
def messageRetryInterval : Nat := 10000

/-- The maximum number of attempts to deliver a message. -/
def messageRetryAttempts : Nat := 3

/-- The number of members that are used for further gossip propagation. -/
def messageRumorFactor : Nat := 3

/-- The maximum supported size of the message including a protocol overhead. -/
def messageMaxSize : Nat := 512

/-- The maximum number of unique messages that can be stored in the outbound message queue. -/
def maxOutputMessages : Nat := 100

/-- The time interval in milliseconds between gossip ticks. -/
def gossipTickInterval : Nat := 1000

/-- The number of originators whose latest message is kept. -/
def dataLogSize : Nat := 25

/-- The number of records a vector clock has room for. -/
def maxVectorSize : Nat := 20

/-- Size in bytes of the platform's `struct sockaddr_storage`. -/
def sockaddrStorageSize : Nat := 128

/-- Reasons a call can fail for. -/
inductive PittacusError where
  | initFailed
  | allocationFailed
  | badState
  | invalidMessage
  | bufferNotEnough
  | notFound
  | writeFailed
  | readFailed
  deriving DecidableEq, Repr

/-- The value returned for an error; `0` is left for success. -/
def PittacusError.code : PittacusError → Int
  | .initFailed => -1
  | .allocationFailed => -2
  | .badState => -3
  | .invalidMessage => -4
  | .bufferNotEnough => -5
  | .notFound => -6
  | .writeFailed => -7
  | .readFailed => -8

/-- The value returned on success by calls with nothing else to report. -/
def errNone : Int := 0

/-- Every error is told apart from success, and from any count, by its sign. -/
theorem PittacusError.code_neg (error : PittacusError) : error.code < 0 := by
  cases error <;> decide

end Pittacus
