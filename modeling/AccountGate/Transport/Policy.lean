import AccountGate.Transport.Message

/-!
How long to wait for an answer and how often to try. Times are in seconds.
-/

namespace AccountGate.Transport

structure Policy where
  connectTimeout : Nat := 15
  timeout : Nat := 20
  maxRetry : Nat := 3
  retryDelay : Nat := 5
  headers : Headers := []
  deriving DecidableEq, Repr

end AccountGate.Transport
