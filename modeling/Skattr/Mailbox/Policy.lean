import Mathlib.Algebra.Order.Ring.Unbundled.Rat
import Mathlib.Tactic.Linarith
import Skattr.Mailbox.Protocol

/-!
# Operator policy and rate limits

The operator's caps, the resolution of a requested time to live, and the token buckets that limit
deposits and fetches. Bucket levels and wall-clock seconds, floating-point numbers in the server,
are rational here.
-/

namespace Skattr.Mailbox

structure Policy where
  maxDepositSize : Nat
  minTtlSecs : Nat
  maxTtlSecs : Nat
  defaultTtlSecs : Nat
  recipientCapBytes : Nat
  perConnDepositsPerMin : Nat
  perConnFetchesPerMin : Nat
  globalDepositsPerMin : Nat
  globalStorageCapBytes : Nat
  maxRecipients : Nat
  idleTimeoutSecs : Nat
  maxConnections : Nat
  maxDeleteIds : Nat

def Policy.recommended : Policy where
  maxDepositSize := 1048576
  minTtlSecs := 3600
  maxTtlSecs := 2592000
  defaultTtlSecs := 604800
  recipientCapBytes := 268435456
  perConnDepositsPerMin := 30
  perConnFetchesPerMin := 6
  globalDepositsPerMin := 1000
  globalStorageCapBytes := 4 * 1024 * 1024 * 1024
  maxRecipients := 100000
  idleTimeoutSecs := 120
  maxConnections := 512
  maxDeleteIds := 1024

def Policy.resolveTtl (policy : Policy) (ttlRequest : UInt32) : Except MailboxError Nat :=
  if ttlRequest = 0 then .ok policy.defaultTtlSecs
  else if ttlRequest.toNat < policy.minTtlSecs then .error (.policy .ttlTooShort)
  else if ttlRequest.toNat > policy.maxTtlSecs then .error (.policy .ttlTooLong)
  else .ok ttlRequest.toNat

/-- A token bucket that refills over wall time. -/
structure TokenBucket where
  capacity : ℚ
  fillPerSec : ℚ
  available : ℚ
  lastRefill : ℚ

def TokenBucket.new (tokensPerMin : Nat) (nowSecs : ℚ) : TokenBucket where
  capacity := tokensPerMin
  fillPerSec := tokensPerMin / 60
  available := tokensPerMin
  lastRefill := nowSecs

/-- The bucket after the refill that precedes an attempt to take a token. -/
def TokenBucket.refill (bucket : TokenBucket) (nowSecs : ℚ) : TokenBucket :=
  let elapsed := max (nowSecs - bucket.lastRefill) 0
  { bucket with
    available := min (bucket.available + elapsed * bucket.fillPerSec) bucket.capacity
    lastRefill := nowSecs }

def TokenBucket.tryAcquire (bucket : TokenBucket) (nowSecs : ℚ) :
    Except MailboxError Unit × TokenBucket :=
  let refilled := bucket.refill nowSecs
  if refilled.available ≥ 1 then
    (.ok (), { refilled with available := refilled.available - 1 })
  else
    (.error (.policy .rateLimited), refilled)

structure ConnRateLimiter where
  deposits : TokenBucket
  fetches : TokenBucket

def ConnRateLimiter.fromPolicy (policy : Policy) (nowSecs : ℚ) : ConnRateLimiter where
  deposits := TokenBucket.new policy.perConnDepositsPerMin nowSecs
  fetches := TokenBucket.new policy.perConnFetchesPerMin nowSecs

theorem TokenBucket.tryAcquire_same_time {bucket : TokenBucket}
    (hone : 1 ≤ bucket.available) (hcap : bucket.available ≤ bucket.capacity) :
    bucket.tryAcquire bucket.lastRefill =
      (.ok (), { bucket with available := bucket.available - 1 }) := by
  have hrefill : bucket.refill bucket.lastRefill = bucket := by
    simp [TokenBucket.refill, min_eq_left hcap]
  simp [TokenBucket.tryAcquire, hrefill, hone]

end Skattr.Mailbox
