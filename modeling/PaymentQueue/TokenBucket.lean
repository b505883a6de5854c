import Mathlib.Data.Rat.Floor

/-!
# PaymentQueue.TokenBucket

The per-gateway token bucket of `queue/token-bucket.ts`, in exact arithmetic.
Every method that reads the clock takes the reading as an argument (`Date.now()`,
in milliseconds).
-/

namespace PaymentQueue

/-- `TokenBucket`. -/
structure TokenBucket where
  baseCapacity : ℚ
  baseRefillPerSec : ℚ
  minCapacityFraction : ℚ
  tokens : ℚ
  lastRefillMs : Int
  currentCapacity : ℚ
  currentRefillPerSec : ℚ

namespace TokenBucket

/-- The constructor. -/
def new (now : Int) (baseCapacity baseRefillPerSec : ℚ)
    (minCapacityFraction : ℚ := 1 / 5) : TokenBucket where
  baseCapacity := baseCapacity
  baseRefillPerSec := baseRefillPerSec
  minCapacityFraction := minCapacityFraction
  tokens := baseCapacity
  lastRefillMs := now
  currentCapacity := baseCapacity
  currentRefillPerSec := baseRefillPerSec

variable (t : TokenBucket)

/-- `refill`. -/
def refill (now : Int) : TokenBucket :=
  let elapsedSec : ℚ := ((now - t.lastRefillMs : Int) : ℚ) / 1000
  if elapsedSec ≤ 0 then t
  else
    { t with
      tokens := min t.currentCapacity (t.tokens + elapsedSec * t.currentRefillPerSec)
      lastRefillMs := now }

/-- `tryConsume`. -/
def tryConsume (now : Int) (cost : ℚ := 1) : Bool × TokenBucket :=
  let t := t.refill now
  if t.tokens ≥ cost then (true, { t with tokens := t.tokens - cost })
  else (false, t)

/-- `msUntilAvailable`. -/
def msUntilAvailable (now : Int) (cost : ℚ := 1) : Int × TokenBucket :=
  let t := t.refill now
  if t.tokens ≥ cost then (0, t)
  else (⌈(cost - t.tokens) / t.currentRefillPerSec * 1000⌉, t)

/-- `Math.round`: halves go up. -/
def round (x : ℚ) : Int := ⌊x + 1 / 2⌋

/-- `adapt`: shrink capacity and refill rate by the severity of the failures. -/
def adapt (severity : ℚ) : TokenBucket :=
  let clamped := max 0 (min 1 severity)
  let floor := t.minCapacityFraction
  let factor := 1 - clamped * (1 - floor)
  let currentCapacity : ℚ := max 1 (round (t.baseCapacity * factor))
  { t with
    currentCapacity := currentCapacity
    currentRefillPerSec := max (1 / 2) (t.baseRefillPerSec * factor)
    tokens := min t.tokens currentCapacity }

/-- `reset`: back to full base capacity when the gateway recovers. -/
def reset : TokenBucket :=
  { t with
    currentCapacity := t.baseCapacity
    currentRefillPerSec := t.baseRefillPerSec }

/-- What `snapshot` returns. -/
structure Snapshot where
  tokens : Int
  capacity : ℚ
  refillPerSec : ℚ
  throttled : Bool

/-- `snapshot`. -/
def snapshot (now : Int) : Snapshot × TokenBucket :=
  let t := t.refill now
  ({ tokens := ⌊t.tokens⌋
     capacity := t.currentCapacity
     refillPerSec := t.currentRefillPerSec
     throttled := t.currentCapacity < t.baseCapacity }, t)

end TokenBucket

end PaymentQueue
