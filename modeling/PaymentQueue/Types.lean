import Mathlib.Tactic.Common

/-!
# PaymentQueue.Types

The domain types of `types/payment.types.ts`: payments, gateway answers, the
values that can be thrown, and the classification of failures.

Of a `Payment` the fields kept are those that the modelled code reads or that
identify the payment; amount, currency, customer, metadata and dates are only
ever handed on.
-/

namespace PaymentQueue

/-- `Priority`. -/
inductive Priority
  | high
  | normal
  | low
  deriving DecidableEq, Repr

/-- `PaymentStatus`. -/
inductive PaymentStatus
  | queued
  | processing
  | completed
  | failed
  | deadLetter
  | compensating
  | compensated
  deriving DecidableEq, Repr

/-- `Payment`. -/
structure Payment where
  id : String
  gatewayId : String
  priority : Priority
  maxRetries : Int
  idempotencyKey : String
  correlationId : String
  failureReason : Option String := none
  deriving DecidableEq, Repr

/-- `GatewayResponse`. -/
structure GatewayResponse where
  success : Bool
  transactionId : String
  gatewayId : String
  rawCode : Option String := none
  message : Option String := none
  deriving DecidableEq, Repr

/-- What a gateway says of an earlier charge: `GatewayStatus.status`. -/
inductive ChargeStatus
  | pending
  | settled
  | failed
  | unknown
  deriving DecidableEq, Repr

/-- `GatewayStatus`. -/
structure GatewayStatus where
  transactionId : String
  status : ChargeStatus
  deriving DecidableEq, Repr

/-- The record the payment repository keeps of a payment. -/
structure PaymentRecord where
  status : PaymentStatus
  gatewayTransactionId : Option String := none
  deriving DecidableEq, Repr

/-- `FailureCategory`. -/
inductive FailureCategory
  /-- Network blip, gateway 5xx, timeout: retry. -/
  | transient
  /-- The gateway said slow down: retry with backoff. -/
  | rateLimited
  /-- Card declined, invalid account: never retry. -/
  | permanent
  /-- Could not classify. -/
  | unknown
  deriving DecidableEq, Repr

/-- A value that can be thrown, or that a promise can reject with. JavaScript
throws any value, so besides `Error` and `ClassifiedError` there are values that
are no errors at all, and the two values whose properties cannot even be read. Not
represented are values whose `message` or `String(err)` throws when it is read. -/
inductive Thrown
  /-- An `Error`. -/
  | error (message : String)
  /-- A `ClassifiedError`. -/
  | classified (message : String) (category : FailureCategory)
      (gatewayCode : Option String)
  /-- Any other value: its `String(err)` and its `message` property, if any. -/
  | other (text : String) (message : Option String)
  | undefined
  | null
  deriving DecidableEq, Repr

namespace Thrown

/-- Thrown values without properties: reading `.message` of one throws. -/
def nullish : Thrown → Bool
  | undefined | null => true
  | _ => false

/-- The `TypeError` that reading `.message` of a nullish value throws. -/
def typeError : Thrown → Thrown
  | undefined => .error "Cannot read properties of undefined (reading 'message')"
  | _ => .error "Cannot read properties of null (reading 'message')"

/-- `(err as Error).message`. -/
def message : Thrown → Except Thrown (Option String)
  | .error m => .ok (some m)
  | .classified m _ _ => .ok (some m)
  | .other _ m => .ok m
  | .undefined => .error (typeError .undefined)
  | .null => .error (typeError .null)

theorem message_of_nullish {e : Thrown} (h : e.nullish = true) :
    e.message = .error e.typeError := by
  cases e <;> simp_all [nullish, message]

theorem message_of_not_nullish {e : Thrown} (h : e.nullish = false) :
    ∃ m, e.message = .ok m := by
  cases e <;> simp_all [nullish, message]

@[simp] theorem typeError_not_nullish (e : Thrown) : e.typeError.nullish = false := by
  cases e <;> rfl

end Thrown

/-! ### Failure classification -/

/-- The lower case of one character, as far as the patterns below can tell: the
ASCII letters, and the two other characters whose lower case contains one. -/
def lowerChar (c : Char) : List Char :=
  if c.isUpper then [c.toLower]
  else if c = '\u212A' then ['k']
  else if c = '\u0130' then ['i', '\u0307']
  else [c]

/-- `String.prototype.toLowerCase`. -/
def toLowerCase (s : String) : List Char := s.toList.flatMap lowerChar

/-- A literal pattern matches somewhere in the text. -/
def occursIn (pattern : List Char) : List Char → Bool
  | [] => pattern.isEmpty
  | c :: cs => pattern.isPrefixOf (c :: cs) || occursIn pattern cs

/-- One of several alternatives matches somewhere in the text. -/
def anyOf (patterns : List String) (text : List Char) : Bool :=
  patterns.any fun p => occursIn p.toList text

/-- What `.` matches: one code unit that ends no line. -/
def isDot (c : Char) : Bool :=
  c.toNat < 0x10000 && !(['\n', '\r', '\u2028', '\u2029'].contains c)

/-- `limit`, after at most one character, as in `/rate.?limit/`. -/
def limitFollows : List Char → Bool
  | [] => false
  | c :: cs =>
      "limit".toList.isPrefixOf (c :: cs) || (isDot c && "limit".toList.isPrefixOf cs)

/-- `/rate.?limit/`. -/
def matchesRateLimit : List Char → Bool
  | [] => false
  | c :: cs =>
      ("rate".toList.isPrefixOf (c :: cs) && limitFollows ((c :: cs).drop 4)) ||
        matchesRateLimit cs

/-- The part of `classifyFailure` that sniffs the message. -/
def classifyMessage (message : String) : FailureCategory :=
  let text := toLowerCase message
  if anyOf ["declined", "insufficient_funds", "invalid_card", "fraud",
      "account_closed", "invalid_account"] text then .permanent
  else if matchesRateLimit text || anyOf ["429", "too many requests"] text then
    .rateLimited
  else if anyOf ["timeout", "etimedout", "econnreset", "econnrefused", "502", "503",
      "504", "network"] text then .transient
  else .unknown

/-- `classifyFailure`. -/
def classifyFailure : Thrown → FailureCategory
  | .classified _ category _ => category
  | .error message => classifyMessage message
  | .other text _ => classifyMessage text
  | .undefined => classifyMessage "undefined"
  | .null => classifyMessage "null"

example : classifyFailure (.error "ETIMEDOUT contacting gateway") = .transient := by
  decide +kernel

/-- A failure is permanent only if its message can be read, so the branch of
`process` that reads it cannot throw. -/
theorem nullish_not_permanent {e : Thrown} (h : e.nullish = true) :
    classifyFailure e ≠ .permanent := by
  cases e with
  | undefined => decide +kernel
  | null => decide +kernel
  | _ => simp [Thrown.nullish] at h

/-- Reading the message of a nullish value does not fail permanently either. -/
theorem typeError_not_permanent (e : Thrown) : classifyFailure e.typeError ≠ .permanent := by
  unfold Thrown.typeError
  split <;> decide +kernel

end PaymentQueue
