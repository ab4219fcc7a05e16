import Mathlib.Data.List.Basic
import Pandora.Foundation.Clock
import Pandora.Identifiers

/-!
# Codes that are mailed

`verification_codes` holds the codes that are mailed to an address: to prove the address when an
account is registered, and to set a new password.  A row can be used while it has not been consumed
and has not run out; `now` is the time at which the transaction of a statement began.

The table stores keyed hashes of the address and of the code.  They are compared and nothing else,
so that they are what they are made of here.
-/

namespace Pandora.Identity

/-- An address, as `normalizeEmail` leaves it. -/
abbrev Address : Type := ℕ

inductive Purpose
  | emailVerify
  | passwordReset
  deriving DecidableEq

structure VerificationCode where
  id : ℕ
  purpose : Purpose
  target : Address
  code : ℕ
  userId : Option UUID
  attempts : ℕ := 0
  maxAttempts : ℕ
  createdAt : ℤ
  expiresAt : ℤ
  consumedAt : Option ℤ := none

namespace VerificationCode

/-- The condition of `LockLatestCode` and of `ExpireCodes`. -/
def Usable (purpose : Purpose) (target : Address) (now : ℤ) (c : VerificationCode) : Prop :=
  c.purpose = purpose ∧ c.target = target ∧ c.consumedAt = none ∧ now < c.expiresAt

instance (purpose : Purpose) (target : Address) (now : ℤ) (c : VerificationCode) :
    Decidable (c.Usable purpose target now) := inferInstanceAs (Decidable (_ ∧ _ ∧ _ ∧ _))

/-- The rows that a statement with that condition sees. -/
def usable (purpose : Purpose) (target : Address) (now : ℤ) (codes : List VerificationCode) :
    List VerificationCode := codes.filter fun c => c.Usable purpose target now

/-- `ORDER BY created_at DESC LIMIT 1`. -/
def newest : List VerificationCode → Option VerificationCode
  | [] => none
  | c :: codes => match newest codes with
    | none => some c
    | some d => if c.createdAt < d.createdAt then some d else some c

/-- The row that `LockLatestCode` locks. -/
def latest (purpose : Purpose) (target : Address) (now : ℤ) (codes : List VerificationCode) :
    Option VerificationCode := newest (usable purpose target now codes)

/-- `IncCodeAttempts`. -/
def incAttempts (id : ℕ) (codes : List VerificationCode) : List VerificationCode :=
  codes.map fun c => if c.id = id then { c with attempts := c.attempts + 1 } else c

/-- `ConsumeCode`. -/
def consume (id : ℕ) (now : ℤ) (codes : List VerificationCode) : List VerificationCode :=
  codes.map fun c =>
    if c.id = id ∧ c.consumedAt = none then { c with consumedAt := some now } else c

/-- `ExpireCodes`, for the rows that it has found. -/
def expire (ids : List ℕ) (now : ℤ) (codes : List VerificationCode) : List VerificationCode :=
  codes.map fun c => if c.id ∈ ids then { c with expiresAt := now } else c

end VerificationCode

end Pandora.Identity
