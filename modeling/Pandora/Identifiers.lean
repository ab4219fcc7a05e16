import Mathlib.Data.Nat.Notation

/-!
# Identifiers and principals

Rows are identified by 128-bit identifiers.  Nothing in the program looks inside
one: it compares them, orders them in their fixed-width hexadecimal spelling
(which is the order of the numbers they spell), and treats the all-zero one,
`uuid.Nil`, as "none given".  They are numbers here, with `0` for that one.

Identifiers of new rows are made by the database (`uuidv7()`) and have not been
used before.  A store keeps the least number it has not yet given out.
-/

namespace Pandora

/-- A row identifier. -/
abbrev UUID : Type := ℕ

def UUID.nil : UUID := 0

/-- Which interface a session belongs to. -/
inductive Audience
  | portal
  | admin
  deriving DecidableEq

/-- The signed-in caller of a request. -/
structure Principal where
  userId : UUID
  audience : Audience

end Pandora
