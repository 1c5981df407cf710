import Unformat.Plan.Basic

/-!
# Equality of rules and plans

Rules and plans are equal when they are so part by part, and callables when they are one and the
same.  That is told apart here for proofs only: no run of a program compares functions.
-/

namespace Unformat

noncomputable instance : DecidableEq Callable := fun _ _ => Classical.propDecidable _

deriving noncomputable instance DecidableEq for Conversion

deriving noncomputable instance DecidableEq for ScanType

noncomputable instance (type : ScanType) (types : List ScanType) : Decidable (type ∈ types) :=
  decidable_of_iff (∃ other ∈ types, other = type) (by simp)

deriving noncomputable instance DecidableEq for Rule

deriving noncomputable instance DecidableEq for Argument

deriving noncomputable instance DecidableEq for RuleList

deriving noncomputable instance DecidableEq for Plan

end Unformat
