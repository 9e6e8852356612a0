import Tabletop.Flag

/-!
# Failures of a roll

An expression that reads well can still fail to be rolled; a `RollError` says why.
-/

namespace Tabletop

/-- What asks for a list of results. -/
inductive PoolUser where
  | literal
  | total
  | flag (kind : FlagKind)
  deriving DecidableEq

instance : ToString PoolUser where
  toString
    | .literal => "literal"
    | .total => "total"
    | .flag kind => toString kind

/-- Why a roll failed. -/
inductive RollError where
  | limitExceeded
  | divisionByZero
  | overflow
  | emptyPool (kind : FlagKind)
  | poolAsNumber
  | numberAsPool (user : PoolUser)
  | unsupported (kind : FlagKind)
  deriving DecidableEq

def RollError.message : RollError → String
  | .limitExceeded => "too many dice rolled"
  | .divisionByZero => "cannot divide by zero"
  | .overflow => "integer overflow"
  | .emptyPool kind => "cannot take " ++ toString kind ++ " of no results"
  | .poolAsNumber => "a list of results cannot be used as a number"
  | .numberAsPool user => toString user ++ " needs a list of results, not a number"
  | .unsupported kind => toString kind ++ " is not supported"

end Tabletop
