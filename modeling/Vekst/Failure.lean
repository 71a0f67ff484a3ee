import Vekst.Reports.Failure

namespace Vekst

/-- The errors the jobs and services of the core return. -/
inductive Failure where
  /-- A connection lost, a deadline passed: what a retry may not meet again. -/
  | transient
  | noRows
  | noRowsAffected
  /-- A CHECK, a key, a foreign key or a trigger of this name refused the statement. -/
  | constraint (name : String)
  /-- A sum that does not fit the `::bigint` cast. -/
  | outOfBigint
  | unknownCurrency (code : String)
  | noLine (lineNo : Int)
  | notADate (text : String)
  | accountUnresolved
  | illegalTransition
  | transferNotFound
  | report (cause : Reports.Failure)
  /-- The engine refused the request. -/
  | classifierRejected
  /-- A failure that recurs identically on a retry. -/
  | fatal (code : String)
  /-- A failure with a code a client can translate. -/
  | coded (code : String)
deriving DecidableEq, Repr

end Vekst
