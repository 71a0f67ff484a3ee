namespace Vekst.Reports

/-- What the report package refuses, with the values its messages name. -/
inductive Failure where
  | noBaseCurrency
  | noPeriods
  | rowNotRequested (period : String)
  | rowInAnotherCurrency (row report : String)
  | notASection (category pnlSection : String)
  | notAMonth (month : String)
  | namesMonth (month : String) (number : Int)
  | notAGranularity (name : String)
  | periodIsAfter (fromMonth toMonth : String)
  /-- The source's loop over months never ends on this upper bound. -/
  | doesNotReturn (toMonth : String)
  | isComputed (code : String) (operands : List String)
  | notAQuarter (period : String)
  | notAYear (period : String)
  | outsideRange (period fromMonth toMonth : String)
  | notALine (text : String)
deriving DecidableEq, Repr

end Vekst.Reports
