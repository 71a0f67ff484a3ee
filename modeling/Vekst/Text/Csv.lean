import Mathlib.Data.List.TakeWhile

namespace Csv

abbrev Text := List Char

/-! ## Lines split at every delimiter -/

def dropReturn (line : Text) : Text := if line.getLast? = some '\r' then line.dropLast else line

/-- The records of a text that holds no quotation mark, each with the number of its line: empty
lines make none. -/
def records (delimiter : Char) (text : Text) : List (Nat × List Text) :=
  ((text.splitOn '\n').zipIdx 1).filterMap fun (line, number) =>
    let line := dropReturn line
    if line = [] then none else some (number, line.splitOn delimiter)

/-! ## Quoted fields -/

/-- Where a reader of quoted fields stands in a record. -/
inductive Mode where
  | startRecord
  | startField
  | inField
  | inQuoted
  | quoteInQuoted
deriving DecidableEq, Repr

/-- What a character makes of the field and the record it is read into. -/
inductive Move where
  | skip (next : Mode)
  | add (next : Mode)
  | endField
  | endRecord
deriving DecidableEq, Repr

/-- A quotation mark opens a field only at its start, and two in a quoted field are one; behind the
closing one the field goes on as it is written. -/
def Mode.move (delimiter c : Char) : Mode → Move
  | .startRecord | .startField =>
      if c = '\n' then .endRecord
      else if c = '"' then .skip .inQuoted
      else if c = delimiter then .endField
      else .add .inField
  | .inField =>
      if c = '\n' then .endRecord
      else if c = delimiter then .endField
      else .add .inField
  | .inQuoted => if c = '"' then .skip .quoteInQuoted else .add .inQuoted
  | .quoteInQuoted =>
      if c = '"' then .add .inQuoted
      else if c = delimiter then .endField
      else if c = '\n' then .endRecord
      else .add .inField

/-- The records of the rest of a text, given the fields of this one and the field so far. An empty
line is a record of no field. -/
def readFrom (delimiter : Char) : Mode → List Text → Text → Text → List (List Text)
  | mode, fields, field, [] => if mode = .startRecord then [] else [fields ++ [field]]
  | mode, fields, field, c :: rest => match mode.move delimiter c with
      | .skip next => readFrom delimiter next fields field rest
      | .add next => readFrom delimiter next fields (field ++ [c]) rest
      | .endField => readFrom delimiter .startField (fields ++ [field]) [] rest
      | .endRecord =>
          (if mode = .startRecord then [] else fields ++ [field]) ::
            readFrom delimiter .startRecord [] [] rest

end Csv
