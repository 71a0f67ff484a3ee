import Vekst.Text.Csv
import Vekst.Text.Join

namespace Csv

/-! ## Quotations that end within a text -/

def Move.mode : Move → Mode
  | .skip next => next
  | .add next => next
  | .endField => .startField
  | .endRecord => .startRecord

/-- Where a reader stands behind a text. -/
def behind (delimiter : Char) (mode : Mode) (text : Text) : Mode :=
  text.foldl (fun mode c => (mode.move delimiter c).mode) mode

/-- Every quotation that the text opens is closed in it. -/
def closes (delimiter : Char) (text : Text) : Bool := behind delimiter .startField text != .inQuoted

/-- What a text without delimiters and line breaks adds to a field. -/
def added (delimiter : Char) : Mode → Text → Text
  | _, [] => []
  | mode, c :: rest => match mode.move delimiter c with
      | .add next => c :: added delimiter next rest
      | .skip next => added delimiter next rest
      | .endField => added delimiter .startField rest
      | .endRecord => added delimiter .startRecord rest

/-- The fields of the rest of a line. -/
def fieldsFrom (delimiter : Char) (mode : Mode) (line : Text) : List Text :=
  (readFrom delimiter mode [] [] line).headD []

def fieldsOf (delimiter : Char) (line : Text) : List Text := fieldsFrom delimiter .startRecord line

section Reading

variable {delimiter c : Char} {mode : Mode} {fields : List Text} {field piece line rest : Text}

theorem skipped {next : Mode} (moved : mode.move delimiter c = .skip next) : c = '"' := by
  by_contra other
  revert moved
  cases mode <;> simp only [Mode.move, other, if_false] <;> repeat' split
  all_goals simp

end Reading

end Csv
