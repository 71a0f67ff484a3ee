import Mathlib.Algebra.Ring.Int.Defs
import Vekst.Text.Regex

namespace Vekst.Ingest
open Regex

/-! ## decode.go -/

abbrev Bytes := List UInt8

/-- The encodings of the libraries: one character a byte, or UTF-8 with a replacement character for
every byte that belongs to none. -/
structure Encodings where
  windows1251 : UInt8 → Char
  codePage866 : UInt8 → Char
  utf8 : Bytes → Text
  utf8Valid : Bytes → Bool

namespace Charset

def utf8 : String := "utf-8"

def windows1251 : String := "windows-1251"

def cp866 : String := "cp866"

end Charset

def utf8BOM : Bytes := [0xef, 0xbb, 0xbf]

/-- Cyrillic letters for a page, box drawing against it, in a sample of the bytes. -/
def scoreCyrillic (page : UInt8 → Char) (raw : Bytes) : Int :=
  (((raw.take 8192).map page).map fun r =>
    if ('А' ≤ r && r ≤ 'я') || r = 'ё' || r = 'Ё' then 1
    else if 0x2500 ≤ r.toNat && r.toNat ≤ 0x25ff then -2
    else (0 : Int)).sum

def detectCharset (enc : Encodings) (raw : Bytes) : String :=
  if utf8BOM.isPrefixOf raw || enc.utf8Valid raw then Charset.utf8
  else if scoreCyrillic enc.codePage866 raw ≤ scoreCyrillic enc.windows1251 raw then
    Charset.windows1251
  else Charset.cp866

/-- Absent for a charset of another name. -/
def decode (enc : Encodings) (raw : Bytes) (charset : String) : Option Text :=
  if charset = Charset.utf8 then
    some (enc.utf8 (if utf8BOM.isPrefixOf raw then raw.drop 3 else raw))
  else if charset = Charset.windows1251 then some (raw.map enc.windows1251)
  else if charset = Charset.cp866 then some (raw.map enc.codePage866)
  else none

end Vekst.Ingest
