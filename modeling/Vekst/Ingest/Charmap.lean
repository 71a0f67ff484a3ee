import Vekst.Ingest.Decode
import Vekst.Text.Utf8

namespace Vekst.Ingest.Priorbank

/-! ## The code pages of the libraries -/

/-- Windows-1251: ASCII, the letters from А to я at the end, other signs between them. -/
def windows1251 (b : UInt8) : Char :=
  if b < 0x80 then Char.ofNat b.toNat
  else if 0xc0 ≤ b then Char.ofNat (b.toNat - 0xc0 + 'А'.toNat)
  else (("ЂЃ‚ѓ„…†‡€‰Љ‹ЊЌЋЏђ‘’“”•–—\u0098™љ›њќћџ\u00a0ЎўЈ¤Ґ¦§Ё©Є«¬\u00ad®Ї°±Ііґµ¶·ё№є»јЅѕї".toList)[
    b.toNat - 0x80]?).getD '\ufffd'

/-- Code page 866: box drawing stands among its letters. -/
def codePage866 (b : UInt8) : Char :=
  if b < 0x80 then Char.ofNat b.toNat
  else if b < 0xb0 then Char.ofNat (b.toNat - 0x80 + 'А'.toNat)
  else if b < 0xe0 then
    ("░▒▓│┤╡╢╖╕╣║╗╝╜╛┐└┴┬├─┼╞╟╚╔╩╦╠═╬╧╨╤╥╙╘╒╓╫╪┘┌█▄▌▐▀".toList[b.toNat - 0xb0]?).getD '\ufffd'
  else if b < 0xf0 then Char.ofNat (b.toNat - 0xe0 + 'р'.toNat)
  else ("ЁёЄєЇїЎў°∙·√№¤■\u00a0".toList[b.toNat - 0xf0]?).getD '\ufffd'

end Vekst.Ingest.Priorbank

namespace Vekst.Ingest

/-- The encodings as the libraries have them. -/
def charmaps : Encodings where
  windows1251 := Priorbank.windows1251
  codePage866 := Priorbank.codePage866
  utf8 := Utf8.text
  utf8Valid := Utf8.valid

end Vekst.Ingest
