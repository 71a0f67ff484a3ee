import Vekst.Normalize.Unicode

namespace Vekst.Normalize
open Regex

/-! ## What both keys are built from -/

/-- The evidence a counterparty key rests on. -/
inductive Tier where
  | taxID
  | name
  | account
  | none
deriving DecidableEq, Repr

def Tier.text : Tier → String
  | .taxID => "tax_id"
  | .name => "name"
  | .account => "account"
  | .none => "none"

def fullStop : Pattern := .opt (.set (· = '.'))

/-- The legal forms in the order they are tried, over what counts as white space inside one. -/
def formsOver (space : Char → Bool) : List Pattern := [
  .text "ООО".toList,
  .text "ОДО".toList,
  .text "ЗАО".toList,
  .text "ОАО".toList,
  .text "УП".toList,
  .text "ЧУП".toList,
  .text "ИП".toList,
  .text "ТОО".toList,
  .text "АО".toList,
  .text "ТОВ".toList,
  .text "ПАО".toList,
  .text "ИНДИВИДУАЛЬНЫЙ ПРЕДПРИНИМАТЕЛЬ".toList,
  .text "ТОВАРИЩЕСТВО С ОГРАНИЧЕННОЙ ОТВЕТСТВЕННОСТЬЮ".toList,
  .text "LLC".toList,
  .text "LLP".toList,
  .text "LTD".toList,
  .text "LIMITED".toList,
  .seq (.text "INC".toList) fullStop,
  .seq (.text "CORP".toList) fullStop,
  .text "GMBH".toList,
  .text "AB".toList,
  .text "OU".toList,
  .text "OÜ".toList,
  .text "SARL".toList,
  .text "SRL".toList,
  .text "PTY".toList,
  .text "BV".toList,
  .text "NV".toList,
  .text "SA".toList,
  .text "AG".toList,
  .text "KG".toList,
  .text "SPOLKA Z OGRANICZONA ODPOWIEDZIALNOSCIA".toList,
  .text "SPÓŁKA Z OGRANICZONĄ ODPOWIEDZIALNOŚCIĄ".toList,
  .sequence [.text "SP".toList, fullStop, .opt (.set space), .text "Z".toList, fullStop,
    .opt (.set space), .text "O".toList, fullStop, .opt (.set space), .text "O".toList, fullStop],
  .text "S.A.".toList]

def addressMarkers : List Text := [
  "ADDRESS".toList,
  "ADRESS".toList,
  "ARDRESS".toList,
  "ADRES".toList,
  "UL.".toList,
  "STR.".toList,
  "ST.".toList,
  "PLAZA".toList,
  "ROAD".toList]

def quoteChars : List Char := "\"'`".toList

end Vekst.Normalize
