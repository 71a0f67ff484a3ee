import Mathlib.Data.List.Lex
import Mathlib.Data.List.Sort
import Mathlib.Data.String.Basic
import Vekst.Calendar.Decimal
import Vekst.Eval.Engine
import Vekst.Job
import Vekst.Text.Jsonb

namespace Vekst.Eval
open Decimal Regex Normalize

/-! ## build.py: one spelling for each category -/

/-- The names on the way down to a category. -/
abbrev Path := List String

def l1Canon : List (String × String) := [
  ("OTHER In&Ex", "OIE"), ("Financial Result", "FR"), ("CIT EXPENSE", "CIT"),
  ("OUT of P&L", "OUT OF P&L")]

def pathFix : List (Path × Path) := [
  (["CIT", "CIT expense", "CIT expense"], ["CIT"]),
  (["OIE", "OTHER EXPENSE", "Other taxes", "IT Park Membeship"],
    ["OIE", "OTHER EXPENSE", "Other taxes", "IT Park - membership"]),
  (["OIE", "OTHER EXPENSE", "Other taxes"], ["OIE", "OTHER EXPENSE", "Other taxes", "Other"]),
  (["OPEX", "Marketing and Sales", "Marketing", "Dev Services", "Design Tools"],
    ["OPEX", "Production", "Developers", "Dev Services", "Design Tools"]),
  (["OPEX", "Marketing and Sales", "Marketing", "Dev Services", "Production Tools"],
    ["OPEX", "Production", "Developers", "Dev Services", "Production Tools"]),
  (["OPEX", "Marketing and Sales", "Marketing", "SEO", "SEO Tools"],
    ["OPEX", "Marketing and Sales", "Marketing", "MRK Services", "SEO"]),
  (["OPEX", "Marketing and Sales", "Marketing", "MRK Services", "Sales Tools"],
    ["OPEX", "Marketing and Sales", "Sales", "SL Services", "Sales Tools"]),
  (["OPEX", "Administration", "Finance", "FI Expenses", "Acc. matters"],
    ["OPEX", "Administration", "Finance", "FI Services", "Acc. matters"]),
  (["OPEX", "Administration", "Legal", "Leg. Services", "NN"],
    ["OPEX", "Administration", "Legal", "Leg. Services", "Legal - other"])]

def nodeRename : List (String × String) := [("Recruting", "Recruiting")]

def nodeRenameAt : List (Path × String) := [(["OPEX", "Administration", "GM"], "General Management")]

def requiresAllocation : List Path :=
  [["OPEX", "PAYROLL to distribute"], ["OPEX", "PAYROLL TAX to distribute"]]

def orgScoped : List Path := [["OPEX", "Twoj StartUp"]]

def nonPNL : List String := ["CAPEX", "OUT OF P&L"]

def l1Order : List String :=
  ["NET SALES", "CS", "OCS", "OPEX", "OIE", "FR", "CIT", "CAPEX", "OUT OF P&L"]

def computed : List (String × String × String) := [
  ("91", "GM", "NET SALES - CS"), ("92", "NM", "GM - OCS"), ("93", "CM", "NM - OPEX - OIE"),
  ("94", "IBT", "CM - FR"), ("95", "NI", "IBT - CIT")]

def canon (path : List String) : Path :=
  match (path.map fun x => String.ofList (strip isPythonSpace x.toList)).filter (· ≠ "") with
  | [] => []
  | first :: rest =>
      let p := (l1Canon.lookup first).getD first :: rest
      ((pathFix.lookup p).getD p).map fun x => (nodeRename.lookup x).getD x

/-! ## build.py: the taxonomy -/

/-- A row of the founder's files, as `load_rules` reads it. -/
structure SourceRule where
  purp : String
  cp : String
  dir : String
  path : List String
deriving DecidableEq, Repr

/-- A sale's customer is no category of its own. -/
def withoutCustomer (p : Path) : Path :=
  match p with
  | [first, second, third] =>
      if first = "NET SALES" ∧ second = "SOFTWARE DEVELOPMENT" then
        if third = "Return of payment" then ["OIE", "OTHER INCOME", "Return of payment"]
        else [first, second]
      else p
  | _ => p

/-- `path[:1]` up to `path`. -/
def stems (p : Path) : List Path := (List.range p.length).map fun i => p.take (i + 1)

/-- `nodes`: every category the rules name, with those above it. -/
def nodes (source : List SourceRule) : List Path :=
  ((((source.map fun r => canon r.path).filter (· ≠ [])).map withoutCustomer).flatMap stems ++
    [["CS"]]).dedup

/-- The rank of a section; the unknown come last. -/
def rank (t : Path) : Nat := ((t.head?.bind fun name => l1Order.idxOf? name).getD 99)

def order (source : List SourceRule) : List Path :=
  (nodes source).insertionSort fun a b => rank a < rank b ∨ rank a = rank b ∧ a ≤ b

/-- `code`, by path, as the loop leaves it. -/
abbrev Codes := List (Path × Text)

/-- `f"{n:02d}"`. -/
def twoDigits (n : Nat) : Text := padded 2 n

/-- One turn of the loop over the order. Absent where a section is unknown, or a parent has no code
yet. -/
def assignCode (code : Codes) (t : Path) : Option Codes := do
  let parent := t.dropLast
  if parent = [] then
    let i ← t.head?.bind fun name => l1Order.idxOf? name
    return code ++ [(t, twoDigits (i + 1))]
  else
    let above ← code.lookup parent
    let seq := code.countP (·.1.dropLast = parent) + 1
    return code ++ [(t, above ++ twoDigits seq)]

def assignCodes (order : List Path) : Option Codes := order.foldlM assignCode []

/-- An entry of `cats`, beside its path. -/
structure Node where
  path : Path
  code : Text
  level : Nat
  name : String
  leaf : Bool
  isPNL : Bool
  alloc : Bool
deriving DecidableEq, Repr

def isLeaf (nodes : List Path) (t : Path) : Bool := !nodes.any fun o => o ≠ t && t.isPrefixOf o

def nodeOf (nodes : List Path) (entry : Path × Text) : Node where
  path := entry.1
  code := entry.2
  level := entry.1.length
  name := (nodeRenameAt.lookup entry.1).getD (entry.1.getLast?.getD "")
  leaf := isLeaf nodes entry.1
  isPNL := (entry.1.head?.getD "") ∉ nonPNL
  alloc := entry.1 ∈ requiresAllocation

/-- `build_taxonomy`, of the rows of the three files. -/
def buildTaxonomy (source : List SourceRule) : Option (List Node) := do
  let code ← assignCodes (order source)
  return code.map (nodeOf (nodes source))

/-- `cats[path]`. -/
def nodeAt (cats : List Node) (path : Path) : Option Node := cats.find? (·.path = path)

/-! ## build.py: the templates -/

/-- A rule of a country, before it is numbered. -/
structure TemplateRule where
  country : String
  scope : String
  field : String
  op : String
  value : String
  direction : String
  path : Path
deriving DecidableEq, Repr

def bankMarkers : List String := [
  "ПЕРЕОЦЕНКА", "УПЛАТА ПРОЦЕНТОВ ПО ОСТАТКАМ", "ПЕРЕВОД С ПРОДАЖЕЙ ПО БАЗОВОМУ КУРСУ",
  "СВОБОДНАЯ ПРОДАЖА ВАЛЮТЫ", "ЕЖЕМЕСЯЧНАЯ АБОНЕНТСКАЯ ПЛАТА", "ПЛАТА ЗА БЕЗНАЛ",
  "ПЛАТА ЗА ЗАЧИСЛЕНИЕ", "ПЛАТА ЗА УСЛУГИ \"ПРИОРБАНК\"", "ПЕРЕВОД С КОНВЕРСИЕЙ"]

def clientMarkers : List String := [
  "PLAVNO", "ЕФРЕМО", "ЗАЙЦЕВА", "КРОМАН", "ОПЛАТА ЗА УСЛУГИ ФАЙЛОВОЕ ПРОСТРАНСТВО",
  "ОФОРМЛЕНИЕ КАРТЫ ДОСТУПА", "ЗА ФОТО", "ЗА ФОР"]

def categoryFix : List (String × Path) := [("ОТПУСКНЫЕ", ["OPEX", "PAYROLL to distribute"])]

/-- `any(m in text for m in markers)`. -/
def marked (markers : List String) (text : Text) : Bool := markers.any fun m => m.toList <:+: text

/-- The rule a row of the Belarusian file makes, unless it is about a counterparty or one client. -/
def byRule (u : Tables) (cats : List Node) (r : SourceRule) : Option TemplateRule :=
  if r.cp ≠ "" then none
  else
    let text := normalizeDescription u r.purp.toList
    if marked clientMarkers text then none
    else
      let path := (categoryFix.lookup (String.ofList text)).getD (canon r.path)
      if (nodeAt cats path).isNone then none
      else some {
        country := "BY"
        scope := if marked bankMarkers text then "bank:priorbank" else "country:BY"
        field := "description"
        op := "contains_all"
        value := r.purp
        direction := r.dir
        path }

/-- More parts first, then the longer one. -/
def moreSpecific (a b : TemplateRule) : Prop :=
  (parts b.value).length < (parts a.value).length ∨
    (parts b.value).length = (parts a.value).length ∧ b.value.length ≤ a.value.length

instance (a b : TemplateRule) : Decidable (moreSpecific a b) := inferInstanceAs (Decidable (_ ∨ _))

def buildBYTemplate (u : Tables) (cats : List Node) (source : List SourceRule) :
    List TemplateRule :=
  (source.filterMap (byRule u cats)).insertionSort moreSpecific

/-- A table of regulated codes, each with the direction it is read in. -/
abbrev CodeTable := List ((String × String) × Path)

def knp : CodeTable := [
  (("841", "Expense"), ["OPEX", "Administration", "Finance", "FI Services", "Bank commission"]),
  (("851", "Income"), ["NET SALES", "SOFTWARE DEVELOPMENT"]),
  (("859", "Income"), ["NET SALES", "SOFTWARE DEVELOPMENT"]),
  (("857", "Income"), ["NET SALES", "SOFTWARE DEVELOPMENT"]),
  (("858", "Income"), ["NET SALES", "SOFTWARE DEVELOPMENT"]),
  (("223", "Income"), ["FR", "FXR", "Currency exchange"]),
  (("223", "Expense"), ["FR", "FXR", "Currency exchange"]),
  (("230", "Expense"), ["FR", "FXR", "Currency exchange"]),
  (("911", "Expense"), ["OPEX", "PAYROLL TAX to distribute"]),
  (("912", "Expense"), ["OIE", "OTHER EXPENSE", "Tax fines"]),
  (("010", "Expense"), ["OPEX", "PAYROLL TAX to distribute"]),
  (("089", "Expense"), ["OPEX", "PAYROLL TAX to distribute"]),
  (("012", "Expense"), ["OPEX", "PAYROLL TAX to distribute"]),
  (("121", "Expense"), ["OPEX", "PAYROLL TAX to distribute"]),
  (("122", "Expense"), ["OPEX", "PAYROLL TAX to distribute"]),
  (("332", "Expense"), ["OPEX", "PAYROLL to distribute"]),
  (("661", "Expense"), ["OUT OF P&L"]),
  (("120", "Expense"), ["OIE", "OTHER EXPENSE", "Other taxes", "Other"]),
  (("852", "Expense"), ["OPEX", "Administration", "GM", "GM Services", "Communication"]),
  (("855", "Expense"), ["OPEX", "Administration", "Finance", "FI Services", "1С Cloud"]),
  (("854", "Expense"), ["OPEX", "Administration", "Legal", "Leg. Services", "Claim"])]

def operationType : CodeTable := [
  (("Prowizja", "Expense"), ["OPEX", "Administration", "Finance", "FI Services", "Bank commission"]),
  (("Opłata", "Expense"), ["OPEX", "Administration", "Finance", "FI Services", "Bank commission"]),
  (("Opłata za użytkowanie karty", "Expense"),
    ["OPEX", "Administration", "Finance", "FI Services", "Bank commission"]),
  (("Przelew do ZUS", "Expense"), ["OPEX", "PAYROLL TAX to distribute"]),
  (("Przelew do US VAT", "Expense"), ["OIE", "OTHER EXPENSE", "Other taxes", "VAT"]),
  (("Uznanie", "Income"), ["FR", "FXR", "Currency exchange"]),
  (("Obciążenie", "Expense"), ["FR", "FXR", "Currency exchange"])]

def plText : List (String × String × Path) := [
  ("WARTOŚĆ VAT", "Expense", ["OIE", "OTHER EXPENSE", "Other taxes", "VAT"]),
  ("ZALICZKA NA CIT", "Expense", ["CIT"])]

/-- A rule on a regulated code. Absent where its category does not exist. -/
def codeRule (country scope : String) (cats : List Node) (entry : (String × String) × Path) :
    Option TemplateRule :=
  (nodeAt cats entry.2).map fun _ =>
    ⟨country, scope, "regulated_code", "eq", entry.1.1, entry.1.2, entry.2⟩

def buildKZTemplate (cats : List Node) : Option (List TemplateRule) :=
  (knp.insertionSort fun a b => a.1.1 < b.1.1 ∨ a.1.1 = b.1.1 ∧ a.1.2 ≤ b.1.2).mapM
    (codeRule "KZ" "country:KZ" cats)

def textRule (country scope : String) (cats : List Node) (entry : String × String × Path) :
    Option TemplateRule :=
  (nodeAt cats entry.2.2).map fun _ =>
    ⟨country, scope, "description", "contains_all", entry.1, entry.2.1, entry.2.2⟩

def buildPLTemplate (cats : List Node) : Option (List TemplateRule) := do
  let codes ← operationType.mapM (codeRule "PL" "bank:pkobp" cats)
  let texts ← plText.mapM (textRule "PL" "country:PL" cats)
  return codes ++ texts

/-! ## build.py: what is shared -/

/-- `by_code`: a repeated code keeps its last path. -/
def byCodeOf (cats : List Node) (code : Text) : Option Path :=
  (cats.reverse.find? (·.code = code)).map (·.path)

/-- `code[:2]`, `code[:4]` and so on, up to the code. -/
def codeStems (code : Text) : List Text :=
  (List.range (code.length / 2)).map fun i => code.take (2 * (i + 1))

/-- The categories that a rule keeps shared: its own and those above it. -/
def targeted (cats : List Node) (path : Path) : List Path :=
  match nodeAt cats path with
  | none => []
  | some c => (codeStems c.code).filterMap (byCodeOf cats)

/-- `assign_scopes`: the shared ones are the top two levels and what the rules target. -/
def isGlobal (cats : List Node) (rules : List Path) (path : Path) : Bool :=
  (cats.any (fun c => c.path = path && c.level ≤ 2) || path ∈ rules.flatMap (targeted cats)) &&
    path ∉ orgScoped

/-! ## emit.py -/

def taxonomyVersion : String := "v1"

def rulesetVersion : String := "v1"

/-- A rule that was kept, with what is stored of it. -/
structure StoredRule extends TemplateRule where
  storedValue : String
  priority : Nat
deriving DecidableEq, Repr

def storedValueOf (u : Tables) (r : TemplateRule) : String :=
  if r.field = "description" then String.ofList (normalizeDescription u r.value.toList) else r.value

/-- What makes two rules the same. -/
def keyOf (u : Tables) (r : TemplateRule) : String × String × String × String × Path :=
  (r.country, r.field, storedValueOf u r, r.direction, r.path)

/-- The loop over the rules: one that was seen is dropped. -/
def collapse (u : Tables) (seen : List (String × String × String × String × Path)) :
    List TemplateRule → List TemplateRule
  | [] => []
  | r :: rest =>
      if keyOf u r ∈ seen then collapse u seen rest
      else r :: collapse u (keyOf u r :: seen) rest

def numbered (u : Tables) (kept : List TemplateRule) : List StoredRule :=
  (kept.zipIdx 1).map fun entry => ⟨entry.1, storedValueOf u entry.1, entry.2⟩

def templates (u : Tables) (cats : List Node) (by_ : List SourceRule) :
    Option (List TemplateRule) := do
  let kz ← buildKZTemplate cats
  let pl ← buildPLTemplate cats
  return buildBYTemplate u cats by_ ++ kz ++ pl

/-- `prepare`, of the rows of the three files and of the Belarusian one. Absent where it raises. -/
def prepare (u : Tables) (source by_ : List SourceRule) : Option (List Node × List StoredRule) := do
  let cats ← buildTaxonomy source
  let rules ← templates u cats by_
  let kept := numbered u (collapse u [] rules)
  if kept.all fun r => (nodeAt cats r.path).isSome then return (cats, kept) else none

/-- The conditions of `_matcher`. -/
def conditions (lower : String → String) (r : StoredRule) : List Condition :=
  ⟨r.field, r.op, r.storedValue⟩ ::
    if r.direction = "" then [] else [⟨"direction", "eq", lower r.direction⟩]

/-- `cats[r["path"]]["code"]`. -/
def codeOf (cats : List Node) (path : Path) : String :=
  String.ofList (((nodeAt cats path).map (·.code)).getD [])

/-- `rules.json`, as the evaluation loads it. -/
def fixtures (lower : String → String) (cats : List Node) (rules : List StoredRule) : List Rule :=
  rules.map fun r => ⟨r.priority, r.scope, codeOf cats r.path, conditions lower r⟩

/-- A row of `seed_categories.sql`. -/
structure SeedCategory where
  taxonomyVersion : String
  code : String
  name : String
  level : Nat
  isLeaf : Bool
  isPNL : Bool
  isComputed : Bool
  requiresAllocation : Bool
deriving DecidableEq, Repr

/-- The row of a category that is shared. -/
def categoryRow (c : Node) : SeedCategory :=
  ⟨taxonomyVersion, String.ofList c.code, c.name, c.level, c.leaf, c.isPNL, false, c.alloc⟩

def seedCategories (cats : List Node) (rules : List StoredRule) : List SeedCategory :=
  ((cats.filter fun c => isGlobal cats (rules.map (·.path)) c.path).insertionSort
      fun a b => a.code ≤ b.code).map categoryRow ++
  computed.map fun line => ⟨taxonomyVersion, line.1, line.2.1, 1, false, true, true, false⟩

/-- A row of `seed_rules.sql`, which names its category by code. -/
structure SeedRule where
  scope : String
  priority : Nat
  matcher : Jsonb
  categoryCode : String
  taxonomyVersion : String
  rulesetVersion : String

end Vekst.Eval
