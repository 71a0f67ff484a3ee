import Mathlib.Data.List.Infix
import Vekst.Web.CategoryTree

namespace Vekst.Web

/-! ## categoryTree.ts: the sides and the open branches -/

inductive Side where
  | income
  | expense
  | both
deriving DecidableEq, Repr

/-- `SIDES`. -/
def sides : List (String × Side) := [
  ("01", .income), ("0502", .income), ("0602", .income),
  ("02", .expense), ("03", .expense), ("04", .expense), ("0501", .expense), ("07", .expense),
  ("08", .expense)]

def sideOf (code : JsString) : Side :=
  ((sides.find? fun entry => (utf16 entry.1).isPrefixOf code).map (·.2)).getD .both

namespace TreeNode

def isBranchOf (key : JsString) : TreeNode → Bool
  | leaf _ => false
  | branch own _ _ => own = key

end TreeNode

/-- The branches the keys name, up to the first that is not there. -/
def openPath : TreeNode → List JsString → List TreeNode
  | _, [] => []
  | cur, key :: keys => match cur.children.find? (TreeNode.isBranchOf key) with
      | none => []
      | some next => next :: openPath next keys

/-! ## data/review.ts: the queue and its decisions -/

/-- `ReviewGroup` of data/review.ts, as far as the choice of a category reads it. -/
structure ReviewGroup where
  counterpartyKey : JsString
  /-- `total.minorUnits`. -/
  minorUnits : JsString
deriving DecidableEq, Repr

inductive ReviewDecision where
  | classify (categoryCode : JsString)
  | internalTransfer
  | notInPNL
deriving DecidableEq, Repr

inductive ReviewOutcome where
  | categorised
  | internalTransfer
  | nonPNL
deriving DecidableEq, Repr

def toProtoOutcome : ReviewDecision → ReviewOutcome
  | .classify _ => .categorised
  | .internalTransfer => .internalTransfer
  | .notInPNL => .nonPNL

/-- What `ResolveGroup` is asked, beside the session's organisation and entity. -/
structure ResolveGroupRequest where
  counterpartyKey : JsString
  outcome : ReviewOutcome
  categoryCode : JsString
deriving DecidableEq, Repr

def decideGroup (counterpartyKey : JsString) (decision : ReviewDecision) : ResolveGroupRequest where
  counterpartyKey := counterpartyKey
  outcome := toProtoOutcome decision
  categoryCode := match decision with
    | .classify categoryCode => categoryCode
    | _ => []

/-- How a call of `decideGroup` ends: a coded failure, or some other one. -/
inductive Answer where
  | resolved
  | refused (code : JsString)
  | thrown
deriving DecidableEq, Repr

/-! ## ReviewScreen.tsx -/

/-- What the screen takes from elsewhere. -/
structure Browser where
  toLowerCase : JsString → JsString
  authErrorMessage : JsString → Catalogue → JsString

/-- A call of `decide` that waits for its answer, with the language it was made in. -/
structure Deciding where
  request : ResolveGroupRequest
  locale : Catalogue

/-- The state of the screen, with what its two queries last read. -/
structure Screen where
  locale : Catalogue
  groups : Option (List ReviewGroup)
  groupsFailed : Bool
  categories : Option (List PickerCategory)
  index : Nat
  selected : Option JsString
  query : JsString
  openKeys : List JsString
  showAllSides : Bool
  decideError : Option JsString
  deciding : List Deciding

/-- The screen as it opens, with what the queries hold of earlier visits. -/
def openScreen (locale : Catalogue) (groups : Option (List ReviewGroup)) (groupsFailed : Bool)
    (categories : Option (List PickerCategory)) : Screen where
  locale := locale
  groups := groups
  groupsFailed := groupsFailed
  categories := categories
  index := 0
  selected := none
  query := []
  openKeys := []
  showAllSides := false
  decideError := none
  deciding := []

namespace Screen

def list (s : Screen) : List ReviewGroup := s.groups.getD []

def group (s : Screen) : Option ReviewGroup := s.list[min s.index (s.list.length - 1)]?

/-- `group?.counterpartyKey`. -/
def openKey (s : Screen) : Option JsString := s.group.map (·.counterpartyKey)

def minus : Nat := '-'.toNat

/-- `/^-?0*$/`. -/
def isZero (units : JsString) : Bool :=
  (if units.head? = some minus then units.tail else units).all (· = '0'.toNat)

def groupSide (s : Screen) : Option Side :=
  let units := (s.group.map (·.minorUnits)).getD (utf16 "0")
  if isZero units then none
  else if units.head? = some minus then some .expense
  else some .income

def side (s : Screen) : Option Side := if s.showAllSides then none else s.groupSide

def isOffered (side : Option Side) (c : PickerCategory) : Bool :=
  side = none || sideOf c.code = .both || some (sideOf c.code) = side

def tree (s : Screen) : TreeNode :=
  buildCategoryTree s.locale ((s.categories.getD []).filter (isOffered s.side))

def allLeaves (s : Screen) : List TreeLeaf := s.tree.leavesOf

def trail (s : Screen) : List TreeNode := openPath s.tree s.openKeys

def needle (b : Browser) (s : Screen) : JsString := b.toLowerCase (trim s.query)

def searching (s : Screen) : Bool := trim s.query ≠ []

/-- The text of a leaf a search looks in. -/
def searched (b : Browser) (l : TreeLeaf) : JsString :=
  b.toLowerCase ((utf16 " ").intercalate (l.trail ++ [l.name]))

def visibleOptions (b : Browser) (s : Screen) : List TreeNode :=
  if s.needle b ≠ [] then
    (s.allLeaves.filter fun l => s.needle b <:+: searched b l).map .leaf
  else (s.trail.getLast?.getD s.tree).children

/-- The category that Enter approves: a text that is empty is none. -/
def armed (s : Screen) : Option JsString := s.selected.filter (· ≠ [])

/-- What the line beside the filter field names. -/
def selectedLeaf (s : Screen) : Option TreeLeaf :=
  s.armed.bind fun code => s.allLeaves.find? (·.code = code)

/-- The queue is there, and there is a group to decide. -/
def drawn (s : Screen) : Bool := !s.groupsFailed && s.group.isSome

end Screen

/-- What a keystroke tells the screen. -/
structure KeyPress where
  key : JsString
  /-- One of `metaKey`, `ctrlKey` and `altKey`. -/
  modified : Bool
  /-- The filter field has the focus. -/
  typing : Bool
deriving DecidableEq, Repr

/-- `/^[1-9]$/`, and the number. -/
def digitOf : JsString → Option Nat
  | [c] => if '1'.toNat ≤ c ∧ c ≤ '9'.toNat then some (c - '0'.toNat) else none
  | _ => none

inductive Event where
  | press (press : KeyPress)
  /-- A change of the filter field. -/
  | search (query : JsString)
  | clickOption (i : Nat)
  | clickCrumb (i : Nat)
  | clickSides
  | clickApprove
  | clickTransfer
  | clickNotPNL
  | answered (i : Nat) (answer : Answer)
  /-- The queue is read again, or cannot be. -/
  | groupsRead (answer : Option (List ReviewGroup))
  | categoriesRead (answer : List PickerCategory)
  | localeChosen (locale : Catalogue)

namespace Screen

def choose (s : Screen) : TreeNode → Screen
  | .leaf l => { s with selected := some l.code }
  | .branch key _ _ => { s with openKeys := s.trail.map TreeNode.key ++ [key] }

/-- The screen afterwards, and what is sent. -/
abbrev Effect := Screen × List ResolveGroupRequest

/-- `decide`, up to where it waits for its answer. -/
def decide_ (s : Screen) (decision : ReviewDecision) : Effect :=
  match s.group with
  | none => (s, [])
  | some group =>
      let request := decideGroup group.counterpartyKey decision
      ({ s with decideError := none, deciding := s.deciding ++ [⟨request, s.locale⟩] }, [request])

/-- `decide`, once it has its answer. -/
def answer (b : Browser) (s : Screen) (call : Deciding) : Answer → Screen
  | .resolved => { s with selected := none, index := 0 }
  | .refused code => { s with decideError := some (b.authErrorMessage code call.locale) }
  | .thrown => { s with decideError := some (call.locale (utf16 "error.unknown")) }

/-- The option of a number, if there is one. -/
def chooseAt (b : Browser) (s : Screen) (i : Nat) : Screen :=
  match (s.visibleOptions b)[i]? with
  | none => s
  | some node => s.choose node

def approve (s : Screen) : Effect :=
  match s.armed with
  | none => (s, [])
  | some code => s.decide_ (.classify code)

def onKey (b : Browser) (s : Screen) (e : KeyPress) : Effect :=
  if e.modified then (s, [])
  else match digitOf e.key with
  | some n => (s.chooseAt b (n - 1), [])
  | none =>
      if e.typing && e.key ≠ utf16 "Enter" then (s, [])
      else if e.key = utf16 "Enter" then s.approve
      else if e.key = utf16 "t" ∨ e.key = utf16 "T" then s.decide_ .internalTransfer
      else if e.key = utf16 "n" ∨ e.key = utf16 "N" then s.decide_ .notInPNL
      else if e.key = utf16 "ArrowDown" then
        ({ s with index := min (s.index + 1) (s.list.length - 1) }, [])
      else if e.key = utf16 "ArrowUp" then ({ s with index := s.index - 1 }, [])
      else if e.key = utf16 "Backspace" then ({ s with openKeys := s.openKeys.dropLast }, [])
      else if e.key = utf16 "Escape" then ({ s with selected := none, openKeys := [] }, [])
      else (s, [])

/-- A click on what the screen draws. -/
def click (s : Screen) (effect : Effect) : Effect := if s.drawn then effect else (s, [])

def on (b : Browser) (s : Screen) : Event → Effect
  | .press e => s.onKey b e
  | .search query => s.click ({ s with query }, [])
  | .clickOption i => s.click (s.chooseAt b i, [])
  | .clickCrumb i => s.click <|
      if !s.searching && i < s.trail.length then
        ({ s with openKeys := (s.trail.take i).map TreeNode.key }, [])
      else (s, [])
  | .clickSides => s.click <| match s.groupSide with
      | none => (s, [])
      | some _ => ({ s with
          selected := if s.showAllSides then none else s.selected
          showAllSides := !s.showAllSides
          openKeys := [] }, [])
  | .clickApprove => s.click s.approve
  | .clickTransfer => s.click (s.decide_ .internalTransfer)
  | .clickNotPNL => s.click (s.decide_ .notInPNL)
  | .answered i answer => match s.deciding[i]? with
      | none => (s, [])
      | some call => ({ s with deciding := s.deciding.eraseIdx i }.answer b call answer, [])
  | .groupsRead none => ({ s with groupsFailed := true }, [])
  | .groupsRead (some groups) => ({ s with groups := some groups, groupsFailed := false }, [])
  | .categoriesRead categories => ({ s with categories := some categories }, [])
  | .localeChosen locale => ({ s with locale }, [])

/-- The effect on `group?.counterpartyKey`. -/
def settle (before after : Screen) : Screen :=
  if after.openKey = before.openKey then after
  else { after with
    decideError := none
    query := []
    selected := none
    openKeys := []
    showAllSides := false }

/-- One event, and what the screen does until it is drawn again. -/
def step (b : Browser) (s : Screen) (e : Event) : Screen := s.settle (s.on b e).1

def run (b : Browser) (s : Screen) (events : List Event) : Screen := events.foldl (step b) s

/-- What an event sends. -/
def sends (b : Browser) (s : Screen) (e : Event) : List ResolveGroupRequest := (s.on b e).2

/-- What a run sends. -/
def sent (b : Browser) : Screen → List Event → List ResolveGroupRequest
  | _, [] => []
  | s, e :: events => s.sends b e ++ sent b (s.step b e) events

end Screen

end Vekst.Web
