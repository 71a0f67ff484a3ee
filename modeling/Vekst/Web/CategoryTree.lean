import Mathlib.Data.List.DropRight
import Vekst.Review.Picker

namespace Vekst.Web

/-! ## The browser's texts -/

/-- A text of the browser, by its code units. -/
abbrev JsString := List Nat

def codeUnits (c : Char) : JsString :=
  if c.toNat < 0x10000 then [c.toNat]
  else [0xd800 + (c.toNat - 0x10000) / 0x400, 0xdc00 + (c.toNat - 0x10000) % 0x400]

def utf16 (s : String) : JsString := s.toList.flatMap codeUnits

/-- What `trim` takes off. -/
def isTrimmed (n : Nat) : Bool :=
  (9 ≤ n && n ≤ 13) || n == 0x20 || n == 0xa0 || n == 0x1680 || (0x2000 ≤ n && n ≤ 0x200a) ||
    n == 0x2028 || n == 0x2029 || n == 0x202f || n == 0x205f || n == 0x3000 || n == 0xfeff

def trim (s : JsString) : JsString := (s.dropWhile isTrimmed).rdropWhile isTrimmed

def slash : Nat := '/'.toNat

def separator : JsString := utf16 " › "

/-! ## categoryName.ts and lineName.ts -/

/-- The codes `categoryName` knows. -/
def categoryCodes : List String := [
  "0101", "02", "030101",
  "0401010101", "0401010201", "0401010202", "0401010203", "0401010204", "0401010205", "0401010206",
  "0401020101", "0401020201", "0401020202", "0401020203", "0401020204", "0401020205", "0401020206",
  "0401020207", "0401020208", "0401020209", "0401020210", "0401020211", "0401020212",
  "0401030101",
  "0401040101", "0401040102", "0401040103", "0401040104", "0401040105",
  "0401050101", "0401050102",
  "0402010101", "0402010201", "0402010202", "0402010203", "0402010204", "0402010205", "0402010206",
  "0402010207",
  "0402020101", "0402020201", "0402020202",
  "0403", "0404",
  "0405010101", "0405010102", "0405010201", "0405010202", "0405010203",
  "0406",
  "050101", "050102",
  "05010301", "05010302", "05010303", "05010304", "05010305", "050104",
  "050201", "050202",
  "060101", "060102", "060201",
  "07", "08", "09"]

/-- The codes `branchName` knows. -/
def branchCodes : List String := [
  "0301",
  "0401", "040101", "04010101", "04010102", "040102", "04010201", "04010202",
  "040103", "04010301", "040104", "04010401", "040105", "04010501",
  "0402", "040201", "04020101", "04020102", "040202", "04020201", "04020202",
  "0405", "040501", "04050101", "04050102",
  "0501", "050103", "0502",
  "0601", "0602"]

/-- The codes `lineName` knows. -/
def lineCodes : List String := [
  "01", "02", "03", "04", "05", "06", "07", "08", "09",
  "91", "92", "93", "94", "95"]

/-- The message of a key in the reader's language. -/
abbrev Catalogue := JsString → JsString

/-- The name of a code the build knows, or else the one of the wire. -/
def nameOf (known : List String) (messages : String) (t : Catalogue) (code fallback : JsString) :
    JsString :=
  if known.any (utf16 · = code) then t (utf16 messages ++ code) else fallback

def categoryName : Catalogue → JsString → JsString → JsString := nameOf categoryCodes "category."

def branchName : Catalogue → JsString → JsString → JsString := nameOf branchCodes "categoryBranch."

def lineName : Catalogue → JsString → JsString → JsString := nameOf lineCodes "line."

/-! ## categoryTree.ts -/

/-- `Category` of data/review.ts, as far as the tree reads it. -/
structure PickerCategory where
  code : JsString
  label : JsString
  path : JsString
deriving DecidableEq, Repr

structure TreeLeaf where
  key : JsString
  code : JsString
  name : JsString
  label : JsString
  trail : List JsString
deriving DecidableEq, Repr

inductive TreeNode where
  | leaf (leaf : TreeLeaf)
  | branch (key label : JsString) (children : List TreeNode)

namespace TreeNode

def key : TreeNode → JsString
  | leaf l => l.key
  | branch key _ _ => key

def label : TreeNode → JsString
  | leaf l => l.label
  | branch _ label _ => label

def children : TreeNode → List TreeNode
  | leaf _ => []
  | branch _ _ children => children

mutual

def leavesOf : TreeNode → List TreeLeaf
  | leaf l => [l]
  | branch _ _ children => leavesOfAll children

def leavesOfAll : List TreeNode → List TreeLeaf
  | [] => []
  | node :: nodes => leavesOf node ++ leavesOfAll nodes

end

mutual

/-- The keys of the branches. -/
def branchKeys : TreeNode → List JsString
  | leaf _ => []
  | branch key _ children => key :: branchKeysAll children

def branchKeysAll : List TreeNode → List JsString
  | [] => []
  | node :: nodes => branchKeys node ++ branchKeysAll nodes

end

mutual

/-- `children.push` on the branch of a key. -/
def push : TreeNode → JsString → TreeNode → TreeNode
  | leaf l, _, _ => leaf l
  | branch key label children, parent, child => branch key label
      (pushAll children parent child ++ if key = parent then [child] else [])

def pushAll : List TreeNode → JsString → TreeNode → List TreeNode
  | [], _, _ => []
  | node :: nodes, parent, child => push node parent child :: pushAll nodes parent child

end

end TreeNode

def segmentsOf (path : JsString) : List JsString :=
  ((path.splitOnP (· = '>'.toNat)).map trim).filter (· ≠ [])

/-- The code has two characters for each segment. -/
def lined (code : JsString) (segments : List JsString) : Bool := code.length = 2 * segments.length

/-- The code of the ancestor of an index, where the leaf's lines up. -/
def ancestorCode (isLined : Bool) (code : JsString) (i : Nat) : Option JsString :=
  if isLined then some (code.take (2 * (i + 1))) else none

def ancestorLabel (t : Catalogue) (isLined : Bool) (code : JsString) (i : Nat) (raw : JsString) :
    JsString :=
  match ancestorCode isLined code i with
  | none => raw
  | some code => if i = 0 then lineName t code raw else branchName t code raw

def ancestorKey (isLined : Bool) (code parent : JsString) (i : Nat) (raw : JsString) : JsString :=
  parent ++ slash :: (ancestorCode isLined code i).getD raw

/-- What the loop over the ancestors has: the tree with its branches, the branch it stands on, and
the names so far. -/
structure Descent where
  root : TreeNode
  parent : JsString
  trail : List JsString

def descend (t : Catalogue) (isLined : Bool) (code : JsString) :
    Nat → List JsString → Descent → Descent
  | _, [], at_ => at_
  | i, raw :: ancestors, at_ =>
      let label := ancestorLabel t isLined code i raw
      let key := ancestorKey isLined code at_.parent i raw
      let root :=
        if key ∈ at_.root.branchKeys then at_.root
        else at_.root.push at_.parent (.branch key label [])
      descend t isLined code (i + 1) ancestors ⟨root, key, at_.trail ++ [label]⟩

def addCategory (t : Catalogue) (root : TreeNode) (c : PickerCategory) : TreeNode :=
  let segments := segmentsOf c.path
  let ancestors := segments.dropLast
  let at_ := descend t (lined c.code segments) c.code 0 ancestors ⟨root, [], []⟩
  let name := categoryName t c.code c.label
  at_.root.push at_.parent (.leaf ⟨at_.parent ++ slash :: c.code, c.code, name, name, at_.trail⟩)

/-- The tree before anything is folded. -/
def grow (t : Catalogue) (categories : List PickerCategory) : TreeNode :=
  categories.foldl (addCategory t) (.branch [] [] [])

mutual

/-- The loop of `fold` on one child, which goes by the label so far, and `fold` of what it ends on. -/
def foldNode (label : JsString) : TreeNode → TreeNode
  | .leaf l => .leaf { l with label }
  | .branch _ _ [only] => foldNode (label ++ separator ++ only.label) only
  | .branch key _ children => .branch key label (foldAll children)

def foldAll : List TreeNode → List TreeNode
  | [] => []
  | node :: nodes => foldNode node.label node :: foldAll nodes

end

/-- A section keeps its place; a leaf beside the sections is not touched. -/
def foldSection : TreeNode → TreeNode
  | .leaf l => .leaf l
  | .branch key label children => .branch key label (foldAll children)

def buildCategoryTree (t : Catalogue) (categories : List PickerCategory) : TreeNode :=
  let root := grow t categories
  .branch root.key root.label (root.children.map foldSection)

/-! ## data/review.ts -/

end Vekst.Web
