import Vekst.Web.CategoryTree

namespace Vekst.Web

namespace TreeNode

/-! ## Reading a tree -/

/-- A branch holds what all of its children hold. -/
theorem induct {motive : TreeNode → Prop} (leaf : ∀ l, motive (leaf l))
    (branch : ∀ key label children, (∀ node ∈ children, motive node) →
      motive (branch key label children)) (node : TreeNode) : motive node :=
  @TreeNode.rec motive (fun nodes => ∀ node ∈ nodes, motive node) leaf
    (fun key label children known => branch key label children known) (fun _ member => by cases member)
    (fun _ _ first rest node member => by
      rcases List.mem_cons.mp member with rfl | later
      · exact first
      · exact rest node later) node

theorem leavesOfAll_eq (nodes : List TreeNode) : leavesOfAll nodes = nodes.flatMap leavesOf := by
  induction nodes with
  | nil => rfl
  | cons node nodes ih => rw [leavesOfAll, ih, List.flatMap_cons]

theorem branchKeysAll_eq (nodes : List TreeNode) : branchKeysAll nodes = nodes.flatMap branchKeys := by
  induction nodes with
  | nil => rfl
  | cons node nodes ih => rw [branchKeysAll, ih, List.flatMap_cons]

theorem pushAll_eq (parent : JsString) (child : TreeNode) (nodes : List TreeNode) :
    pushAll nodes parent child = nodes.map fun node => node.push parent child := by
  induction nodes with
  | nil => rfl
  | cons node nodes ih => rw [pushAll, ih, List.map_cons]

variable {parent key label : JsString} {child node : TreeNode} {children : List TreeNode}

@[simp] theorem leavesOf_branch : (branch key label children).leavesOf = children.flatMap leavesOf :=
  leavesOfAll_eq children

@[simp] theorem branchKeys_branch :
    (branch key label children).branchKeys = key :: children.flatMap branchKeys :=
  congrArg (key :: ·) (branchKeysAll_eq children)

theorem push_branch : (branch key label children).push parent child =
    branch key label ((children.map fun node => node.push parent child) ++ if key = parent then [child] else []) := by
  rw [push, pushAll_eq]

@[simp] theorem key_push : (node.push parent child).key = node.key := by
  cases node <;> rfl

/-! ## Pushing onto a branch -/

theorem push_absent (absent : parent ∉ node.branchKeys) : node.push parent child = node := by
  induction node using induct with
  | leaf l => rfl
  | branch key label children ih =>
      rw [branchKeys_branch, List.mem_cons, not_or] at absent
      have same : (children.map fun node => node.push parent child) = children := by
        nth_rewrite 2 [← List.map_id children]
        apply List.map_congr_left
        intro node member
        exact ih node member fun inside => absent.2 (List.mem_flatMap.mpr ⟨node, member, inside⟩)
      rw [push_branch, same, if_neg (Ne.symm absent.1), List.append_nil]

theorem map_push_absent (child : TreeNode) (absent : parent ∉ children.flatMap branchKeys) :
    (children.map fun node => node.push parent child) = children := by
  nth_rewrite 2 [← List.map_id children]
  apply List.map_congr_left
  intro node member
  exact push_absent fun inside => absent (List.mem_flatMap.mpr ⟨node, member, inside⟩)

section Collected

variable {α : Type} {f : TreeNode → List α} {own : JsString → List α}

/-- Of anything the branches collect, the tree has what it had, and the child's where it is pushed. -/
theorem mem_push (branches : ∀ key label children,
    f (branch key label children) = own key ++ children.flatMap f) {a : α} :
    a ∈ f (node.push parent child) ↔ a ∈ f node ∨ parent ∈ node.branchKeys ∧ a ∈ f child := by
  induction node using induct with
  | leaf l => simp [push, branchKeys]
  | branch key label children ih =>
      have below : (∃ node ∈ children, a ∈ f (node.push parent child)) ↔
          (∃ node ∈ children, a ∈ f node) ∨
            (∃ node ∈ children, parent ∈ node.branchKeys) ∧ a ∈ f child := by
        constructor
        · rintro ⟨node, member, inside⟩
          rcases (ih node member).mp inside with held_ | ⟨known, new⟩
          · exact .inl ⟨node, member, held_⟩
          · exact .inr ⟨⟨node, member, known⟩, new⟩
        · rintro (⟨node, member, held_⟩ | ⟨⟨node, member, known⟩, new⟩)
          · exact ⟨node, member, (ih node member).mpr (.inl held_)⟩
          · exact ⟨node, member, (ih node member).mpr (.inr ⟨known, new⟩)⟩
      rw [push_branch, branches, branches, branchKeys_branch]
      simp only [List.mem_append, List.mem_flatMap, List.mem_cons, List.mem_map, exists_exists_and_eq_and,
        or_and_right, exists_or, below]
      by_cases same : key = parent
      · simp only [same, if_true, List.mem_singleton, exists_eq_left, true_and]
        grind
      · simp only [if_neg same, Ne.symm same, List.not_mem_nil, false_and, exists_false, or_false,
          false_or]
        grind

/-- Once, where the branches have different keys. -/
theorem push_perm (branches : ∀ key label children,
    f (branch key label children) = own key ++ children.flatMap f)
    (distinct : node.branchKeys.Nodup) (known : parent ∈ node.branchKeys) :
    (f (node.push parent child)).Perm (f node ++ f child) := by
  induction node using induct with
  | leaf l => cases known
  | branch key label children ih =>
      rw [branchKeys_branch, List.nodup_cons] at distinct
      rw [push_branch, branches, branches, List.append_assoc]
      apply List.Perm.append_left
      by_cases same : key = parent
      · rw [if_pos same, map_push_absent _ (same ▸ distinct.1), List.flatMap_append]
        simp
      · rw [branchKeys_branch, List.mem_cons] at known
        rw [if_neg same, List.append_nil]
        obtain ⟨node, member, inside⟩ := List.mem_flatMap.mp (known.resolve_left (Ne.symm same))
        obtain ⟨front, back, rfl⟩ := List.append_of_mem member
        have keys := distinct.2
        rw [List.flatMap_append, List.flatMap_cons] at keys
        obtain ⟨-, middle, before⟩ := List.nodup_append.mp keys
        obtain ⟨own_, -, behind⟩ := List.nodup_append.mp middle
        have first := map_push_absent child fun held_ =>
          before parent held_ parent (List.mem_append_left _ inside) rfl
        have last := map_push_absent child fun held_ => behind parent inside parent held_ rfl
        rw [List.map_append, List.map_cons, first, last, List.flatMap_append, List.flatMap_cons,
          List.flatMap_append, List.flatMap_cons, List.append_assoc, List.append_assoc]
        apply List.Perm.append_left
        have pushed := (ih node member own_ inside).append_right (back.flatMap f)
        rw [List.append_assoc] at pushed
        exact pushed.trans (List.perm_append_comm.append_left _)

end Collected

theorem mem_leavesOf_push {l : TreeLeaf} : l ∈ (node.push parent child).leavesOf ↔
    l ∈ node.leavesOf ∨ parent ∈ node.branchKeys ∧ l ∈ child.leavesOf :=
  @mem_push _ _ _ _ leavesOf (fun _ => []) (fun _ _ children => leavesOfAll_eq children) l

theorem mem_branchKeys_push : key ∈ (node.push parent child).branchKeys ↔
    key ∈ node.branchKeys ∨ parent ∈ node.branchKeys ∧ key ∈ child.branchKeys :=
  @mem_push _ _ _ _ branchKeys (fun own => [own]) (fun _ _ _ => branchKeys_branch) key

theorem branchKeys_push_ne_nil (some_ : node.branchKeys ≠ []) :
    (node.push parent child).branchKeys ≠ [] := by
  intro none_
  obtain ⟨key, inside⟩ := List.exists_mem_of_ne_nil _ some_
  have kept := (@mem_branchKeys_push parent key child node).mpr (.inl inside)
  rw [none_] at kept
  cases kept

theorem leavesOf_push_perm (distinct : node.branchKeys.Nodup) (known : parent ∈ node.branchKeys) :
    (node.push parent child).leavesOf.Perm (node.leavesOf ++ child.leavesOf) :=
  @push_perm _ _ _ _ leavesOf (fun _ => []) (fun _ _ children => leavesOfAll_eq children) distinct known

theorem branchKeys_push_perm (distinct : node.branchKeys.Nodup) (known : parent ∈ node.branchKeys) :
    (node.push parent child).branchKeys.Perm (node.branchKeys ++ child.branchKeys) :=
  @push_perm _ _ _ _ branchKeys (fun own => [own]) (fun _ _ _ => branchKeys_branch) distinct known

/-! ## Folding chains -/

/-- A leaf as its category made it, whatever its parent shows. -/
def plain (l : TreeLeaf) : TreeLeaf := { l with label := l.name }

/-- The labels down to where the chain of only children ends. -/
def onlyLabels : TreeNode → List JsString
  | .branch _ label [only] => label :: onlyLabels only
  | node => [node.label]

def onlyEnd : TreeNode → TreeNode
  | .branch _ _ [only] => onlyEnd only
  | node => node

/-- No branch has one child. -/
inductive Wide : TreeNode → Prop
  | leaf (l : TreeLeaf) : Wide (.leaf l)
  | branch {key label : JsString} {children : List TreeNode} : children.length ≠ 1 →
      (∀ node ∈ children, Wide node) → Wide (.branch key label children)

/-- Under a label, the folded node is the one a chain of only children ends on. Below it the label
of each is that of its chain, every name of it. -/
inductive Keeps : JsString → TreeNode → TreeNode → Prop
  | leaf {node : TreeNode} {l : TreeLeaf} (label : JsString) : onlyEnd node = .leaf l →
      Keeps label node (.leaf { l with label })
  | branch {node : TreeNode} {key own : JsString} {children folded : List TreeNode} (label : JsString) :
      onlyEnd node = .branch key own children →
      List.Forall₂ (fun child => Keeps (separator.intercalate (onlyLabels child)) child) children folded →
      Keeps label node (.branch key label folded)

theorem foldAll_eq (nodes : List TreeNode) :
    foldAll nodes = nodes.map fun node => foldNode node.label node := by
  induction nodes with
  | nil => rfl
  | cons node nodes ih => rw [foldAll, ih, List.map_cons]

theorem leavesOf_foldNode (label : JsString) (node : TreeNode) :
    (foldNode label node).leavesOf.map plain = node.leavesOf.map plain := by
  induction node using induct generalizing label with
  | leaf l => rfl
  | branch key own children ih =>
      have all : ((foldAll children).flatMap leavesOf).map plain =
          (children.flatMap leavesOf).map plain := by
        rw [foldAll_eq, List.flatMap_map, List.map_flatMap, List.map_flatMap]
        apply List.flatMap_congr
        intro node member
        exact ih node member node.label
      cases children with
      | nil => rfl
      | cons only rest => cases rest with
        | nil =>
            rw [foldNode, ih only (by simp)]
            simp
        | cons second rest =>
            rw [foldNode, leavesOf_branch, leavesOf_branch]
            · exact all
            · simp

theorem Keeps.above {label key own : JsString} {only folded : TreeNode}
    (keeps : Keeps label only folded) : Keeps label (.branch key own [only]) folded := by
  cases keeps with
  | leaf _ ends => exact .leaf label ends
  | branch _ ends children => exact .branch label ends children

end TreeNode

/-! ## The way down to a leaf -/

def keysFrom (isLined : Bool) (code : JsString) : JsString → Nat → List JsString → List JsString
  | _, _, [] => []
  | parent, i, raw :: ancestors =>
      let key := ancestorKey isLined code parent i raw
      key :: keysFrom isLined code key (i + 1) ancestors

def labelsFrom (t : Catalogue) (isLined : Bool) (code : JsString) : Nat → List JsString → List JsString
  | _, [] => []
  | i, raw :: ancestors =>
      ancestorLabel t isLined code i raw :: labelsFrom t isLined code (i + 1) ancestors

namespace PickerCategory

def segments (c : PickerCategory) : List JsString := segmentsOf c.path

def isLined (c : PickerCategory) : Bool := lined c.code c.segments

/-- The keys of the branches above the leaf, the section's first. -/
def keys (c : PickerCategory) : List JsString := keysFrom c.isLined c.code [] 0 c.segments.dropLast

def parentKey (c : PickerCategory) : JsString := c.keys.getLast?.getD []

/-- The leaf the category becomes. -/
def leafFor (t : Catalogue) (c : PickerCategory) : TreeLeaf :=
  let name := categoryName t c.code c.label
  ⟨c.parentKey ++ slash :: c.code, c.code, name, name,
    labelsFrom t c.isLined c.code 0 c.segments.dropLast⟩

end PickerCategory

open PickerCategory

section Grow

variable {t : Catalogue} {isLined : Bool} {code parent key label : JsString} {i : Nat}
  {ancestors : List JsString} {at_ : Descent} {root : TreeNode}
  {all done : List PickerCategory} {c d : PickerCategory}

theorem descend_parent : (descend t isLined code i ancestors at_).parent =
    ((keysFrom isLined code at_.parent i ancestors).getLast?).getD at_.parent := by
  induction ancestors generalizing i at_ with
  | nil => rfl
  | cons raw ancestors ih =>
      rw [descend, ih, keysFrom]
      dsimp only
      rw [List.getLast?_cons]
      cases (keysFrom isLined code (ancestorKey isLined code at_.parent i raw) (i + 1)
        ancestors).getLast? <;> rfl

theorem descend_trail : (descend t isLined code i ancestors at_).trail =
    at_.trail ++ labelsFrom t isLined code i ancestors := by
  induction ancestors generalizing i at_ with
  | nil => simp [descend, labelsFrom]
  | cons raw ancestors ih =>
      rw [descend, ih, labelsFrom]
      simp

theorem addCategory_eq : addCategory t root c =
    (descend t c.isLined c.code 0 c.segments.dropLast ⟨root, [], []⟩).root.push c.parentKey
      (.leaf (c.leafFor t)) := by
  have parent := @descend_parent t c.isLined c.code 0 c.segments.dropLast ⟨root, [], []⟩
  have trail := @descend_trail t c.isLined c.code 0 c.segments.dropLast ⟨root, [], []⟩
  rw [addCategory]
  rw [← segments, ← PickerCategory.isLined, parent, trail]
  rfl

theorem ancestorKey_ne_nil {raw : JsString} : ancestorKey isLined code parent i raw ≠ [] := by
  simp [ancestorKey]

theorem keysFrom_ne_nil (member : key ∈ keysFrom isLined code parent i ancestors) : key ≠ [] := by
  induction ancestors generalizing parent i with
  | nil => cases member
  | cons raw ancestors ih =>
      rcases List.mem_cons.mp member with rfl | later
      · exact ancestorKey_ne_nil
      · exact ih later

theorem parentKey_mem (some_ : c.keys ≠ []) : c.parentKey ∈ c.keys := by
  rw [parentKey, List.getLast?_eq_some_getLast some_]
  exact List.getLast_mem some_

theorem parentKey_eq_nil : c.parentKey = [] ↔ c.keys = [] := by
  constructor
  · intro none_
    by_contra some_
    exact keysFrom_ne_nil (parentKey_mem some_) none_
  · intro none_
    rw [parentKey, none_]
    rfl

/-- The tree after some of the categories: its branches are told apart by their keys. -/
structure Whole (t : Catalogue) (done : List PickerCategory) (root : TreeNode) : Prop where
  top : ∃ children, root = .branch [] [] children
  distinct : root.branchKeys.Nodup
  leaves : root.leavesOf.Perm (done.map (leafFor t))

theorem Whole.nil_mem (whole : Whole t done root) : [] ∈ root.branchKeys := by
  obtain ⟨children, rfl⟩ := whole.top
  simp

theorem top_push {child : TreeNode} (top : ∃ children, root = .branch [] [] children) :
    ∃ children, root.push parent child = .branch [] [] children := by
  obtain ⟨children, rfl⟩ := top
  exact ⟨_, TreeNode.push_branch⟩

/-- A new branch below a known one. -/
theorem Whole.branch (whole : Whole t done root) (known : parent ∈ root.branchKeys)
    (absent : key ∉ root.branchKeys) : Whole t done (root.push parent (.branch key label [])) := by
  have keys := @TreeNode.branchKeys_push_perm parent (.branch key label []) root whole.distinct known
  have leaves := @TreeNode.leavesOf_push_perm parent (.branch key label []) root whole.distinct known
  refine ⟨top_push whole.top, keys.nodup_iff.mpr ?_, ?_⟩
  · rw [List.nodup_append]
    refine ⟨whole.distinct, by simp, ?_⟩
    rintro a there b new rfl
    simp only [TreeNode.branchKeys_branch, List.flatMap_nil, List.mem_singleton] at new
    exact absent (new ▸ there)
  · simp only [TreeNode.leavesOf_branch, List.flatMap_nil, List.append_nil] at leaves
    exact leaves.trans whole.leaves

theorem whole_descend (whole : Whole t done at_.root) (known : at_.parent ∈ at_.root.branchKeys) :
    Whole t done (descend t isLined code i ancestors at_).root ∧
      (descend t isLined code i ancestors at_).parent ∈
        (descend t isLined code i ancestors at_).root.branchKeys := by
  induction ancestors generalizing i at_ with
  | nil => exact ⟨whole, known⟩
  | cons raw ancestors ih =>
      rw [descend]
      split
      next there => exact ih whole there
      next absent =>
        apply ih (whole.branch known absent)
        exact TreeNode.mem_branchKeys_push.mpr (.inr ⟨known, by simp⟩)

theorem whole_addCategory (whole : Whole t done root) :
    Whole t (done ++ [c]) (addCategory t root c) := by
  obtain ⟨grown, known⟩ := @whole_descend t c.isLined c.code 0 c.segments.dropLast
    ⟨root, [], []⟩ done whole whole.nil_mem
  rw [descend_parent] at known
  have keys := @TreeNode.branchKeys_push_perm _ (.leaf (c.leafFor t)) _ grown.distinct known
  have leaves := @TreeNode.leavesOf_push_perm _ (.leaf (c.leafFor t)) _ grown.distinct known
  rw [addCategory_eq]
  refine ⟨top_push grown.top, keys.nodup_iff.mpr ?_, ?_⟩
  · simpa [TreeNode.branchKeys] using grown.distinct
  · rw [List.map_append]
    exact leaves.trans (grown.leaves.append_right _)

theorem whole_foldl (whole : Whole t done root) (rest : List PickerCategory) :
    Whole t (done ++ rest) (rest.foldl (addCategory t) root) := by
  induction rest generalizing done root with
  | nil => simpa using whole
  | cons c rest ih =>
      have next := ih (@whole_addCategory t root done c whole)
      rwa [List.append_assoc, List.singleton_append] at next

theorem whole_grow (t : Catalogue) (categories : List PickerCategory) :
    Whole t categories (grow t categories) := by
  have start : Whole t [] (.branch [] [] []) := ⟨⟨[], rfl⟩, by simp, by simp⟩
  exact whole_foldl start categories

/-! ## Every leaf in its section -/

/-- The first leaf that has a branch's key settles where the branch stands: beside the sections, or
where the branch above it on the way down to that leaf does. -/
inductive Under (all : List PickerCategory) : JsString → JsString → Prop
  | section_ {c : PickerCategory} {key : JsString} :
      all.find? (fun c => key ∈ c.keys) = some c → c.keys[0]? = some key → Under all key key
  | inside {c : PickerCategory} {i : Nat} {parent key top : JsString} :
      all.find? (fun c => key ∈ c.keys) = some c → c.keys[i]? = some parent →
      c.keys[i + 1]? = some key → Under all parent top → Under all key top

theorem length_lt_of_mem_keysFrom (member : key ∈ keysFrom isLined code parent i ancestors) :
    parent.length < key.length := by
  induction ancestors generalizing parent i with
  | nil => cases member
  | cons raw ancestors ih =>
      have longer : parent.length < (ancestorKey isLined code parent i raw).length := by
        rw [ancestorKey, List.length_append, List.length_cons]
        omega
      rcases List.mem_cons.mp member with rfl | later
      · exact longer
      · exact longer.trans (ih later)

theorem nodup_keysFrom : (keysFrom isLined code parent i ancestors).Nodup := by
  induction ancestors generalizing parent i with
  | nil => exact List.nodup_nil
  | cons raw ancestors ih =>
      rw [keysFrom, List.nodup_cons]
      exact ⟨fun later => (length_lt_of_mem_keysFrom later).false, ih⟩

theorem keys_inj {j : Nat} (one : c.keys[i]? = some key) (other : c.keys[j]? = some key) : i = j :=
  (List.getElem?_inj (List.getElem?_eq_some_iff.mp one).1 nodup_keysFrom).mp (one.trans other.symm)

section Under

variable {top top' : JsString}

theorem Under.unique (one : Under all key top) (other : Under all key top') : top = top' := by
  induction one with
  | section_ first head => cases other with
    | section_ _ _ => rfl
    | inside first' _ there _ =>
        obtain rfl := Option.some.inj (first.symm.trans first')
        cases keys_inj head there
  | inside first above there _ ih => cases other with
    | section_ first' head =>
        obtain rfl := Option.some.inj (first.symm.trans first')
        cases keys_inj head there
    | inside first' above' there' rest =>
        obtain rfl := Option.some.inj (first.symm.trans first')
        obtain rfl := Nat.succ.inj (keys_inj there there')
        obtain rfl := Option.some.inj (above.symm.trans above')
        exact ih rest

end Under

/-- The tree after some of the categories: their branches are there, each under its section, and so
are their leaves. -/
structure Placed (t : Catalogue) (all done : List PickerCategory) (root : TreeNode) : Prop where
  top : ∃ children, root = .branch [] [] children
  known : ∀ c ∈ done, ∀ key ∈ c.keys, key ∈ root.branchKeys
  branches : ∀ top ∈ root.children, ∀ key ∈ top.branchKeys, Under all key top.key
  leaves : ∀ top ∈ root.children, ∀ l ∈ top.leavesOf, ∃ c ∈ done, l = c.leafFor t ∧
    (top = .leaf l ∧ c.keys = [] ∨ top.branchKeys ≠ [] ∧ Under all c.parentKey top.key)

theorem place_push {old child : TreeNode} {l : TreeLeaf}
    (place : old = .leaf l ∧ c.keys = [] ∨ old.branchKeys ≠ [] ∧ Under all c.parentKey old.key) :
    old.push parent child = .leaf l ∧ c.keys = [] ∨
      (old.push parent child).branchKeys ≠ [] ∧ Under all c.parentKey (old.push parent child).key := by
  rcases place with ⟨rfl, none_⟩ | ⟨some_, under⟩
  · exact .inl ⟨rfl, none_⟩
  · rw [TreeNode.key_push]
    exact .inr ⟨TreeNode.branchKeys_push_ne_nil some_, under⟩

theorem mem_children_push {child top : TreeNode} (branch : ∃ children, root = .branch [] [] children)
    (member : top ∈ (root.push parent child).children) :
    (∃ old ∈ root.children, top = old.push parent child) ∨ parent = [] ∧ top = child := by
  obtain ⟨children, rfl⟩ := branch
  rw [TreeNode.push_branch] at member
  rcases List.mem_append.mp member with old | new
  · obtain ⟨node, inside, rfl⟩ := List.mem_map.mp old
    exact .inl ⟨node, inside, rfl⟩
  · split at new
    next same => exact .inr ⟨same.symm, List.mem_singleton.mp new⟩
    next => cases new

/-- A new branch, where its key says. -/
theorem Placed.branch (placed : Placed t all done root) (section_ : parent = [] → Under all key key)
    (below : ∀ top, Under all parent top → Under all key top) :
    Placed t all done (root.push parent (.branch key label [])) := by
  constructor
  · exact top_push placed.top
  · intro c member key_ inside
    exact TreeNode.mem_branchKeys_push.mpr (.inl (placed.known c member key_ inside))
  · intro node member other inside
    rcases mem_children_push placed.top member with ⟨old, there, rfl⟩ | ⟨none_, rfl⟩
    · rw [TreeNode.key_push]
      rcases TreeNode.mem_branchKeys_push.mp inside with before | ⟨above, new⟩
      · exact placed.branches old there other before
      · simp only [TreeNode.branchKeys_branch, List.flatMap_nil, List.mem_singleton] at new
        rw [new]
        exact below old.key (placed.branches old there parent above)
    · simp only [TreeNode.branchKeys_branch, List.flatMap_nil, List.mem_singleton] at inside
      rw [inside]
      exact section_ none_
  · intro node member l inside
    rcases mem_children_push placed.top member with ⟨old, there, rfl⟩ | ⟨none_, rfl⟩
    · rcases TreeNode.mem_leavesOf_push.mp inside with before | ⟨-, new⟩
      · obtain ⟨d, listed, made, place⟩ := placed.leaves old there l before
        exact ⟨d, listed, made, place_push place⟩
      · simp at new
    · simp at inside

theorem Placed.leaf (placed : Placed t all done root) (own : ∀ key ∈ c.keys, key ∈ root.branchKeys) :
    Placed t all (done ++ [c]) (root.push c.parentKey (.leaf (c.leafFor t))) := by
  constructor
  · exact top_push placed.top
  · intro d member key_ inside
    apply TreeNode.mem_branchKeys_push.mpr ∘ .inl
    rcases List.mem_append.mp member with before | new
    · exact placed.known d before key_ inside
    · exact own key_ (List.mem_singleton.mp new ▸ inside)
  · intro node member other inside
    rcases mem_children_push placed.top member with ⟨old, there, rfl⟩ | ⟨none_, rfl⟩
    · rw [TreeNode.key_push]
      rcases TreeNode.mem_branchKeys_push.mp inside with before | ⟨-, new⟩
      · exact placed.branches old there other before
      · cases new
    · cases inside
  · intro node member l inside
    rcases mem_children_push placed.top member with ⟨old, there, rfl⟩ | ⟨none_, rfl⟩
    · rcases TreeNode.mem_leavesOf_push.mp inside with before | ⟨below, new⟩
      · obtain ⟨d, listed, made, place⟩ := placed.leaves old there l before
        exact ⟨d, List.mem_append_left _ listed, made, place_push place⟩
      · obtain rfl := List.mem_singleton.mp new
        exact ⟨c, by simp, rfl, place_push (.inr ⟨List.ne_nil_of_mem below,
          placed.branches old there c.parentKey below⟩)⟩
    · obtain rfl := List.mem_singleton.mp inside
      exact ⟨c, by simp, rfl, .inl ⟨rfl, parentKey_eq_nil.mp none_⟩⟩

theorem leavesOf_foldSection (node : TreeNode) :
    (foldSection node).leavesOf.map TreeNode.plain = node.leavesOf.map TreeNode.plain := by
  cases node with
  | leaf l => rfl
  | branch key label children =>
      rw [foldSection, TreeNode.leavesOf_branch, TreeNode.leavesOf_branch, TreeNode.foldAll_eq,
        List.flatMap_map, List.map_flatMap, List.map_flatMap]
      apply List.flatMap_congr
      intro node _
      exact TreeNode.leavesOf_foldNode node.label node

theorem leavesOf_buildCategoryTree (t : Catalogue) (categories : List PickerCategory) :
    ((buildCategoryTree t categories).leavesOf.map TreeNode.plain).Perm
      (categories.map (leafFor t)) := by
  obtain ⟨children, made⟩ := (whole_grow t categories).top
  have leaves := (whole_grow t categories).leaves.map TreeNode.plain
  have same : (categories.map (leafFor t)).map TreeNode.plain = categories.map (leafFor t) := by
    rw [List.map_map]
    rfl
  have folded : (buildCategoryTree t categories).leavesOf.map TreeNode.plain =
      (grow t categories).leavesOf.map TreeNode.plain := by
    rw [buildCategoryTree, made]
    simp only [TreeNode.leavesOf_branch, TreeNode.children]
    rw [List.flatMap_map, List.map_flatMap, List.map_flatMap]
    apply List.flatMap_congr
    intro node _
    exact leavesOf_foldSection node
  rw [folded, ← same]
  exact leaves

/-- A branch of the root has both leaves below it. -/
def SameSection (tree : TreeNode) (one other : TreeLeaf) : Prop :=
  ∃ key label children, .branch key label children ∈ tree.children ∧
    one ∈ (children.flatMap TreeNode.leavesOf).map TreeNode.plain ∧
      other ∈ (children.flatMap TreeNode.leavesOf).map TreeNode.plain

end Grow

end Vekst.Web
