import Vekst.Proof.Web.CategoryTree
import Vekst.Relational.Simulation
import Vekst.Web.ReviewScreen

namespace Vekst.Web

/-! ## The branches that are open -/

namespace TreeNode

variable {key label : JsString} {child node root : TreeNode} {children way : List TreeNode}

theorem flatMap_sublist {α β : Type} {f g : α → List β} {items : List α}
    (each : ∀ x ∈ items, (f x).Sublist (g x)) : (items.flatMap f).Sublist (items.flatMap g) := by
  induction items with
  | nil => exact .slnil
  | cons x items ih =>
      rw [List.flatMap_cons, List.flatMap_cons]
      exact (each x (by simp)).append (ih fun y member => each y (by simp [member]))

/-- Folding makes no branch. -/
theorem branchKeys_foldNode (label : JsString) (node : TreeNode) :
    (foldNode label node).branchKeys.Sublist node.branchKeys := by
  induction node using induct generalizing label with
  | leaf l => exact .slnil
  | branch key own children ih =>
      have all : ((foldAll children).flatMap branchKeys).Sublist (children.flatMap branchKeys) := by
        rw [foldAll_eq, List.flatMap_map]
        exact flatMap_sublist fun child member => ih child member child.label
      cases children with
      | nil => exact List.Sublist.refl _
      | cons only rest => cases rest with
        | nil =>
            rw [foldNode, branchKeys_branch, List.flatMap_singleton]
            exact (ih only (by simp) _).cons key
        | cons second rest =>
            rw [foldNode, branchKeys_branch, branchKeys_branch]
            · exact all.cons_cons key
            · simp

theorem branchKeys_foldSection (node : TreeNode) :
    (foldSection node).branchKeys.Sublist node.branchKeys := by
  cases node with
  | leaf l => exact .slnil
  | branch key label children =>
      rw [foldSection, branchKeys_branch, branchKeys_branch, foldAll_eq, List.flatMap_map]
      exact (flatMap_sublist fun child _ => branchKeys_foldNode child.label child).cons_cons key

theorem isBranchOf_iff : isBranchOf key node = true ↔ ∃ label children, node = branch key label children := by
  cases node with
  | leaf l => simp [isBranchOf]
  | branch own label children =>
      rw [isBranchOf, decide_eq_true_eq]
      exact ⟨fun same => ⟨label, children, same ▸ rfl⟩, fun ⟨_, _, same⟩ => (branch.inj same).1⟩

theorem find_branch (distinct : (children.flatMap branchKeys).Nodup)
    (member : branch key label way ∈ children) :
    children.find? (isBranchOf key) = some (branch key label way) := by
  induction children with
  | nil => cases member
  | cons first rest ih =>
      rw [List.flatMap_cons, List.nodup_append] at distinct
      obtain ⟨-, later, apart⟩ := distinct
      rcases List.mem_cons.mp member with rfl | inside
      · exact List.find?_cons_of_pos (by simp [isBranchOf])
      · have other : ¬ isBranchOf key first = true := by
          intro same
          obtain ⟨_, _, rfl⟩ := isBranchOf_iff.mp same
          have own : key ∈ rest.flatMap branchKeys :=
            List.mem_flatMap.mpr ⟨_, inside, by simp [branchKeys]⟩
          exact apart key (by simp [branchKeys]) key own rfl
        rw [List.find?_cons_of_neg other]
        exact ih later inside

/-- The keys of the branches on a way open it again. -/
theorem openPath_keys (root : TreeNode) (keys : List JsString) :
    openPath root ((openPath root keys).map TreeNode.key) = openPath root keys := by
  induction keys generalizing root with
  | nil => rfl
  | cons key keys ih =>
      cases found : root.children.find? (isBranchOf key) with
      | none => simp [openPath, found]
      | some next =>
          obtain ⟨label, children, rfl⟩ := isBranchOf_iff.mp (List.find?_some found)
          have own : (branch key label children).key = key := rfl
          simp only [openPath, found, List.map_cons, own, ih]

/-- The branches below are told apart by their keys, too. -/
theorem nodup_below (distinct : root.branchKeys.Nodup) (member : child ∈ root.children) :
    child.branchKeys.Nodup := by
  cases root with
  | leaf l => cases member
  | branch key label children =>
      rw [branchKeys_branch, List.nodup_cons] at distinct
      exact (List.nodup_flatMap.mp distinct.2).1 child member

/-- One branch further down. -/
theorem openPath_snoc (distinct : root.branchKeys.Nodup)
    (opened : openPath root (way.map TreeNode.key) = way)
    (member : branch key label children ∈ (way.getLast?.getD root).children) :
    openPath root (way.map TreeNode.key ++ [key]) = way ++ [branch key label children] := by
  induction way generalizing root with
  | nil =>
      have below : (root.children.flatMap branchKeys).Nodup := by
        cases root with
        | leaf l => cases member
        | branch _ _ _ => exact (List.nodup_cons.mp (branchKeys_branch ▸ distinct)).2
      simp only [List.map_nil, List.nil_append, openPath, find_branch below member]
  | cons first way ih =>
      rw [List.map_cons, openPath] at opened
      cases found : root.children.find? (isBranchOf first.key) with
      | none => rw [found] at opened; cases opened
      | some next =>
          rw [found] at opened
          obtain ⟨rfl, rest⟩ := List.cons.inj opened
          have last : (next :: way).getLast?.getD root = way.getLast?.getD next := by
            rw [List.getLast?_cons, Option.getD_some]
          have further := ih (nodup_below distinct (List.mem_of_find?_eq_some found)) rest (last ▸ member)
          rw [List.map_cons, List.cons_append, openPath, found]
          exact congrArg (next :: ·) further

end TreeNode

theorem nodup_branchKeys (t : Catalogue) (categories : List PickerCategory) :
    (buildCategoryTree t categories).branchKeys.Nodup := by
  have whole := whole_grow t categories
  obtain ⟨children, made⟩ := whole.top
  have distinct := whole.distinct
  rw [made] at distinct
  rw [buildCategoryTree, made]
  refine distinct.sublist ?_
  simp only [TreeNode.branchKeys_branch, TreeNode.children, TreeNode.key, List.flatMap_map]
  exact (TreeNode.flatMap_sublist fun node _ => TreeNode.branchKeys_foldSection node).cons_cons []

namespace Screen
open PickerCategory

variable {b : Browser} {s start : Screen} {e : Event} {code : JsString} {request : ResolveGroupRequest}

/-! ## What the screen offers -/

/-- The leaves are those of the categories offered. -/
theorem exists_leaf_iff : (∃ l ∈ s.allLeaves, l.code = code) ↔
    ∃ c ∈ s.categories.getD [], isOffered s.side c ∧ c.code = code := by
  let offered := (s.categories.getD []).filter (isOffered s.side)
  have leaves := (leavesOf_buildCategoryTree s.locale offered).map TreeLeaf.code
  have plain : (s.allLeaves.map TreeNode.plain).map TreeLeaf.code = s.allLeaves.map TreeLeaf.code := by
    rw [List.map_map]
    rfl
  have made : (offered.map (leafFor s.locale)).map TreeLeaf.code = offered.map PickerCategory.code := by
    rw [List.map_map]
    rfl
  have codes : (s.allLeaves.map TreeLeaf.code).Perm (offered.map PickerCategory.code) := by
    rw [← plain, ← made]
    exact leaves
  rw [← List.mem_map, codes.mem_iff, List.mem_map]
  simp only [offered, List.mem_filter, and_assoc]

theorem leavesOf_openPath {root node : TreeNode} {keys : List JsString}
    (member : node ∈ openPath root keys) {l : TreeLeaf} (inside : l ∈ node.leavesOf) :
    l ∈ root.leavesOf := by
  induction keys generalizing root with
  | nil => cases member
  | cons key keys ih =>
      rw [openPath] at member
      cases found : root.children.find? (TreeNode.isBranchOf key) with
      | none => rw [found] at member; cases member
      | some next =>
          rw [found] at member
          have below : l ∈ next.leavesOf := by
            rcases List.mem_cons.mp member with rfl | further
            · exact inside
            · exact ih further
          cases root with
          | leaf l => cases found
          | branch key label children =>
              rw [TreeNode.leavesOf_branch]
              exact List.mem_flatMap.mpr ⟨next, List.mem_of_find?_eq_some found, below⟩

/-- A leaf on show is one of the tree. -/
theorem mem_allLeaves {l : TreeLeaf} (shown : .leaf l ∈ s.visibleOptions b) : l ∈ s.allLeaves := by
  rw [visibleOptions] at shown
  split at shown
  · obtain ⟨other, listed, same⟩ := List.mem_map.mp shown
    obtain rfl := TreeNode.leaf.inj same
    exact (List.mem_filter.mp listed).1
  · have inside : ∀ node : TreeNode, .leaf l ∈ node.children → l ∈ node.leavesOf := by
      intro node member
      cases node with
      | leaf _ => cases member
      | branch key label children =>
          rw [TreeNode.leavesOf_branch]
          exact List.mem_flatMap.mpr ⟨_, member, List.mem_singleton_self l⟩
    cases last : s.trail.getLast? with
    | none =>
        rw [last] at shown
        exact inside _ shown
    | some node =>
        rw [last] at shown
        exact leavesOf_openPath (List.mem_of_getLast? last) (inside node shown)

/-! ## What becomes of a choice -/

/-- An option is picked, by a click or by its number. -/
inductive Picks (b : Browser) (s : Screen) : Event → TreeNode → Prop
  | click {i : Nat} {node : TreeNode} : s.drawn → (s.visibleOptions b)[i]? = some node →
      Picks b s (.clickOption i) node
  | digit {press : KeyPress} {n : Nat} {node : TreeNode} : press.modified = false →
      digitOf press.key = some n → (s.visibleOptions b)[n - 1]? = some node →
      Picks b s (.press press) node

theorem Picks.mem {node : TreeNode} (picks : Picks b s e node) : node ∈ s.visibleOptions b := by
  cases picks with
  | click _ found => exact List.mem_of_getElem? found
  | digit _ _ found => exact List.mem_of_getElem? found

/-- A choice is dropped, or kept on a side that is still shown. -/
def Spares (s after : Screen) : Prop :=
  after.selected = none ∨ after.selected = s.selected ∧ (s.showAllSides → after.showAllSides)

theorem spares_refl (s : Screen) : Spares s s := .inr ⟨rfl, id⟩

theorem spares_decide (s : Screen) (decision : ReviewDecision) : Spares s (s.decide_ decision).1 := by
  rw [decide_]
  split <;> exact .inr ⟨rfl, id⟩

theorem spares_approve (s : Screen) : Spares s s.approve.1 := by
  rw [approve]
  split
  · exact spares_refl s
  · exact spares_decide s _

theorem spares_click {effect : Effect} (spares : Spares s effect.1) : Spares s (s.click effect).1 := by
  rw [click]
  split
  · exact spares
  · exact spares_refl s

theorem spares_answer (s : Screen) (call : Deciding) (answer : Answer) :
    Spares s (s.answer b call answer) := by
  cases answer with
  | resolved => exact .inl rfl
  | refused code => exact .inr ⟨rfl, id⟩
  | thrown => exact .inr ⟨rfl, id⟩

theorem chooseAt_cases (b : Browser) (s : Screen) (i : Nat) : Spares s (s.chooseAt b i) ∨
    ∃ l, (s.visibleOptions b)[i]? = some (.leaf l) ∧ s.chooseAt b i = s.choose (.leaf l) := by
  rw [chooseAt]
  cases found : (s.visibleOptions b)[i]? with
  | none => exact .inl (spares_refl s)
  | some node => cases node with
    | leaf l => exact .inr ⟨l, rfl, rfl⟩
    | branch key label children => exact .inl (.inr ⟨rfl, id⟩)

theorem onKey_cases (b : Browser) (s : Screen) (press : KeyPress) :
    Spares s (s.onKey b press).1 ∨
      ∃ l, Picks b s (.press press) (.leaf l) ∧ (s.onKey b press).1 = s.choose (.leaf l) := by
  rw [onKey]
  split
  · exact .inl (spares_refl s)
  next modified =>
    cases digit : digitOf press.key with
    | some n =>
        rcases chooseAt_cases b s (n - 1) with spares | ⟨l, found, chosen⟩
        · exact .inl spares
        · exact .inr ⟨l, .digit (Bool.not_eq_true _ ▸ modified) digit found, chosen⟩
    | none =>
        apply Or.inl
        dsimp only
        repeat' split
        all_goals first
          | exact spares_refl s
          | exact spares_approve s
          | exact spares_decide s _
          | exact .inl rfl

theorem on_cases (b : Browser) (s : Screen) (e : Event) : Spares s (s.on b e).1 ∨
    ∃ l, Picks b s e (.leaf l) ∧ (s.on b e).1 = s.choose (.leaf l) := by
  cases e with
  | press press => exact onKey_cases b s press
  | search query => exact .inl (spares_click (.inr ⟨rfl, id⟩))
  | clickOption i =>
      by_cases drawn : s.drawn
      · have clicked : s.on b (.clickOption i) = (s.chooseAt b i, []) := if_pos drawn
        rw [clicked]
        rcases chooseAt_cases b s i with spares | ⟨l, found, chosen⟩
        · exact .inl spares
        · exact .inr ⟨l, .click drawn found, chosen⟩
      · have unclicked : s.on b (.clickOption i) = (s, []) := if_neg drawn
        rw [unclicked]
        exact .inl (spares_refl s)
  | clickCrumb i =>
      refine .inl (spares_click ?_)
      split
      · exact .inr ⟨rfl, id⟩
      · exact spares_refl s
  | clickSides =>
      refine .inl (spares_click ?_)
      split
      · exact spares_refl s
      · by_cases all : s.showAllSides
        · exact .inl (if_pos all)
        · exact .inr ⟨if_neg all, fun shown => absurd shown all⟩
  | clickApprove => exact .inl (spares_click (spares_approve s))
  | clickTransfer => exact .inl (spares_click (spares_decide s _))
  | clickNotPNL => exact .inl (spares_click (spares_decide s _))
  | answered i answer =>
      apply Or.inl
      rw [on]
      split
      · exact spares_refl s
      · exact spares_answer _ _ answer
  | groupsRead answer => cases answer <;> exact .inl (.inr ⟨rfl, id⟩)
  | categoriesRead categories => exact .inl (.inr ⟨rfl, id⟩)
  | localeChosen locale => exact .inl (.inr ⟨rfl, id⟩)

/-! ## What is approved was chosen -/

/-- A category is selected for the group that is open. -/
def Holds (key code : JsString) (s : Screen) : Prop :=
  s.openKey = some key ∧ s.selected = some code

/-- The sides are not narrowed again. -/
def Widens (s after : Screen) : Prop := s.showAllSides → after.showAllSides

theorem holds_step {key : JsString} (holds : Holds key code (s.step b e)) :
    ((s.openKey = some key ∧ ∃ l, Picks b s e (.leaf l) ∧ l.code = code) ∨ Holds key code s) ∧
      Widens s (s.step b e) := by
  obtain ⟨opened, selected⟩ := holds
  rw [step, settle] at opened selected ⊢
  split at opened
  next same =>
    rw [if_pos same] at selected ⊢
    rw [same] at opened
    rcases on_cases b s e with (dropped | ⟨kept, wide⟩) | ⟨l, picks, chosen⟩
    · rw [dropped] at selected
      cases selected
    · exact ⟨.inr ⟨opened, kept ▸ selected⟩, wide⟩
    · rw [chosen] at selected ⊢
      exact ⟨.inl ⟨opened, l, picks, Option.some.inj selected⟩, id⟩
  next other =>
    rw [if_neg other] at selected
    cases selected

/-- A leaf of the category was picked for a group, while it was offered there, and from then on the
group has been open and the category selected. -/
structure Chosen (b : Browser) (start : Screen) (key code : JsString) (before : List Event)
    (choice : Event) (since : List Event) : Prop where
  group : (start.run b before).openKey = some key
  picked : ∃ l, Picks b (start.run b before) choice (.leaf l) ∧ l.code = code
  offered : ∃ c ∈ (start.run b before).categories.getD [],
    isOffered (start.run b before).side c ∧ c.code = code
  kept : ∀ passed, passed <+: since → Holds key code (start.run b (before ++ choice :: passed))

/-- A request decides the group that is open; where it names a category, that is the armed one. -/
def Asks (s : Screen) (request : ResolveGroupRequest) : Prop :=
  s.openKey = some request.counterpartyKey ∧
    (request.outcome = .categorised → s.armed = some request.categoryCode)

theorem asks_decide {decision : ReviewDecision} (sent : request ∈ (s.decide_ decision).2)
    (armed : ∀ code, decision = .classify code → s.armed = some code) : Asks s request := by
  rw [decide_] at sent
  cases opened : s.group with
  | none => rw [opened] at sent; cases sent
  | some group =>
      rw [opened] at sent
      obtain rfl := List.mem_singleton.mp sent
      refine ⟨by rw [openKey, opened]; rfl, fun outcome => ?_⟩
      cases decision with
      | classify code => exact armed code rfl
      | internalTransfer => cases outcome
      | notInPNL => cases outcome

theorem asks_approve (sent : request ∈ s.approve.2) : Asks s request := by
  rw [approve] at sent
  cases armed : s.armed with
  | none => rw [armed] at sent; cases sent
  | some code =>
      rw [armed] at sent
      refine asks_decide sent fun other same => ?_
      obtain rfl := ReviewDecision.classify.inj same
      exact armed

theorem asks_click {effect : Effect} (asks : request ∈ effect.2 → Asks s request)
    (sent : request ∈ (s.click effect).2) : Asks s request := by
  rw [click] at sent
  split at sent
  · exact asks sent
  · cases sent

theorem asks_onKey {press : KeyPress} (sent : request ∈ (s.onKey b press).2) : Asks s request := by
  rw [onKey] at sent
  repeat' split at sent
  all_goals first
    | exact asks_approve sent
    | exact asks_decide sent (by simp)
    | cases sent

theorem asks_sends (sent : request ∈ s.sends b e) : Asks s request := by
  rw [sends] at sent
  cases e with
  | press press => exact asks_onKey sent
  | clickApprove => exact asks_click asks_approve sent
  | clickTransfer => exact asks_click (fun sent => asks_decide sent (by simp)) sent
  | clickNotPNL => exact asks_click (fun sent => asks_decide sent (by simp)) sent
  | clickCrumb i =>
      refine asks_click (fun sent => ?_) sent
      split at sent <;> cases sent
  | clickSides =>
      refine asks_click (fun sent => ?_) sent
      split at sent <;> cases sent
  | answered i answer =>
      rw [on] at sent
      split at sent <;> cases sent
  | groupsRead answer => cases answer <;> cases sent
  | search query => exact asks_click (fun sent => by cases sent) sent
  | clickOption i => exact asks_click (fun sent => by cases sent) sent
  | categoriesRead categories => cases sent
  | localeChosen locale => cases sent

/-- What the sides on show offer, they offer as long as the group keeps its sign. -/
theorem isOffered_widens {now : Screen} {c other : PickerCategory} (offered : isOffered s.side c)
    (same : other.code = c.code) (wide : Widens s now) (sign : now.groupSide = s.groupSide) :
    isOffered now.side other := by
  rw [isOffered, same, ← isOffered]
  rw [side] at offered ⊢
  by_cases all : now.showAllSides
  · simp [all, isOffered]
  · have before_ : ¬ s.showAllSides = true := fun shown => all (wide shown)
    rw [if_neg before_] at offered
    rw [if_neg all, sign]
    exact offered

theorem selectedLeaf_of_mem (armed : s.armed = some code)
    (listed : ∃ l ∈ s.allLeaves, l.code = code) : ∃ l, s.selectedLeaf = some l ∧ l.code = code := by
  cases found : s.allLeaves.find? (·.code = code) with
  | none =>
      obtain ⟨l, member, own⟩ := listed
      simpa [own] using List.find?_eq_none.mp found l member
  | some l =>
      refine ⟨l, ?_, by simpa using List.find?_some found⟩
      rw [selectedLeaf, armed, Option.bind_some]
      exact found

/-- The screen names the category, if it is still one and the group has the sign it had. -/
def Named (then_ now : Screen) (code : JsString) : Prop :=
  (∃ c ∈ now.categories.getD [], c.code = code) → now.groupSide = then_.groupSide →
    ∃ l, now.selectedLeaf = some l ∧ l.code = code

/-- A category that is armed was chosen. -/
theorem chosen_of_armed {key : JsString} {events : List Event} (fresh : start.selected = none)
    (opened : (start.run b events).openKey = some key)
    (armed : (start.run b events).armed = some code) :
    ∃ before choice since, events = before ++ choice :: since ∧
      Chosen b start key code before choice since ∧
        Named (start.run b before) (start.run b events) code := by
  have now : Holds key code (start.run b events) :=
    ⟨opened, (Option.filter_eq_some_iff.mp armed).1⟩
  have absent : ¬ Holds key code start := fun holds => by simpa [fresh] using holds.2
  obtain ⟨before, choice, since, rfl, ⟨group, l, picks, own⟩, kept⟩ :=
    Relational.foldl_since (fun _ _ _ first then_ shown => then_ (first shown))
      (fun s e => holds_step) absent now
  obtain ⟨c, listed, offered, same⟩ := exists_leaf_iff.mp ⟨l, mem_allLeaves picks.mem, own⟩
  refine ⟨before, choice, since, rfl, ?_, fun ⟨other, known, same'⟩ sign => ?_⟩
  · exact ⟨group, ⟨l, picks, own⟩, ⟨c, listed, offered, same⟩, fun passed early => (kept passed early).1⟩
  · have wide := (kept since List.prefix_rfl).2
    refine selectedLeaf_of_mem armed (exists_leaf_iff.mpr ⟨other, known, ?_, same'⟩)
    exact isOffered_widens offered (same'.trans same.symm) wide sign

/-- However the reviewer works the screen, the queue and the categories are read again and answers
come in, a decision is sent for the group that is open. A category that is sent was picked for that
group among its options, and the group has been open and the category selected ever since. -/
theorem approved_as_chosen {b : Browser} {locale : Catalogue} {groups : Option (List ReviewGroup)}
    {failed : Bool} {cached : Option (List PickerCategory)} {events : List Event} {e : Event}
    {request : ResolveGroupRequest}
    (sent : request ∈ ((openScreen locale groups failed cached).run b events).sends b e) :
    ((openScreen locale groups failed cached).run b events).openKey = some request.counterpartyKey ∧
      (request.outcome = .categorised → ∃ before choice since, events = before ++ choice :: since ∧
        Chosen b (openScreen locale groups failed cached) request.counterpartyKey
          request.categoryCode before choice since ∧
        Named ((openScreen locale groups failed cached).run b before)
          ((openScreen locale groups failed cached).run b events) request.categoryCode) := by
  obtain ⟨opened, armed⟩ := asks_sends sent
  exact ⟨opened, fun outcome => chosen_of_armed rfl opened (armed outcome)⟩

/-! A payment out and a payment in, with a category for each. -/

def sampleBrowser : Browser := ⟨id, fun code _ => code⟩

def hosting : PickerCategory := ⟨utf16 "0403", utf16 "Hosting", utf16 "OPEX > Hosting"⟩

def sales : PickerCategory := ⟨utf16 "0101", utf16 "Sales", utf16 "NET SALES > Sales"⟩

def sampleGroups : List ReviewGroup :=
  [⟨utf16 "name:VEKTOR", utf16 "-100"⟩, ⟨utf16 "name:ALFA", utf16 "500"⟩]

def sampleScreen : Screen := openScreen id (some sampleGroups) false (some [sales, hosting])

def keyed (key : String) : Event := .press ⟨utf16 key, false, false⟩

/-- The section of the expenses is opened, its one category picked, and Enter pressed. -/
theorem approved_as_chosen_sample : ∃ before choice since,
    [keyed "1", keyed "1"] = before ++ choice :: since ∧
      Chosen sampleBrowser sampleScreen (utf16 "name:VEKTOR") hosting.code before choice since ∧
        Named (sampleScreen.run sampleBrowser before)
          (sampleScreen.run sampleBrowser [keyed "1", keyed "1"]) hosting.code := by
  have sent : ⟨utf16 "name:VEKTOR", .categorised, hosting.code⟩ ∈
      (sampleScreen.run sampleBrowser [keyed "1", keyed "1"]).sends sampleBrowser (keyed "Enter") := by
    decide +kernel
  exact (approved_as_chosen sent).2 rfl

/-- The arrow leaves the choice behind with its group. -/
example : (sampleScreen.run sampleBrowser [keyed "1", keyed "1", keyed "ArrowDown"]).sends
    sampleBrowser (keyed "Enter") = [] := by decide +kernel

/-! ## Every category can be approved -/

/-- What browses the options: to clear the filter, to open a branch or to pick a leaf, to go back up,
and to show the other side. -/
def Browses : Event → Prop
  | .search query => query = []
  | .clickOption _ => True
  | .clickCrumb _ => True
  | .clickSides => True
  | _ => False

/-- An event that sends nothing and opens no other group. -/
theorem step_of_on {after : Screen} (done_ : s.on b e = (after, []))
    (same : after.openKey = s.openKey) : s.step b e = after ∧ s.sends b e = [] := by
  refine ⟨?_, by rw [sends, done_]⟩
  rw [step, done_, settle, if_pos same]

/-- A click on an option that the screen shows. -/
theorem clickOption_eq {i : Nat} {node : TreeNode} (drawn : s.drawn)
    (found : (s.visibleOptions b)[i]? = some node) :
    s.step b (.clickOption i) = s.choose node ∧ s.sends b (.clickOption i) = [] := by
  have clicked : s.on b (.clickOption i) = (s.choose node, []) := by
    show s.click (s.chooseAt b i, []) = _
    rw [click, if_pos drawn, chooseAt, found]
  apply step_of_on clicked
  cases node <;> rfl

/-- From the branch that is open, every leaf below it is some clicks away. -/
theorem leaf_reached {l : TreeLeaf} (node : TreeNode)
    (branch : ∃ key label children, node = .branch key label children)
    (inside : l ∈ node.leavesOf) {s : Screen} (drawn : s.drawn) (cleared : s.needle b = [])
    (stands : s.trail.getLast?.getD s.tree = node) :
    ∃ clicks openKeys, (∀ e ∈ clicks, Browses e) ∧
      s.run b clicks = { s with selected := some l.code, openKeys } ∧ s.sent b clicks = [] := by
  induction node using TreeNode.induct generalizing s with
  | leaf _ => obtain ⟨_, _, _, other⟩ := branch; cases other
  | branch key label children ih =>
      rw [TreeNode.leavesOf_branch] at inside
      obtain ⟨child, member, below⟩ := List.mem_flatMap.mp inside
      have shown : s.visibleOptions b = children := by
        rw [visibleOptions, if_neg (not_not.mpr cleared), stands]
        rfl
      obtain ⟨i, found⟩ := List.getElem?_of_mem member
      rw [← shown] at found
      obtain ⟨clicked, nothing⟩ := clickOption_eq drawn found
      cases child with
      | leaf own =>
          obtain rfl := List.mem_singleton.mp below
          refine ⟨[.clickOption i], s.openKeys, by simp [Browses], ?_, ?_⟩
          · rw [run, List.foldl_cons, List.foldl_nil, clicked]
            rfl
          · rw [sent, sent, nothing, List.append_nil]
      | branch key' label' children' =>
          let next := s.choose (.branch key' label' children')
          have trail : next.trail = s.trail ++ [.branch key' label' children'] := by
            refine TreeNode.openPath_snoc (nodup_branchKeys _ _) (TreeNode.openPath_keys _ _) ?_
            show _ ∈ (s.trail.getLast?.getD s.tree).children
            rw [stands]
            exact member
          have stands' : next.trail.getLast?.getD next.tree = .branch key' label' children' := by
            rw [trail, List.getLast?_concat, Option.getD_some]
          obtain ⟨clicks, openKeys, browses, reached, quiet⟩ :=
            @ih _ member ⟨_, _, _, rfl⟩ below next drawn cleared stands'
          refine ⟨.clickOption i :: clicks, openKeys, ?_, ?_, ?_⟩
          · intro e clicked
            rcases List.mem_cons.mp clicked with rfl | later
            · trivial
            · exact browses e later
          · rw [run, List.foldl_cons, clicked]
            exact reached
          · rw [sent, nothing, clicked, List.nil_append]
            exact quiet

theorem sent_append (events later : List Event) :
    s.sent b (events ++ later) = s.sent b events ++ (s.run b events).sent b later := by
  induction events generalizing s with
  | nil => rfl
  | cons e events ih => rw [List.cons_append, sent, sent, ih, List.append_assoc]; rfl

/-- The filter is cleared, the side shown that has the category, and nothing left open. -/
theorem offered_reached {c : PickerCategory} (drawn : s.drawn) :
    ∃ clicks selected openKeys showAllSides, (∀ e ∈ clicks, Browses e) ∧ s.sent b clicks = [] ∧
      s.run b clicks = { s with query := [], selected, openKeys, showAllSides } ∧
        isOffered (s.run b clicks).side c ∧ (s.run b clicks).trail = [] := by
  let cleared : Screen := { s with query := [] }
  have clears : s.on b (.search []) = (cleared, []) := if_pos drawn
  obtain ⟨first, nothing⟩ := step_of_on clears rfl
  have run_one : s.run b [.search []] = cleared := first
  have run_two (e : Event) : s.run b [.search [], e] = cleared.step b e := by
    rw [run, List.foldl_cons, first]
    rfl
  have sent_two (e : Event) (quiet : cleared.sends b e = []) : s.sent b [.search [], e] = [] := by
    rw [sent, sent, sent, nothing, first, quiet]
    rfl
  by_cases offered : isOffered s.side c
  · by_cases top : s.trail = []
    · refine ⟨[.search []], s.selected, s.openKeys, s.showAllSides, by simp [Browses], ?_, run_one, ?_⟩
      · rw [sent, sent, nothing, List.append_nil]
      · rw [run_one]
        exact ⟨offered, top⟩
    · have up : cleared.on b (.clickCrumb 0) = ({ cleared with openKeys := [] }, []) := by
        have below : (!cleared.searching && decide (0 < cleared.trail.length)) = true := by
          have some_ : 0 < cleared.trail.length := List.length_pos_of_ne_nil top
          have idle : cleared.searching = false := by simp [cleared, searching, trim]
          rw [idle, decide_eq_true some_]
          rfl
        show cleared.click _ = _
        rw [click, if_pos (show cleared.drawn from drawn), if_pos below]
        rfl
      obtain ⟨second, quiet⟩ := step_of_on up rfl
      refine ⟨[.search [], .clickCrumb 0], s.selected, [], s.showAllSides, by simp [Browses],
        sent_two _ quiet, ?_, ?_⟩
      · rw [run_two, second]
      · rw [run_two, second]
        exact ⟨offered, rfl⟩
  · have narrow : s.showAllSides = false := by
      by_contra all
      rw [side, if_pos (by simpa using all)] at offered
      simp [isOffered] at offered
    cases sign : s.groupSide with
    | none =>
        rw [side, narrow, if_neg (by simp), sign] at offered
        simp [isOffered] at offered
    | some own =>
        have shows : cleared.on b .clickSides =
            ({ cleared with showAllSides := true, openKeys := [] }, []) := by
          show cleared.click _ = _
          rw [click, if_pos (show cleared.drawn from drawn), show cleared.groupSide = some own from sign]
          show ({ cleared with
            selected := if s.showAllSides then none else s.selected
            showAllSides := !s.showAllSides
            openKeys := [] }, []) = _
          rw [narrow]
          rfl
        obtain ⟨second, quiet⟩ := step_of_on shows rfl
        refine ⟨[.search [], .clickSides], s.selected, [], true, by simp [Browses],
          sent_two _ quiet, ?_, ?_⟩
        · rw [run_two, second]
        · rw [run_two, second]
          exact ⟨by simp [side, isOffered], rfl⟩

/-- Whatever the screen shows of a group, every category that is listed can be approved for it by
clicks that send nothing else. -/
theorem every_category_approvable {c : PickerCategory} {group : ReviewGroup}
    (lower : b.toLowerCase [] = []) (drawn : s.drawn) (opened : s.group = some group)
    (listed : c ∈ s.categories.getD []) (named : c.code ≠ []) :
    ∃ clicks, (∀ e ∈ clicks, Browses e) ∧
      s.sent b (clicks ++ [.clickApprove]) = [⟨group.counterpartyKey, .categorised, c.code⟩] := by
  obtain ⟨clicks, selected, openKeys, showAllSides, browses, quiet, ran, offered, top⟩ :=
    @offered_reached b s c drawn
  have known : c ∈ (s.run b clicks).categories.getD [] := by rwa [ran]
  obtain ⟨l, inside, own⟩ := exists_leaf_iff.mpr ⟨c, known, offered, rfl⟩
  have branch : ∃ key label children, (s.run b clicks).tree = .branch key label children :=
    ⟨_, _, _, rfl⟩
  have drawn' : (s.run b clicks).drawn := by rwa [ran]
  have cleared : (s.run b clicks).needle b = [] := by
    rw [ran]
    exact lower
  have stands : (s.run b clicks).trail.getLast?.getD (s.run b clicks).tree = (s.run b clicks).tree := by
    rw [top]
    rfl
  obtain ⟨further, opens, browses', reached, quiet'⟩ :=
    leaf_reached _ branch inside drawn' cleared stands
  refine ⟨clicks ++ further, fun e member => ?_, ?_⟩
  · exact (List.mem_append.mp member).elim (browses e) (browses' e)
  · have armed : ((s.run b clicks).run b further).armed = some c.code := by
      rw [reached, own]
      exact if_pos (decide_eq_true named)
    have still : ((s.run b clicks).run b further).group = some group := by
      rw [reached, ran]
      exact opened
    have shown : ((s.run b clicks).run b further).drawn := by
      rw [reached]
      exact drawn'
    have approves : ((s.run b clicks).run b further).approve.2 =
        [⟨group.counterpartyKey, .categorised, c.code⟩] := by
      rw [approve, armed]
      show (decide_ _ _).2 = _
      rw [decide_, still]
      rfl
    rw [List.append_assoc, sent_append, sent_append, quiet, quiet', sent, sent, sends, on, click,
      if_pos shown, approves]
    rfl

/-- The category of the other side is approved for a payment out. -/
theorem every_category_approvable_sample : ∃ clicks, (∀ e ∈ clicks, Browses e) ∧
    sampleScreen.sent sampleBrowser (clicks ++ [.clickApprove]) =
      [⟨utf16 "name:VEKTOR", .categorised, sales.code⟩] := by
  have drawn : sampleScreen.drawn = true := by decide
  have listed : sales ∈ sampleScreen.categories.getD [] := List.mem_cons_self
  have named : sales.code ≠ [] := by decide
  exact every_category_approvable rfl drawn rfl listed named

end Screen

end Vekst.Web
