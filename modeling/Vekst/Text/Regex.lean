import Mathlib.Data.List.DropRight
import Mathlib.Data.List.Infix
import Mathlib.Data.List.TakeWhile

namespace Regex

abbrev Text := List Char

/-! ## Patterns -/

/-- A regular expression matched by backtracking, of the features that need no back reference. -/
inductive Pattern where
  | empty
  | set (p : Char → Bool)
  /-- As many characters of a class as there are, down to the least number. -/
  | many (p : Char → Bool) (least : Nat)
  | seq (first second : Pattern)
  | alt (first second : Pattern)
  | start
  | finish
  /-- Where a word character meets another one or an end. -/
  | boundary (word : Char → Bool)
  | behind (p : Char → Bool)
  | ahead (r : Pattern)

namespace Pattern

def opt (r : Pattern) : Pattern := .alt r .empty

def text (s : Text) : Pattern := s.foldr (fun c r => .seq (.set (· = c)) r) .empty

def sequence (rs : List Pattern) : Pattern := rs.foldr .seq .empty

def oneOf : List Pattern → Pattern
  | [] => .set fun _ => false
  | r :: rs => .alt r (oneOf rs)

/-- The lengths a match at a position may have, in the order they are tried. The text before the
position is given backwards. -/
def lengths : Pattern → Text → Text → List Nat
  | .empty, _, _ => [0]
  | .set p, _, rest => match rest with
      | [] => []
      | c :: _ => if p c then [1] else []
  | .many p least, _, rest =>
      (List.range ((rest.takeWhile p).length + 1)).reverse.filter (least ≤ ·)
  | .seq r s, before, rest => (r.lengths before rest).flatMap fun n =>
      (s.lengths ((rest.take n).reverse ++ before) (rest.drop n)).map (n + ·)
  | .alt r s, before, rest => r.lengths before rest ++ s.lengths before rest
  | .start, before, _ => if before.isEmpty then [0] else []
  | .finish, _, rest => if rest.isEmpty then [0] else []
  | .boundary word, before, rest => if before.head?.any word ≠ rest.head?.any word then [0] else []
  | .behind p, before, _ => if before.head?.any p then [0] else []
  | .ahead r, before, rest => if (r.lengths before rest).isEmpty then [] else [0]

def matchAt (r : Pattern) (before rest : Text) : Option Nat := (r.lengths before rest).head?

end Pattern

/-! ## Replacement from the left -/

/-- Every match that `find` reports, replaced; the next is looked for behind it. -/
def substituteFrom (find : Text → Text → Option Nat) (new : Text) : Nat → Text → Text → Text
  | 0, before, [] => match find before [] with
      | none => []
      | some _ => new
  | _ + 1, _, [] => []
  | skip + 1, before, c :: rest => substituteFrom find new skip (c :: before) rest
  | 0, before, c :: rest => match find before (c :: rest) with
      | none => c :: substituteFrom find new 0 (c :: before) rest
      | some 0 => new ++ c :: substituteFrom find new 0 (c :: before) rest
      | some (n + 1) => new ++ substituteFrom find new n (c :: before) rest

def sub (r : Pattern) (new s : Text) : Text := substituteFrom r.matchAt new 0 [] s

/-- The position of the first match. -/
def searchFrom (find : Text → Text → Option Nat) : Text → Text → Option Nat
  | before, [] => (find before []).map fun _ => 0
  | before, c :: rest => match find before (c :: rest) with
      | some _ => some 0
      | none => (searchFrom find (c :: before) rest).map (· + 1)

def search (r : Pattern) (s : Text) : Option Nat := searchFrom r.matchAt [] s

/-- Every occurrence of a text replaced by another. -/
def replaceAll (old new : Text) (s : Text) : Text :=
  substituteFrom (fun _ rest => if old.isPrefixOf rest then some old.length else none) new 0 [] s

/-- The words between characters of a class. -/
def fields (p : Char → Bool) (s : Text) : List Text := (s.splitOnP p).filter (· ≠ [])

def strip (p : Char → Bool) (s : Text) : Text := (s.dropWhile p).rdropWhile p

theorem drop_takeWhile (p : Char → Bool) (s : Text) :
    s.drop (s.takeWhile p).length = s.dropWhile p := by
  have parts : s.takeWhile p ++ s.dropWhile p = s := List.takeWhile_append_dropWhile
  calc s.drop (s.takeWhile p).length
      = (s.takeWhile p ++ s.dropWhile p).drop (s.takeWhile p).length := by rw [parts]
    _ = s.dropWhile p := List.drop_left

theorem take_takeWhile (p : Char → Bool) (s : Text) :
    s.take (s.takeWhile p).length = s.takeWhile p :=
  (List.prefix_iff_eq_take.mp (List.takeWhile_prefix p)).symm

/-! ## What a pattern matches -/

namespace Pattern

variable {r s : Pattern} {p : Char → Bool} {before rest : Text}

@[simp] theorem lengths_empty : Pattern.empty.lengths before rest = [0] := rfl

@[simp] theorem lengths_set_nil : (Pattern.set p).lengths before [] = [] := rfl

@[simp] theorem lengths_set_cons {c : Char} :
    (Pattern.set p).lengths before (c :: rest) = if p c then [1] else [] := rfl

theorem lengths_many {least : Nat} : (Pattern.many p least).lengths before rest =
    (List.range ((rest.takeWhile p).length + 1)).reverse.filter (least ≤ ·) := rfl

theorem lengths_behind :
    (Pattern.behind p).lengths before rest = if before.head?.any p then [0] else [] := rfl

theorem lengths_ahead_set :
    (Pattern.ahead (.set p)).lengths before rest = if rest.head?.any p then [0] else [] := by
  cases rest with
  | nil => rfl
  | cons c rest => cases found : p c <;> simp [Pattern.lengths, found]

theorem lengths_seq : (Pattern.seq r s).lengths before rest = (r.lengths before rest).flatMap fun n =>
    (s.lengths ((rest.take n).reverse ++ before) (rest.drop n)).map (n + ·) := rfl

@[simp] theorem lengths_alt :
    (Pattern.alt r s).lengths before rest = r.lengths before rest ++ s.lengths before rest := rfl

theorem lengths_text (t : Text) :
    (Pattern.text t).lengths before rest = if t.isPrefixOf rest then [t.length] else [] := by
  induction t generalizing before rest with
  | nil => rfl
  | cons c t ih =>
      rw [text, List.foldr_cons, lengths_seq]
      cases rest with
      | nil => rfl
      | cons d rest =>
          rw [lengths_set_cons]
          by_cases same : d = c
          · have tail := @ih ([d] ++ before) rest
            rw [text] at tail
            rw [if_pos (decide_eq_true same)]
            simp only [List.flatMap_cons, List.flatMap_nil, List.append_nil, List.take_succ_cons,
              List.take_zero, List.reverse_singleton, List.drop_succ_cons, List.drop_zero, tail]
            by_cases found : t.isPrefixOf rest = true
            · simp [List.isPrefixOf, same, found, Nat.add_comm]
            · simp [List.isPrefixOf, same, found]
          · have other : (c == d) = false := beq_false_of_ne fun h => same h.symm
            simp [List.isPrefixOf, same, other]

theorem matchAt_text (t : Text) :
    (Pattern.text t).matchAt before rest = if t.isPrefixOf rest then some t.length else none := by
  rw [matchAt, lengths_text]
  split <;> rfl

theorem matchAt_many_one :
    (Pattern.many p 1).matchAt before rest =
      if rest.takeWhile p = [] then none else some (rest.takeWhile p).length := by
  rw [matchAt, lengths, List.range_succ, List.reverse_append, List.reverse_singleton,
    List.singleton_append]
  split
  next none_ => simp [none_]
  next some_ =>
    have positive := List.length_pos_of_ne_nil some_
    have least : 1 ≤ (rest.takeWhile p).length := positive
    rw [List.filter_cons, if_pos (decide_eq_true least), List.head?_cons]

end Pattern

/-! ## What a replacement leaves -/

section Substitute

variable {find : Text → Text → Option Nat} {new before rest : Text}

@[simp] theorem substituteFrom_succ_cons (n : Nat) (c : Char) :
    substituteFrom find new (n + 1) before (c :: rest) =
      substituteFrom find new n (c :: before) rest := rfl

theorem substituteFrom_none {c : Char} (missed : find before (c :: rest) = none) :
    substituteFrom find new 0 before (c :: rest) =
      c :: substituteFrom find new 0 (c :: before) rest := by
  simp [substituteFrom, missed]

theorem substituteFrom_drop {n : Nat} (short : n ≤ rest.length) :
    substituteFrom find new n before rest =
      substituteFrom find new 0 ((rest.take n).reverse ++ before) (rest.drop n) := by
  induction n generalizing before rest with
  | zero => rfl
  | succ n ih =>
      cases rest with
      | nil => cases short
      | cons c rest =>
          rw [substituteFrom_succ_cons, ih (Nat.le_of_succ_le_succ short)]
          simp

theorem substituteFrom_some {n : Nat} (positive : 0 < n) (short : n ≤ rest.length)
    (found : find before rest = some n) :
    substituteFrom find new 0 before rest =
      new ++ substituteFrom find new 0 ((rest.take n).reverse ++ before) (rest.drop n) := by
  cases rest with
  | nil =>
      rw [List.length_nil] at short
      omega
  | cons c rest =>
      obtain ⟨m, rfl⟩ := Nat.exists_eq_succ_of_ne_zero (Nat.pos_iff_ne_zero.mp positive)
      have written : substituteFrom find new 0 before (c :: rest) =
          new ++ substituteFrom find new m (c :: before) rest := by
        simp [substituteFrom, found]
      rw [written, substituteFrom_drop (Nat.le_of_succ_le_succ short)]
      simp

/-- What is looked for alike behind any text is replaced alike behind any text. -/
theorem substituteFrom_before (alike : ∀ one other s, find one s = find other s) (n : Nat)
    (one other s : Text) :
    substituteFrom find new n one s = substituteFrom find new n other s := by
  induction s generalizing n one other with
  | nil => cases n with
    | zero => rw [substituteFrom, substituteFrom, alike one other]
    | succ n => rfl
  | cons c s ih => cases n with
    | zero =>
        rw [substituteFrom, substituteFrom, alike one other]
        split
        · rw [ih 0 (c :: one) (c :: other)]
        · rw [ih 0 (c :: one) (c :: other)]
        · rw [ih _ (c :: one) (c :: other)]
    | succ n => exact ih n (c :: one) (c :: other)

/-- A character that no match holds stays. -/
theorem mem_substituteFrom {c : Char}
    (spared : ∀ before rest n, find before rest = some n → c ∉ rest.take n) (n : Nat)
    (before s : Text) (member : c ∈ s.drop n) : c ∈ substituteFrom find new n before s := by
  induction s generalizing n before with
  | nil => simp at member
  | cons d s ih => cases n with
    | succ n => exact ih n (d :: before) member
    | zero =>
        rw [substituteFrom]
        rw [List.drop_zero] at member
        split
        next =>
          rcases List.mem_cons.mp member with rfl | later
          · exact List.mem_cons_self
          · exact List.mem_cons_of_mem _ (ih 0 _ later)
        next =>
          rcases List.mem_cons.mp member with rfl | later
          · exact List.mem_append_right _ List.mem_cons_self
          · exact List.mem_append_right _ (List.mem_cons_of_mem _ (ih 0 _ later))
        next m found =>
          apply List.mem_append_right
          apply ih m
          have absent := spared before (d :: s) (m + 1) found
          rw [List.take_succ_cons, List.mem_cons, not_or] at absent
          have later := (List.mem_cons.mp member).resolve_left absent.1
          rw [← List.take_append_drop m s] at later
          exact (List.mem_append.mp later).resolve_left absent.2

/-- A replacement adds only what it replaces by. -/
theorem mem_of_mem_substituteFrom {c : Char} (n : Nat) (before s : Text)
    (member : c ∈ substituteFrom find new n before s) : c ∈ new ∨ c ∈ s := by
  induction s generalizing n before with
  | nil => cases n with
    | zero =>
        rw [substituteFrom] at member
        split at member
        next => cases member
        next => exact .inl member
    | succ n => cases member
  | cons d s ih =>
      have later : ∀ m b, c ∈ substituteFrom find new m b s → c ∈ new ∨ c ∈ d :: s :=
        fun m b known => (ih m b known).imp_right (List.mem_cons_of_mem d)
      cases n with
      | succ n => exact later n _ member
      | zero =>
          rw [substituteFrom] at member
          split at member
          next =>
            rcases List.mem_cons.mp member with rfl | known
            · exact .inr List.mem_cons_self
            · exact later 0 _ known
          next =>
            rcases List.mem_append.mp member with added | known
            · exact .inl added
            · rcases List.mem_cons.mp known with rfl | known
              · exact .inr List.mem_cons_self
              · exact later 0 _ known
          next =>
            rcases List.mem_append.mp member with added | known
            · exact .inl added
            · exact later _ _ known

end Substitute

theorem sub_text (old new s : Text) : sub (.text old) new s = replaceAll old new s := by
  unfold sub replaceAll
  congr 1
  funext before rest
  exact Pattern.matchAt_text old

theorem mem_replaceAll {old new s : Text} {c : Char} (spared : c ∉ old) (member : c ∈ s) :
    c ∈ replaceAll old new s := by
  apply mem_substituteFrom _ 0 [] s member
  intro _ rest n found
  split at found
  next opens =>
    obtain rfl := Option.some.inj found
    rw [List.isPrefixOf_iff_prefix] at opens
    rw [← List.prefix_iff_eq_take.mp opens]
    exact spared
  next => cases found

theorem mem_strip {p : Char → Bool} {c : Char} (other : p c = false) {s : Text} (member : c ∈ s) :
    c ∈ strip p s := by
  have kept : ∀ t : Text, c ∈ t → c ∈ t.dropWhile p := by
    intro t known
    rw [← @List.takeWhile_append_dropWhile _ p t] at known
    rcases List.mem_append.mp known with dropped | later
    · exact nomatch other.symm.trans (List.mem_takeWhile_imp dropped)
    · exact later
  rw [strip, List.rdropWhile, List.mem_reverse]
  exact kept _ (List.mem_reverse.mpr (kept s member))

end Regex
