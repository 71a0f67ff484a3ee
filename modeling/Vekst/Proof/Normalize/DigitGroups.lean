import Vekst.Proof.Normalize.Description

namespace Vekst.Normalize
open Regex

section Gaps

variable {separator digit : Char → Bool}

/-! ## Runs between digits -/

/-- A run of separators that has a digit on either side. No separator is a digit, so the run ends
where the digits begin. -/
structure Gap (separator digit : Char → Bool) (before run after : Text) : Prop where
  blank : ∀ c ∈ run, separator c
  opens : ∃ c, before.getLast? = some c ∧ digit c ∧ separator c = false
  closes : ∃ c, after.head? = some c ∧ digit c ∧ separator c = false

/-- The place lies in such a run. -/
def InGap (separator digit : Char → Bool) (s : Text) (i : Nat) : Prop :=
  ∃ before run after, s = before ++ run ++ after ∧ Gap separator digit before run after ∧
    before.length ≤ i ∧ i < before.length + run.length

/-- The same of a character, with the text before it read backwards. -/
def betweenDigits (separator digit : Char → Bool) (before : Text) (c : Char) (rest : Text) : Bool :=
  separator c && (before.dropWhile separator).head?.any digit &&
    (rest.dropWhile separator).head?.any digit

theorem dropWhile_run {run after : Text} (blank : ∀ c ∈ run, separator c)
    (other : after.head?.any separator = false) : (run ++ after).dropWhile separator = after := by
  rw [List.dropWhile_append_of_pos blank]
  cases after with
  | nil => rfl
  | cons c after =>
      have stops : separator c = false := other
      rw [List.dropWhile_cons, stops]
      rfl

theorem head_dropWhile {s : Text} (found : (s.dropWhile separator).head?.any digit = true) :
    ∃ c, (s.dropWhile separator).head? = some c ∧ digit c ∧ separator c = false := by
  have stops := List.head?_dropWhile_not separator s
  cases first : (s.dropWhile separator).head? with
  | none =>
      rw [first] at found
      cases found
  | some c =>
      rw [first] at found stops
      exact ⟨c, rfl, found, by simpa using stops⟩

theorem betweenDigits_iff {before rest : Text} {c : Char} :
    betweenDigits separator digit before c rest = true ↔
      InGap separator digit (before.reverse ++ c :: rest) before.length := by
  constructor
  · intro between
    simp only [betweenDigits, Bool.and_eq_true] at between
    obtain ⟨⟨blank, left⟩, right⟩ := between
    refine ⟨(before.dropWhile separator).reverse,
      (before.takeWhile separator).reverse ++ c :: rest.takeWhile separator,
      rest.dropWhile separator, ?_, ⟨?_, ?_, head_dropWhile right⟩, ?_, ?_⟩
    · have one : (before.takeWhile separator ++ before.dropWhile separator).reverse =
          before.reverse := by rw [List.takeWhile_append_dropWhile]
      have other : rest.takeWhile separator ++ rest.dropWhile separator = rest :=
        List.takeWhile_append_dropWhile
      rw [← one, List.reverse_append]
      nth_rewrite 1 [← other]
      simp
    · intro d member
      simp only [List.mem_append, List.mem_reverse, List.mem_cons] at member
      rcases member with inside | rfl | inside
      · exact List.mem_takeWhile_imp inside
      · exact blank
      · exact List.mem_takeWhile_imp inside
    · rw [List.getLast?_reverse]
      exact head_dropWhile left
    · rw [List.length_reverse]
      exact (List.dropWhile_sublist _).length_le
    · have parts := congrArg List.length (@List.takeWhile_append_dropWhile _ separator before)
      simp only [List.length_append] at parts
      simp only [List.length_append, List.length_reverse, List.length_cons]
      omega
  · rintro ⟨left, run, right, whole, ⟨blank, ⟨first, opens, number, edge⟩, ⟨last, closes, other, stops⟩⟩,
      start, stop⟩
    -- The run is cut at the character.
    obtain ⟨one, two, rfl, size⟩ : ∃ one two, run = one ++ two ∧
        before.length = left.length + one.length :=
      ⟨run.take (before.length - left.length), run.drop (before.length - left.length),
        (List.take_append_drop _ _).symm, by rw [List.length_take]; omega⟩
    cases two with
    | nil =>
        rw [List.append_nil] at stop
        omega
    | cons d two =>
        have lined : before.reverse ++ c :: rest = (left ++ one) ++ (d :: (two ++ right)) := by
          rw [whole]
          simp
        obtain ⟨past, ahead⟩ := List.append_inj lined (by simp [size])
        obtain ⟨rfl, rfl⟩ := List.cons.inj ahead
        have turned : before = one.reverse ++ left.reverse := by
          rw [← List.reverse_append, ← past, List.reverse_reverse]
        have behind : before.dropWhile separator = left.reverse := by
          rw [turned]
          apply dropWhile_run
          · intro e member
            exact blank e (by simp [List.mem_reverse.mp member])
          · rw [List.head?_reverse, opens]
            exact edge
        have beyond : (two ++ right).dropWhile separator = right := by
          apply dropWhile_run
          · intro e member
            exact blank e (by simp [member])
          · rw [closes]
            exact stops
        rw [betweenDigits, behind, beyond, List.head?_reverse, opens, closes, blank c (by simp)]
        simp [number, other]

/-! ## What is left of a text -/

/-- The characters outside of the runs, with their places. -/
def keptFrom (separator digit : Char → Bool) : Text → Text → List (Char × Nat)
  | _, [] => []
  | before, c :: rest =>
      if betweenDigits separator digit before c rest then keptFrom separator digit (c :: before) rest
      else (c, before.length) :: keptFrom separator digit (c :: before) rest

theorem keptFrom_sublist (before s : Text) :
    (keptFrom separator digit before s).Sublist (s.zipIdx before.length) := by
  induction s generalizing before with
  | nil => exact List.Sublist.slnil
  | cons c rest ih =>
      rw [keptFrom, List.zipIdx_cons]
      split
      · exact (ih (c :: before)).cons _
      · exact (ih (c :: before)).cons_cons _

theorem mem_keptFrom (before s : Text) {c : Char} {i : Nat} (member : (c, i) ∈ s.zipIdx before.length) :
    (c, i) ∉ keptFrom separator digit before s ↔ InGap separator digit (before.reverse ++ s) i := by
  induction s generalizing before with
  | nil => cases member
  | cons d rest ih =>
      have later : ∀ e j, (e, j) ∈ keptFrom separator digit (d :: before) rest → before.length < j :=
        fun e j kept => (List.mem_zipIdx ((keptFrom_sublist (d :: before) rest).subset kept)).1
      rw [List.zipIdx_cons] at member
      rcases List.mem_cons.mp member with here | there
      · obtain ⟨rfl, rfl⟩ := Prod.mk.inj here
        have absent : (c, before.length) ∉ keptFrom separator digit (c :: before) rest :=
          fun kept => Nat.lt_irrefl _ (later _ _ kept)
        rw [← betweenDigits_iff, keptFrom]
        split
        next between => simp [absent, between]
        next between => simp [between]
      · have past : before.length < i := (List.mem_zipIdx there).1
        have known := ih (d :: before) there
        rw [List.reverse_cons, List.append_assoc, List.singleton_append] at known
        rw [← known, keptFrom]
        split
        · rfl
        · have elsewhere : (c, i) ≠ (d, before.length) := by
            intro same
            exact Nat.ne_of_gt past (Prod.mk.inj same).2
          rw [List.mem_cons, not_or]
          exact and_iff_right elsewhere

/-- A whole run is kept or falls away. -/
theorem keptFrom_run {run after : Text} (blank : ∀ c ∈ run, separator c)
    (other : after.head?.any separator = false) (before : Text) :
    (keptFrom separator digit before (run ++ after)).map Prod.fst =
      (if (before.dropWhile separator).head?.any digit && after.head?.any digit then [] else run) ++
        (keptFrom separator digit (run.reverse ++ before) after).map Prod.fst := by
  induction run generalizing before with
  | nil => simp
  | cons c run ih =>
      have tail : ∀ d ∈ run, separator d := fun d member => blank d (by simp [member])
      have left : (c :: before).dropWhile separator = before.dropWhile separator := by
        rw [List.dropWhile_cons, if_pos (blank c (by simp))]
      have between : betweenDigits separator digit before c (run ++ after) =
          ((before.dropWhile separator).head?.any digit && after.head?.any digit) := by
        rw [betweenDigits, dropWhile_run tail other, blank c (by simp), Bool.true_and]
      have rest := ih tail (c :: before)
      rw [left] at rest
      rw [List.cons_append, keptFrom, between]
      split
      next inside =>
        rw [rest, if_pos inside]
        simp
      next inside =>
        rw [List.map_cons, rest, if_neg inside]
        simp

theorem joinFrom_drop {n : Nat} {s : Text} (short : n ≤ s.length) (before : Text) :
    joinFrom separator digit n before.head? s =
      joinFrom separator digit 0 ((s.take n).reverse ++ before).head? (s.drop n) := by
  induction s generalizing n before with
  | nil =>
      obtain rfl := Nat.le_zero.mp short
      rfl
  | cons c rest ih => cases n with
    | zero => rfl
    | succ n =>
        have moved := ih (Nat.le_of_succ_le_succ short) (c :: before)
        rw [joinFrom, List.take_succ_cons, List.drop_succ_cons, List.reverse_cons, List.append_assoc]
        exact moved

/-- The loop keeps these characters. Before a separator that follows one, no digit opened the run:
the loop has jumped over every run that a digit opened. -/
theorem joinFrom_eq_keptFrom (apart : ∀ c, digit c → separator c = false) {before s : Text}
    (fresh : s.head?.any separator → before.head?.any separator →
      (before.dropWhile separator).head?.any digit = false) :
    joinFrom separator digit 0 before.head? s =
      (keptFrom separator digit before s).map Prod.fst := by
  induction size : s.length using Nat.strong_induction_on generalizing before s with
  | _ size_ ih =>
    subst size
    cases s with
    | nil => rfl
    | cons r rest =>
        have later : ∀ t : Text, t.length < rest.length + 1 → ∀ b : Text,
            (t.head?.any separator → b.head?.any separator →
              (b.dropWhile separator).head?.any digit = false) →
            joinFrom separator digit 0 b.head? t = (keptFrom separator digit b t).map Prod.fst :=
          fun t shorter b unopened => ih t.length shorter unopened rfl
        have start : before.head?.any separator = false → before.dropWhile separator = before := by
          intro other
          exact @dropWhile_run separator [] before (by simp) other
        cases blank : separator r with
        | false =>
            have outside : betweenDigits separator digit before r rest = false := by
              rw [betweenDigits, blank, Bool.false_and, Bool.false_and]
            have next := later rest (Nat.lt_succ_self _) (r :: before) (by simp [blank])
            simp only [List.head?_cons] at next
            simp [joinFrom, keptFrom, blank, outside, next]
        | true => cases opened : before.head?.any digit with
          | false =>
              have unopened : (before.dropWhile separator).head?.any digit = false := by
                cases inside : before.head?.any separator with
                | true => exact fresh (by simp [blank]) inside
                | false => rw [start inside, opened]
              have outside : betweenDigits separator digit before r rest = false := by
                rw [betweenDigits, unopened, Bool.and_false, Bool.false_and]
              have next := later rest (Nat.lt_succ_self _) (r :: before) (by simp [blank, unopened])
              simp only [List.head?_cons] at next
              simp [joinFrom, keptFrom, blank, opened, outside, next]
          | true =>
              have stays : before.dropWhile separator = before := by
                apply start
                cases first : before.head? with
                | none => rfl
                | some c =>
                    rw [first] at opened
                    exact apart c opened
              have run : (r :: rest).takeWhile separator = r :: rest.takeWhile separator := by
                rw [List.takeWhile_cons, if_pos blank]
              have all : ∀ c ∈ r :: rest.takeWhile separator, separator c := by
                intro c member
                rw [← run] at member
                exact List.mem_takeWhile_imp member
              have other : (rest.dropWhile separator).head?.any separator = false := by
                have stops := List.head?_dropWhile_not separator rest
                cases first : (rest.dropWhile separator).head? with
                | none => rfl
                | some c =>
                    rw [first] at stops
                    simpa using stops
              have short : (rest.takeWhile separator).length ≤ rest.length :=
                (List.takeWhile_sublist _).length_le
              have jumped := @joinFrom_drop separator digit _ _ short (r :: before)
              rw [take_takeWhile, drop_takeWhile, List.head?_cons] at jumped
              have next := later (rest.dropWhile separator)
                (Nat.lt_succ_of_le (List.dropWhile_sublist _).length_le)
                ((rest.takeWhile separator).reverse ++ r :: before) (by simp [other])
              have kept := @keptFrom_run separator digit _ _ all other before
              rw [List.cons_append, List.takeWhile_append_dropWhile, stays, opened, Bool.true_and,
                List.reverse_cons, List.append_assoc, List.singleton_append] at kept
              rw [joinFrom, if_neg (by simp [blank, opened])]
              dsimp only
              rw [run, List.length_cons, List.drop_succ_cons, drop_takeWhile, Nat.add_sub_cancel, jumped,
                next, kept]

end Gaps

/-! ## The two joins -/

theorem joinDigitGroups_eq_sub {u v : Tables} {s : Text}
    (alike : ∀ c ∈ s, u.isDigit c = v.isDigit c ∧ Scan.isSpace c = isPythonSpace c) :
    joinDigitGroups u s = sub (Eval.digitGap v) [] s := by
  have same : ∀ c ∈ s, isSeparator c = (isPythonSpace c || c = '-') ∧ u.isDigit c = v.isDigit c := by
    intro c member
    obtain ⟨digit, space⟩ := alike c member
    exact ⟨by rw [isSeparator, space], digit⟩
  have first : (none : Option Char).any u.isDigit = (none : Option Char).any v.isDigit := rfl
  calc joinDigitGroups u s
      = joinFrom (fun c => isPythonSpace c || c = '-') v.isDigit 0 none s :=
        joinFrom_congr 0 first same
    _ = sub (Eval.digitGap v) [] s := joinFrom_eq (pythonSeparator_apart v) 0 [] s

/-- The characters that fall away are those of the runs of white space and hyphens between digits.
Where both languages classify the characters alike, the reference removes the same. -/
theorem joinDigitGroups_exact (u v : Tables) (s : Text) :
    (∃ kept : List (Char × Nat), kept.Sublist s.zipIdx ∧ joinDigitGroups u s = kept.map Prod.fst ∧
      ∀ c i, (c, i) ∈ s.zipIdx → ((c, i) ∉ kept ↔ InGap isSeparator u.isDigit s i)) ∧
    ((∀ c ∈ s, u.isDigit c = v.isDigit c ∧ Scan.isSpace c = isPythonSpace c) →
      joinDigitGroups u s = sub (Eval.digitGap v) [] s) := by
  constructor
  · refine ⟨keptFrom isSeparator u.isDigit [] s, keptFrom_sublist [] s, ?_, ?_⟩
    · apply @joinFrom_eq_keptFrom _ _ (separator_apart u) []
      intro _ inside
      cases inside
    · intro c i member
      exact mem_keptFrom [] s member
  · exact joinDigitGroups_eq_sub

/-- Adjacent groups share a digit; the runs beside a letter and at the ends stay. -/
theorem joinDigitGroups_sample : joinDigitGroups asciiTables " 1 2 -3- A 4 ".toList =
    sub (Eval.digitGap asciiTables) [] " 1 2 -3- A 4 ".toList := by
  have alike : " 1 2 -3- A 4 ".toList.all fun c => Scan.isSpace c == isPythonSpace c := by
    decide +kernel
  apply (joinDigitGroups_exact asciiTables asciiTables _).2
  intro c member
  exact ⟨rfl, beq_iff_eq.mp (List.all_eq_true.mp alike c member)⟩

end Vekst.Normalize
