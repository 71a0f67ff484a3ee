import Vekst.Eval.Norm
import Vekst.Normalize.Description
import Vekst.Text.Squeeze

namespace Vekst.Normalize
open Regex

/-! ## Gaps between digits -/

section Gap

variable {separator digit : Char → Bool}

/-- `(?<=\d)[separator]+(?=\d)`. -/
def gap (separator digit : Char → Bool) : Pattern :=
  .seq (.behind digit) (.seq (.many separator 1) (.ahead (.set digit)))

/-- Only the whole run can be followed by a digit. -/
theorem matchAt_gap (apart : ∀ c, digit c → separator c = false) (before rest : Text) :
    (gap separator digit).matchAt before rest =
      if before.head?.any digit ∧ rest.takeWhile separator ≠ [] ∧
        (rest.drop (rest.takeWhile separator).length).head?.any digit
      then some (rest.takeWhile separator).length else none := by
  have inside : ∀ n < (rest.takeWhile separator).length, (rest.drop n).head?.any digit = false := by
    intro n short
    have place : rest[n]? = (rest.takeWhile separator)[n]? := by
      nth_rewrite 1 [← @List.takeWhile_append_dropWhile _ separator rest]
      exact List.getElem?_append_left short
    rw [List.head?_drop, place, List.getElem?_eq_getElem short]
    have blank := List.mem_takeWhile_imp (List.getElem_mem short)
    cases found : digit (rest.takeWhile separator)[n] with
    | false => exact found
    | true => exact nomatch (apart _ found).symm.trans blank
  rw [Pattern.matchAt, gap, Pattern.lengths_seq, Pattern.lengths_behind]
  cases first : before.head?.any digit with
  | false => simp
  | true =>
      simp only [if_true, List.flatMap_cons, List.flatMap_nil, List.append_nil, List.drop_zero,
        Pattern.lengths_seq, Pattern.lengths_ahead_set,
        Pattern.lengths_many, Nat.zero_add, List.map_id']
      cases size : (rest.takeWhile separator).length with
      | zero => simp [List.length_eq_zero_iff.mp size]
      | succ k =>
          have some_ : rest.takeWhile separator ≠ [] := by
            intro none_
            rw [none_] at size
            cases size
          have shorter : ((List.range (k + 1)).reverse.filter (1 ≤ ·)).flatMap (fun n =>
              (if (rest.drop n).head?.any digit then [0] else []).map (n + ·)) = [] := by
            rw [List.flatMap_eq_nil_iff]
            intro n member
            have small : n < k + 1 :=
              List.mem_range.mp (List.mem_reverse.mp (List.mem_filter.mp member).1)
            rw [inside n (size ▸ small)]
            rfl
          rw [List.range_succ, List.reverse_append, List.reverse_singleton, List.singleton_append,
            List.filter_cons, if_pos (by simp), List.flatMap_cons, shorter, List.append_nil]
          cases (rest.drop (k + 1)).head?.any digit <;> simp [some_]

theorem substituteFrom_run {find : Text → Text → Option Nat} {new : Text}
    (missed : ∀ before rest, before.head?.any digit = false → find before rest = none)
    (apart : ∀ c, digit c → separator c = false) {run : Text} (blank : ∀ c ∈ run, separator c)
    {before : Text} (other : before.head?.any digit = false) (after : Text) :
    substituteFrom find new 0 before (run ++ after) =
      run ++ substituteFrom find new 0 (run.reverse ++ before) after := by
  induction run generalizing before with
  | nil => rfl
  | cons c run ih =>
      have next : (c :: before).head?.any digit = false := by
        cases found : digit c with
        | false => exact found
        | true => exact nomatch (apart c found).symm.trans (blank c (by simp))
      rw [List.cons_append, substituteFrom_none (missed before _ other),
        ih (fun d member => blank d (by simp [member])) next]
      simp

/-- The loop over the runes is the pattern's replacement by nothing. -/
theorem joinFrom_eq (apart : ∀ c, digit c → separator c = false) (n : Nat) (before s : Text) :
    joinFrom separator digit n before.head? s =
      substituteFrom (gap separator digit).matchAt [] n before s := by
  induction size : s.length using Nat.strong_induction_on generalizing n before s with
  | _ size_ ih =>
    subst size
    cases s with
    | nil => cases n with
      | zero =>
          have missed : (gap separator digit).matchAt before [] = none := by
            simp [matchAt_gap apart]
          rw [joinFrom, substituteFrom, missed]
      | succ n => rfl
    | cons r rest => cases n with
      | succ n => exact ih rest.length (Nat.lt_succ_self _) n (r :: before) rest rfl
      | zero =>
          have later : ∀ m, joinFrom separator digit m (some r) rest =
              substituteFrom (gap separator digit).matchAt [] m (r :: before) rest :=
            fun m => ih rest.length (Nat.lt_succ_self _) m (r :: before) rest rfl
          rw [joinFrom, later]
          dsimp only
          rw [later]
          by_cases passed : (!separator r || !before.head?.any digit) = true
          · have missed : (gap separator digit).matchAt before (r :: rest) = none := by
              rw [matchAt_gap apart, if_neg]
              rintro ⟨last, some_, -⟩
              rcases Bool.or_eq_true_iff.mp passed with other | other
              · simp only [List.takeWhile_cons, Bool.not_eq_true'] at some_ other
                simp [other] at some_
              · simp [last] at other
            rw [if_pos passed, substituteFrom_none missed]
          · rw [if_neg passed]
            simp only [Bool.or_eq_true, Bool.not_eq_true', not_or, Bool.not_eq_false] at passed
            obtain ⟨blank, last⟩ := passed
            have run : (r :: rest).takeWhile separator = r :: rest.takeWhile separator := by
              rw [List.takeWhile_cons, if_pos blank]
            have short : (rest.takeWhile separator).length ≤ rest.length :=
              (List.takeWhile_sublist _).length_le
            rw [run, List.length_cons, Nat.add_sub_cancel]
            by_cases joined :
                ((r :: rest).drop ((rest.takeWhile separator).length + 1)).head?.any digit = true
            · have found : (gap separator digit).matchAt before (r :: rest) =
                  some ((rest.takeWhile separator).length + 1) := by
                rw [matchAt_gap apart, run, List.length_cons, if_pos ⟨last, List.cons_ne_nil _ _, joined⟩]
              rw [if_pos joined, substituteFrom_some (Nat.succ_pos _) (Nat.succ_le_succ short) found,
                substituteFrom_drop short]
              simp
            · have missed : (gap separator digit).matchAt before (r :: rest) = none := by
                rw [matchAt_gap apart, run, List.length_cons, if_neg]
                rintro ⟨-, -, next⟩
                exact joined next
              have other : (r :: before).head?.any digit = false := by
                cases found : digit r with
                | false => exact found
                | true => exact absurd ((apart r found).symm.trans blank) Bool.false_ne_true
              have outside : ∀ b t : Text, b.head?.any digit = false →
                  (gap separator digit).matchAt b t = none := by
                intro b t nothing
                rw [matchAt_gap apart, if_neg]
                simp [nothing]
              have written := @substituteFrom_run _ _ _ [] outside apart (rest.takeWhile separator)
                (fun c member => List.mem_takeWhile_imp member) _ other (rest.dropWhile separator)
              rw [List.takeWhile_append_dropWhile] at written
              rw [if_neg joined, substituteFrom_none missed, written, substituteFrom_drop short]
              rw [take_takeWhile, drop_takeWhile]
              rfl

theorem joinFrom_congr {other number : Char → Bool} (n : Nat) {last : Option Char}
    (first : last.any digit = last.any number) {s : Text}
    (same : ∀ c ∈ s, separator c = other c ∧ digit c = number c) :
    joinFrom separator digit n last s = joinFrom other number n last s := by
  induction s generalizing n last with
  | nil => cases n <;> rfl
  | cons r rest ih =>
      have later : ∀ m, joinFrom separator digit m (some r) rest =
          joinFrom other number m (some r) rest :=
        fun m => ih m (same r (by simp)).2 fun c member => same c (by simp [member])
      cases n with
      | succ n => exact later n
      | zero =>
          have run : (r :: rest).takeWhile separator = (r :: rest).takeWhile other := by
            generalize r :: rest = t at same
            clear ih later
            induction t with
            | nil => rfl
            | cons c t ih =>
                rw [List.takeWhile_cons, List.takeWhile_cons, (same c (by simp)).1,
                  ih fun d member => same d (by simp [member])]
          have next : ((r :: rest).drop ((r :: rest).takeWhile other).length).head?.any digit =
              ((r :: rest).drop ((r :: rest).takeWhile other).length).head?.any number := by
            cases found : ((r :: rest).drop ((r :: rest).takeWhile other).length).head? with
            | none => rfl
            | some c =>
                have inside := List.mem_of_mem_drop (List.mem_of_mem_head? found)
                exact (same c inside).2
          simp only [joinFrom, later, run, next, first, (same r (by simp)).1]

theorem mem_joinFrom (apart : ∀ c, digit c → separator c = false) {c : Char}
    (kept : separator c = false) {s : Text} (member : c ∈ s) :
    c ∈ joinFrom separator digit 0 none s := by
  have found := joinFrom_eq apart 0 [] s
  rw [List.head?_nil] at found
  rw [found]
  apply mem_substituteFrom _ 0 [] s member
  intro before rest n matched dropped
  rw [matchAt_gap apart] at matched
  split at matched
  next =>
    obtain rfl := Option.some.inj matched
    rw [take_takeWhile] at dropped
    exact nomatch kept.symm.trans (List.mem_takeWhile_imp dropped)
  next => cases matched

end Gap

/-! ## The two descriptions -/

/-- FS, GS, RS and US, which only Python reads as white space. -/
def isInformationSeparator (c : Char) : Bool := 0x1c ≤ c.toNat && c.toNat ≤ 0x1f

section Descriptions

variable {u : Tables} {s : Text} {c : Char}

theorem isPythonSpace_eq (c : Char) :
    isPythonSpace c = (isInformationSeparator c || Scan.isSpace c) := rfl

theorem isSpace_of_separator (control : isInformationSeparator c) : Scan.isSpace c = false := by
  simp only [isInformationSeparator, Bool.and_eq_true, decide_eq_true_eq] at control
  simp only [Scan.isSpace, Bool.or_eq_false_iff, Bool.and_eq_false_iff, decide_eq_false_iff_not,
    beq_eq_false_iff_ne]
  omega

theorem ne_of_separator (control : isInformationSeparator c) {d : Char}
    (other : isInformationSeparator d = false) : c ≠ d := by
  rintro rfl
  exact nomatch other.symm.trans control

theorem digit_apart (u : Tables) (c : Char) (digit : u.isDigit c) :
    isPythonSpace c = false ∧ c ≠ '-' :=
  u.number_apart c (u.number_of_digit c digit)

theorem separator_apart (u : Tables) (c : Char) (digit : u.isDigit c) : isSeparator c = false := by
  obtain ⟨space, hyphen⟩ := digit_apart u c digit
  rw [isPythonSpace_eq, Bool.or_eq_false_iff] at space
  simp [isSeparator, space.2, hyphen]

theorem pythonSeparator_apart (u : Tables) (c : Char) (digit : u.isDigit c) :
    (isPythonSpace c || c = '-') = false := by
  obtain ⟨space, hyphen⟩ := digit_apart u c digit
  simp [space, hyphen]

/-- The prepared text without the boilerplate, which both sides drop alike. -/
def withoutNoise (u : Tables) (s : Text) : Text :=
  noise.foldl (fun s n => replaceAll n [' '] s) (prepare u s)

theorem noisePatterns_eq (u : Tables) (s : Text) :
    Eval.noisePatterns.foldl (fun s p => sub p [' '] s) (u.upper (Eval.translate (u.nfkc s))) =
      withoutNoise u s := by
  have patterns : Eval.noisePatterns = noise.map Pattern.text := rfl
  rw [patterns, List.foldl_map, withoutNoise]
  simp only [sub_text]
  rfl

theorem mem_withoutNoise (control : isInformationSeparator c) (member : c ∈ prepare u s) :
    c ∈ withoutNoise u s := by
  have spared : ∀ n ∈ noise, c ∉ n := by
    have plain : noise.all fun n => n.all fun d => !isInformationSeparator d := by decide +kernel
    intro n known inside
    have other := List.all_eq_true.mp (List.all_eq_true.mp plain n known) c inside
    rw [control] at other
    cases other
  have kept : ∀ (old : List Text) (t : Text), (∀ n ∈ old, c ∉ n) → c ∈ t →
      c ∈ old.foldl (fun s n => replaceAll n [' '] s) t := by
    intro old
    induction old with
    | nil => exact fun t _ known => known
    | cons n old ih =>
        intro t absent known
        exact ih _ (fun m later => absent m (by simp [later]))
          (mem_replaceAll (absent n (by simp)) known)
  exact kept noise _ spared member

theorem plain_withoutNoise (plain : ∀ c ∈ prepare u s, isInformationSeparator c = false) :
    ∀ c ∈ withoutNoise u s, isInformationSeparator c = false := by
  have kept : ∀ (old : List Text) (t : Text), (∀ c ∈ t, isInformationSeparator c = false) →
      ∀ c ∈ old.foldl (fun s n => replaceAll n [' '] s) t, isInformationSeparator c = false := by
    intro old
    induction old with
    | nil => exact fun t known => known
    | cons n old ih =>
        intro t known
        refine ih _ fun c member => ?_
        rcases mem_of_mem_substituteFrom _ _ _ member with blank | stored
        · rw [List.mem_singleton.mp blank]
          decide
        · exact known c stored
  exact kept noise _ plain

theorem normalizeDescription_eq (some_ : s ≠ []) : Eval.normalizeDescription u s =
    [' '].intercalate (fields isPythonSpace
      (joinFrom (fun c => isPythonSpace c || c = '-') u.isDigit 0 none (withoutNoise u s))) := by
  rw [intercalate_fields (by decide), Eval.normalizeDescription, if_neg some_]
  dsimp only
  rw [noisePatterns_eq]
  have joined := joinFrom_eq (pythonSeparator_apart u) 0 [] (withoutNoise u s)
  rw [List.head?_nil] at joined
  rw [joined]
  rfl

/-- The controls stay in the one text. -/
theorem mem_description (control : isInformationSeparator c) (some_ : s ≠ [])
    (member : c ∈ prepare u s) : c ∈ description u s := by
  have space := isSpace_of_separator control
  have separator : isSeparator c = false := by
    simp [isSeparator, space, ne_of_separator control (by decide : isInformationSeparator '-' = false)]
  rw [description, if_neg some_, collapseSpaces, intercalate_fields (by decide)]
  apply mem_strip space
  apply mem_squeeze space
  exact mem_joinFrom (separator_apart u) separator (mem_withoutNoise control member)

/-- They do not stay in the other. -/
theorem not_mem_normalizeDescription (control : isInformationSeparator c) :
    c ∉ Eval.normalizeDescription u s := by
  intro member
  by_cases empty : s = []
  · rw [Eval.normalizeDescription, if_pos empty] at member
    cases member
  · rw [normalizeDescription_eq empty] at member
    have blank := eq_of_mem_intercalate_fields (by simp [isPythonSpace_eq, control]) member
    exact ne_of_separator control (by decide) blank

/-- The normalisers agree on a text exactly when none of the controls that only one of them reads as
white space is left of it once it is composed and in upper case. -/
theorem descriptions_agree_iff (u : Tables) (s : Text) :
    description u s = Eval.normalizeDescription u s ↔
      s = [] ∨ ∀ c ∈ prepare u s, isInformationSeparator c = false := by
  by_cases empty : s = []
  · simp [empty, description, Eval.normalizeDescription]
  · simp only [empty, false_or]
    constructor
    · intro agree c member
      cases control : isInformationSeparator c with
      | false => rfl
      | true =>
          have kept := mem_description control empty member
          rw [agree] at kept
          exact absurd kept (not_mem_normalizeDescription control)
    · intro plain
      have same : ∀ c ∈ withoutNoise u s, Scan.isSpace c = isPythonSpace c := by
        intro c member
        rw [isPythonSpace_eq, plain_withoutNoise plain c member, Bool.false_or]
      rw [normalizeDescription_eq empty, description, if_neg empty, collapseSpaces]
      have joined : joinDigitGroups u (withoutNoise u s) =
          joinFrom (fun c => isPythonSpace c || c = '-') u.isDigit 0 none (withoutNoise u s) := by
        apply joinFrom_congr 0 rfl
        intro c member
        exact ⟨by rw [isSeparator, same c member], rfl⟩
      have found := joinFrom_eq (separator_apart u) 0 [] (withoutNoise u s)
      rw [← withoutNoise, ← joined]
      apply congrArg
      apply fields_congr
      intro c member
      rw [joinDigitGroups] at member
      rw [List.head?_nil] at found
      rw [found] at member
      rcases mem_of_mem_substituteFrom _ _ _ member with none_ | known
      · cases none_
      · exact same c known

end Descriptions

/-! ## A record separator -/

/-- The classes of ASCII. -/
def asciiTables : Tables where
  nfkc := id
  upper := List.map Char.toUpper
  isDigit := Char.isDigit
  isLetter := Char.isAlpha
  isNumber := Char.isDigit
  number_of_digit _ digit := digit
  letter_apart c letter := by
    have bounds : (65 ≤ c.toNat ∧ c.toNat ≤ 90) ∨ (97 ≤ c.toNat ∧ c.toNat ≤ 122) := by
      have cased : (decide (c.val ≥ 65 ∧ c.val ≤ 90) || c.val ≥ 97 && c.val ≤ 122) = true := letter
      simpa [UInt32.le_iff_toNat_le] using cased
    simp only [isPythonSpace, Scan.isSpace, Bool.or_eq_false_iff, Bool.and_eq_false_iff,
      decide_eq_false_iff_not, beq_eq_false_iff_ne]
    omega
  number_apart c digit := by
    have bounds := Char.isDigit_iff_toNat.mp digit
    have nine : '9'.toNat = 57 := rfl
    have zero : '0'.toNat = 48 := rfl
    refine ⟨?_, Scan.ne_of_isDigit digit rfl⟩
    simp only [isPythonSpace, Scan.isSpace, Bool.or_eq_false_iff, Bool.and_eq_false_iff,
      decide_eq_false_iff_not, beq_eq_false_iff_ne]
    omega

theorem record_separator_fails : ¬ ∀ (u : Tables) (s : Text),
    description u s = Eval.normalizeDescription u s := by
  intro agree
  have control : isInformationSeparator '\x1e' := by decide
  have kept : '\x1e' ∈ description asciiTables ['A', '\x1e', 'B'] :=
    mem_description control (by decide) (by decide)
  rw [agree] at kept
  exact not_mem_normalizeDescription control kept

end Vekst.Normalize
