import Vekst.Proof.Normalize.Gapless

namespace Vekst.Normalize
open Regex

/-! ## What the tables promise -/

/-- In NFKC. -/
def Tables.Normal (u : Tables) (s : Text) : Prop := u.nfkc s = s

def isQuote (c : Char) : Bool := (quotePairs.lookup c).isSome

/-- What holds of Unicode's normal form and of its full upper-case mapping, which looks at one
character at a time. -/
structure Tables.Unicode (u : Tables) : Prop where
  nfkc_nfkc (s : Text) : u.Normal (u.nfkc s)
  /-- Normal forms are closed under parts. -/
  part {x y z : Text} : u.Normal (x ++ y ++ z) → u.Normal y
  /-- White space, hyphens and digits combine with nothing before them. -/
  starts {x y : Text} {c : Char} : isSeparator c ∨ u.isDigit c → u.Normal x → u.Normal (c :: y) →
    u.Normal (x ++ c :: y)
  /-- Nothing combines with white space or a hyphen before it. -/
  ends {y : Text} {c : Char} : isSeparator c → u.Normal [c] → u.Normal y → u.Normal (c :: y)
  ascii {c : Char} : c.toNat < 128 → u.Normal [c]
  upper_append (x y : Text) : u.upper (x ++ y) = u.upper x ++ u.upper y
  upper_upper {c d : Char} : d ∈ u.upper [c] → u.upper [d] = [d]
  upper_normal {c d : Char} : u.Normal [c] → d ∈ u.upper [c] → u.Normal [d]
  upper_space : u.upper [' '] = [' ']
  upper_quote {c d : Char} : d ∈ u.upper [c] → isQuote d → d = c
  nfkc_quote {s : Text} {d : Char} : d ∈ u.nfkc s → isQuote d → d ∈ s
  /-- Composing upper-case letters gives upper-case letters. -/
  nfkc_upper {s : Text} : (∀ c ∈ s, u.Normal [c] ∧ u.upper [c] = [c]) → u.upper (u.nfkc s) = u.nfkc s
  noise_digit : ∀ n ∈ noise, ∀ c ∈ n, u.isDigit c = false

section Laws

variable {u : Tables} {s x y : Text} {c : Char}

theorem normal_nil (laws : u.Unicode) : u.Normal [] :=
  @Tables.Unicode.part u laws [] [] (u.nfkc []) (laws.nfkc_nfkc [])

theorem upper_nil (laws : u.Unicode) : u.upper [] = [] := by
  have twice := congrArg List.length (laws.upper_append [] [])
  rw [List.append_nil, List.length_append] at twice
  exact List.length_eq_zero_iff.mp (by omega)

theorem upper_eq (laws : u.Unicode) (s : Text) : u.upper s = s.flatMap fun c => u.upper [c] := by
  induction s with
  | nil => exact upper_nil laws
  | cons c s ih => rw [← List.singleton_append, laws.upper_append, ih]; rfl

theorem normal_singleton (laws : u.Unicode) (normal : u.Normal s) (member : c ∈ s) :
    u.Normal [c] := by
  obtain ⟨x, y, rfl⟩ := List.append_of_mem member
  rw [← List.singleton_append, ← List.append_assoc] at normal
  exact laws.part normal

theorem normal_append (laws : u.Unicode) (normal : u.Normal (x ++ y)) : u.Normal x ∧ u.Normal y := by
  constructor
  · exact @Tables.Unicode.part u laws [] x y normal
  · apply @Tables.Unicode.part u laws x y []
    rw [List.append_nil]
    exact normal

/-- A separator cuts a text into parts that are normal by themselves. -/
theorem normal_cut (laws : u.Unicode) (blank : isSeparator c) :
    u.Normal (x ++ c :: y) ↔ u.Normal x ∧ u.Normal [c] ∧ u.Normal y := by
  constructor
  · intro normal
    obtain ⟨left, right⟩ := normal_append laws normal
    rw [← List.singleton_append] at right
    exact ⟨left, normal_append laws right⟩
  · rintro ⟨left, single, right⟩
    exact laws.starts (.inl blank) left (laws.ends blank single right)

theorem normal_space (laws : u.Unicode) : u.Normal [' '] := laws.ascii (by decide)

/-! ## Characters that are prepared -/

/-- Preparing a text of such characters only composes them. -/
structure Settled (u : Tables) (c : Char) : Prop where
  normal : u.Normal [c]
  upper : u.upper [c] = [c]
  plain : isQuote c = false

theorem settled_space (laws : u.Unicode) : Settled u ' ' :=
  ⟨normal_space laws, laws.upper_space, by decide⟩

theorem quote_read : ∀ q ∈ quotePairs, q.2.toNat < 128 ∧ isQuote q.2 = false := by
  have all : quotePairs.all fun q => decide (q.2.toNat < 128) && !isQuote q.2 := by decide +kernel
  intro q member
  have known := List.all_eq_true.mp all q member
  simpa using known

theorem settled_prepare (laws : u.Unicode) (member : c ∈ prepare u s) : Settled u c := by
  rw [prepare, upper_eq laws] at member
  obtain ⟨e, quoted, written⟩ := List.mem_flatMap.mp member
  obtain ⟨b, inside, rfl⟩ := List.mem_map.mp quoted
  have read : u.Normal [(quotePairs.lookup b).getD b] ∧ isQuote ((quotePairs.lookup b).getD b) = false := by
    cases found : quotePairs.lookup b with
    | none => exact ⟨normal_singleton laws (laws.nfkc_nfkc s) inside, by simp [isQuote, found]⟩
    | some q =>
        obtain ⟨_, _, parts, -⟩ := List.lookup_eq_some_iff.mp found
        have pair : (b, q) ∈ quotePairs := by simp [parts]
        obtain ⟨low, plain⟩ := quote_read _ pair
        exact ⟨laws.ascii low, plain⟩
  refine ⟨laws.upper_normal read.1 written, laws.upper_upper written, ?_⟩
  cases found : isQuote c with
  | false => rfl
  | true =>
      rw [laws.upper_quote written found] at found
      exact nomatch read.2.symm.trans found

theorem prepare_of_settled (laws : u.Unicode) (settled : ∀ c ∈ s, Settled u c) :
    prepare u s = u.nfkc s := by
  have quoted : quotes (u.nfkc s) = u.nfkc s := by
    rw [quotes]
    nth_rewrite 2 [← List.map_id (u.nfkc s)]
    apply List.map_congr_left
    intro c member
    cases found : quotePairs.lookup c with
    | none => rfl
    | some q =>
        have inside := laws.nfkc_quote member (by simp [isQuote, found])
        have plain := (settled c inside).plain
        simp [isQuote, found] at plain
  rw [prepare, quoted]
  exact laws.nfkc_upper fun c member => ⟨(settled c member).normal, (settled c member).upper⟩

/-! ## The steps and the normal form -/

theorem normal_replaceAll (laws : u.Unicode) {old : Text} (some_ : old ≠ []) (before : Text)
    (normal : u.Normal (before ++ s)) : u.Normal (before ++ replaceAll old [' '] s) := by
  induction s using replaceAll_induct some_ generalizing before with
  | nil =>
      rw [replaceAll_nil some_]
      exact normal
  | other c s missed ih =>
      rw [replaceAll_of_not missed, ← List.singleton_append, ← List.append_assoc]
      rw [← List.singleton_append, ← List.append_assoc] at normal
      exact ih (before ++ [c]) normal
  | found s ih =>
      obtain ⟨left, right⟩ := normal_append laws normal
      have rest := (normal_append laws right).2
      rw [replaceAll_append some_, ← List.append_assoc]
      apply ih (before ++ [' '])
      rw [List.append_assoc, List.singleton_append, normal_cut laws (by decide)]
      exact ⟨left, normal_space laws, rest⟩

theorem normal_dropWhile (laws : u.Unicode) (single : ∀ c ∈ s, isSeparator c → u.Normal [c])
    {space : Char → Bool} (spaces : ∀ c, space c → isSeparator c) :
    u.Normal (s.dropWhile space) ↔ u.Normal s := by
  induction s with
  | nil => rfl
  | cons c s ih =>
      rw [List.dropWhile_cons]
      split
      next blank =>
        have cut := @normal_cut u [] s c laws (spaces c blank)
        rw [List.nil_append] at cut
        rw [ih fun d member => single d (by simp [member]), cut]
        have alone := single c (by simp) (spaces c blank)
        simp [alone, normal_nil laws]
      next => rfl

theorem normal_rdropWhile (laws : u.Unicode) (single : ∀ c ∈ s, isSeparator c → u.Normal [c])
    {space : Char → Bool} (spaces : ∀ c, space c → isSeparator c) :
    u.Normal (s.rdropWhile space) ↔ u.Normal s := by
  induction s using List.reverseRecOn with
  | nil => rfl
  | append_singleton s c ih =>
      rw [List.rdropWhile_concat]
      split
      next blank =>
        rw [ih fun d member => single d (by simp [member]), normal_cut laws (spaces c blank)]
        have alone := single c (by simp) (spaces c blank)
        simp [alone, normal_nil laws]
      next => rfl

theorem normal_squeeze (laws : u.Unicode) (before : Text)
    (single : ∀ c ∈ s, isSeparator c → u.Normal [c]) {space : Char → Bool}
    (spaces : ∀ c, space c → isSeparator c) :
    u.Normal (before ++ squeeze space s) ↔ u.Normal (before ++ s) := by
  induction size : s.length using Nat.strong_induction_on generalizing before s with
  | _ size_ ih =>
    subst size
    cases s with
    | nil => rfl
    | cons c s => cases blank : space c with
      | true =>
          have rest : ∀ d ∈ s, isSeparator d → u.Normal [d] :=
            fun d member => single d (by simp [member])
          have later := ih (s.dropWhile space).length
            (Nat.lt_succ_of_le (List.dropWhile_sublist space).length_le) []
            (fun d member => rest d ((List.dropWhile_sublist space).subset member)) rfl
          rw [List.nil_append, List.nil_append, normal_dropWhile laws rest spaces] at later
          have alone := single c (by simp) (spaces c blank)
          rw [squeeze_of_space blank, normal_cut laws (by decide), normal_cut laws (spaces c blank), later]
          simp [alone, normal_space laws]
      | false =>
          have later := ih s.length (Nat.lt_succ_self _) (before ++ [c])
            (fun d member => single d (by simp [member])) rfl
          simpa [squeeze_cons_of_not blank] using later

/-- Before a text that a number opens, a cut is one of the normal form. -/
theorem normal_opened (laws : u.Unicode) (number : opened isSeparator u.isDigit s = true) :
    u.Normal (x ++ s) ↔ u.Normal x ∧ u.Normal s := by
  cases s with
  | nil => cases number
  | cons c s => cases blank : isSeparator c with
    | true =>
        have cut := @normal_cut u [] s c laws blank
        rw [List.nil_append] at cut
        rw [normal_cut laws blank, cut]
        simp [normal_nil laws]
    | false =>
        rw [opened_other blank] at number
        exact ⟨normal_append laws, fun parts => laws.starts (.inr number) parts.1 parts.2⟩

theorem normal_leftOf (laws : u.Unicode) (before past : Text)
    (single : ∀ c ∈ s, isSeparator c → u.Normal [c]) :
    u.Normal (before ++ leftOf isSeparator u.isDigit past s) ↔ u.Normal (before ++ s) := by
  induction s generalizing before past with
  | nil => rfl
  | cons c s ih =>
      have rest : ∀ d ∈ s, isSeparator d → u.Normal [d] := fun d member => single d (by simp [member])
      rw [leftOf_cons]
      split
      next inside =>
        rw [betweenDigits_eq, Bool.and_eq_true, Bool.and_eq_true] at inside
        obtain ⟨⟨blank, -⟩, number⟩ := inside
        have alone := single c (by simp) blank
        rw [ih before (c :: past) rest, normal_opened laws number, normal_cut laws blank]
        simp [alone]
      next =>
        have later := ih (before ++ [c]) (c :: past) rest
        simpa using later

end Laws

/-! ## The boilerplate -/

/-- Neither white space nor a hyphen. -/
def isSolid (c : Char) : Bool := !isSeparator c

/-- What is dropped is a text or two with a blank between them, and nothing else separates it. -/
structure Phrase (n : Text) : Prop where
  solid : 0 < n.countP isSolid
  blanks : ∀ c ∈ n, isSeparator c → c = ' '
  once : n.countP isSeparator ≤ 1
  opens : n.head?.any isSeparator = false
  closes : n.getLast?.any isSeparator = false

theorem phrase_of_noise : ∀ n ∈ noise, Phrase n := by
  have all : noise.all fun n => decide (0 < n.countP isSolid) &&
      n.all (fun c => !isSeparator c || c == ' ') && decide (n.countP isSeparator ≤ 1) &&
      !n.head?.any isSeparator && !n.getLast?.any isSeparator := by decide +kernel
  intro n member
  have known := List.all_eq_true.mp all n member
  simp only [Bool.and_eq_true, decide_eq_true_eq, List.all_eq_true, Bool.or_eq_true,
    Bool.not_eq_true', beq_iff_eq] at known
  obtain ⟨⟨⟨⟨solid, blanks⟩, once⟩, opens⟩, closes⟩ := known
  refine ⟨solid, fun c inside blank => (blanks c inside).resolve_left ?_, once, opens, closes⟩
  rw [blank]
  exact Bool.noConfusion

/-- The two words of a text with a blank are words. -/
theorem words_of_phrase {first second : Text} (phrase : Phrase (first ++ ' ' :: second)) :
    first ≠ [] ∧ second ≠ [] ∧ (∀ c ∈ first, isSeparator c = false) ∧
      ∀ c ∈ second, isSeparator c = false := by
  have blank : isSeparator ' ' = true := by decide
  have once := phrase.once
  rw [List.countP_append, List.countP_cons, blank, if_pos rfl] at once
  refine ⟨?_, ?_, ?_, ?_⟩
  · rintro rfl
    exact absurd phrase.opens (by simp [blank])
  · rintro rfl
    exact absurd phrase.closes (by simp [blank])
  · intro c member
    have none_ := List.countP_eq_zero.mp (by omega : first.countP isSeparator = 0) c member
    simpa using none_
  · intro c member
    have none_ := List.countP_eq_zero.mp (by omega : second.countP isSeparator = 0) c member
    simpa using none_

/-- The loop that drops the boilerplate. -/
def dropped (old : List Text) (s : Text) : Text := old.foldl (fun s n => replaceAll n [' '] s) s

theorem withoutNoise_eq (u : Tables) (s : Text) : withoutNoise u s = dropped noise (prepare u s) := rfl

section Dropped

variable {old : List Text} {s word : Text}

theorem phrase_ne_nil {n : Text} (phrase : Phrase n) : n ≠ [] := by
  rintro rfl
  exact absurd phrase.solid (by simp)

theorem mem_dropped {c : Char} (member : c ∈ dropped old s) : c = ' ' ∨ c ∈ s := by
  induction old generalizing s with
  | nil => exact .inr member
  | cons n old ih =>
      rcases ih member with blank | inside
      · exact .inl blank
      · exact (mem_of_mem_substituteFrom _ _ _ inside).imp_left List.mem_singleton.mp

theorem dropped_eq_self (phrases : ∀ n ∈ old, Phrase n) (absent : ∀ n ∈ old, ¬ n <:+: s) :
    dropped old s = s := by
  induction old with
  | nil => rfl
  | cons n old ih =>
      have same : replaceAll n [' '] s = s :=
        replaceAll_eq_self (phrase_ne_nil (phrases n (by simp))) (absent n (by simp))
      rw [dropped, List.foldl_cons, same]
      exact ih (fun m member => phrases m (by simp [member])) fun m member => absent m (by simp [member])

theorem countP_dropped_le (phrases : ∀ n ∈ old, Phrase n) :
    (dropped old s).countP isSolid ≤ s.countP isSolid := by
  induction old generalizing s with
  | nil => exact Nat.le_refl _
  | cons n old ih =>
      have phrase := phrases n (by simp)
      have blank : [' '].countP isSolid ≤ n.countP isSolid := Nat.zero_le _
      exact Nat.le_trans (ih fun m member => phrases m (by simp [member]))
        (countP_replaceAll_le (phrase_ne_nil phrase) blank s)

/-- Where there is any of it, something else than white space goes. -/
theorem countP_dropped_lt (phrases : ∀ n ∈ old, Phrase n) {n : Text} (member : n ∈ old)
    (inside : n <:+: s) : (dropped old s).countP isSolid < s.countP isSolid := by
  induction old with
  | nil => cases member
  | cons m old ih =>
      have rest : ∀ k ∈ old, Phrase k := fun k later => phrases k (by simp [later])
      by_cases first : m <:+: s
      · have blank : [' '].countP isSolid < m.countP isSolid := (phrases m (by simp)).solid
        exact Nat.lt_of_le_of_lt (@countP_dropped_le old (replaceAll m [' '] s) rest)
          (countP_replaceAll_lt blank first)
      · have same : replaceAll m [' '] s = s :=
          replaceAll_eq_self (phrase_ne_nil (phrases m (by simp))) first
        rw [dropped, List.foldl_cons, same]
        rcases List.mem_cons.mp member with rfl | later
        · exact absurd inside first
        · exact ih rest later

theorem infix_of_dropped (phrases : ∀ n ∈ old, Phrase n) (unblank : ' ' ∉ word)
    (inside : word <:+: dropped old s) : word <:+: s := by
  induction old generalizing s with
  | nil => exact inside
  | cons n old ih =>
      have later := ih (fun m member => phrases m (by simp [member])) inside
      exact infix_of_replaceAll (phrase_ne_nil (phrases n (by simp))) unblank later

/-- None of the single words is left. -/
theorem not_infix_dropped (phrases : ∀ n ∈ old, Phrase n) (member : word ∈ old)
    (unblank : ' ' ∉ word) : ¬ word <:+: dropped old s := by
  induction old generalizing s with
  | nil => cases member
  | cons n old ih =>
      have rest : ∀ m ∈ old, Phrase m := fun m later => phrases m (by simp [later])
      rcases List.mem_cons.mp member with rfl | later
      · intro inside
        exact not_infix_replaceAll (phrase_ne_nil (phrases word (by simp))) unblank
          (infix_of_dropped rest unblank inside)
      · exact ih rest later

end Dropped

/-! ## The description, once and twice -/

section Description

variable {u : Tables} {s : Text}

theorem leftOf_sublist (separator digit : Char → Bool) (before s : Text) :
    (leftOf separator digit before s).Sublist s := by
  have kept := (@keptFrom_sublist separator digit before s).map Prod.fst
  rwa [List.zipIdx_map_fst] at kept

theorem joinDigitGroups_eq (u : Tables) (s : Text) :
    joinDigitGroups u s = leftOf isSeparator u.isDigit [] s := by
  apply @joinFrom_eq_keptFrom _ _ (separator_apart u) []
  intro _ inside
  cases inside

theorem description_eq (laws : u.Unicode) (s : Text) :
    description u s = collapseSpaces (joinDigitGroups u (withoutNoise u s)) := by
  by_cases empty : s = []
  · have none_ : withoutNoise u [] = [] := by
      have normal : u.nfkc [] = [] := normal_nil laws
      have quoted : quotes [] = [] := rfl
      rw [withoutNoise_eq, prepare, normal, quoted, upper_nil laws]
      exact dropped_eq_self phrase_of_noise fun n member inside =>
        phrase_ne_nil (phrase_of_noise n member) (List.infix_nil.mp inside)
    rw [empty, none_]
    rfl
  · rw [description, if_neg empty]
    rfl

theorem spaces (c : Char) (blank : Scan.isSpace c) : isSeparator c = true := by
  simp [isSeparator, blank]

theorem settled_withoutNoise (laws : u.Unicode) : ∀ c ∈ withoutNoise u s, Settled u c := by
  intro c member
  rcases mem_dropped member with rfl | inside
  · exact settled_space laws
  · exact settled_prepare laws inside

theorem single_withoutNoise (laws : u.Unicode) :
    ∀ c ∈ withoutNoise u s, isSeparator c → u.Normal [c] :=
  fun c member _ => (settled_withoutNoise laws c member).normal

theorem settled_description (laws : u.Unicode) : ∀ c ∈ description u s, Settled u c := by
  intro c member
  rw [description_eq laws, collapseSpaces, intercalate_fields (by decide), joinDigitGroups_eq] at member
  have squeezed := (List.dropWhile_sublist _).subset ((List.rdropWhile_prefix _ _).subset member)
  rcases mem_of_mem_substituteFrom _ _ _ squeezed with blank | left
  · rw [List.mem_singleton.mp blank]
    exact settled_space laws
  · exact settled_withoutNoise laws c ((leftOf_sublist _ _ _ _).subset left)

/-- Joining and collapsing change nothing about the normal form. -/
theorem normal_description (laws : u.Unicode) :
    u.Normal (description u s) ↔ u.Normal (withoutNoise u s) := by
  have single := @single_withoutNoise u s laws
  have left : ∀ c ∈ leftOf isSeparator u.isDigit [] (withoutNoise u s), isSeparator c → u.Normal [c] :=
    fun c member => single c ((leftOf_sublist _ _ _ _).subset member)
  have squeezed : ∀ c ∈ squeeze Scan.isSpace (leftOf isSeparator u.isDigit [] (withoutNoise u s)),
      isSeparator c → u.Normal [c] := by
    intro c member blank
    rcases mem_of_mem_substituteFrom _ _ _ member with same | inside
    · rw [List.mem_singleton.mp same]
      exact normal_space laws
    · exact left c inside blank
  have joined := normal_leftOf laws [] [] single
  have spaced := normal_squeeze laws [] left spaces
  simp only [List.nil_append] at joined spaced
  rw [description_eq laws, collapseSpaces, intercalate_fields (by decide), joinDigitGroups_eq, strip,
    normal_rdropWhile laws _ spaces, normal_dropWhile laws squeezed spaces, spaced, joined]
  exact fun c member => squeezed c ((List.dropWhile_sublist _).subset member)

theorem normal_dropped (laws : u.Unicode) {old : List Text} (phrases : ∀ n ∈ old, Phrase n)
    (normal : u.Normal s) : u.Normal (dropped old s) := by
  induction old generalizing s with
  | nil => exact normal
  | cons n old ih =>
      apply ih fun m member => phrases m (by simp [member])
      exact normal_replaceAll laws (phrase_ne_nil (phrases n (by simp))) [] normal

theorem countP_description (laws : u.Unicode) :
    (description u s).countP isSolid = (withoutNoise u s).countP isSolid := by
  have apart : ∀ c, Scan.isSpace c → isSolid c = false := by
    intro c blank
    rw [isSolid, spaces c blank]
    rfl
  rw [description_eq laws, collapseSpaces, countP_intercalate (by decide) apart, joinDigitGroups_eq]
  apply countP_leftOf
  intro c separator
  rw [isSolid, separator]
  rfl

theorem collapseSpaces_idem (s : Text) : collapseSpaces (collapseSpaces s) = collapseSpaces s := by
  rw [collapseSpaces, collapseSpaces, fields_intercalate (by decide) (mem_fields s)]

theorem joinDigitGroups_description (laws : u.Unicode) :
    joinDigitGroups u (description u s) = description u s := by
  rw [joinDigitGroups_eq]
  apply @leftOf_of_gapless isSeparator u.isDigit [] _ false
  rw [description_eq laws, collapseSpaces, intercalate_fields (by decide), joinDigitGroups_eq]
  apply gapless_strip spaces
  apply gapless_squeeze spaces (by decide)
  exact @gapless_leftOf isSeparator u.isDigit [] _ false Bool.noConfusion

/-- The text holds boilerplate exactly when two of its words stand apart where it was dropped. -/
theorem infix_description_iff (laws : u.Unicode) : (∃ n ∈ noise, n <:+: description u s) ↔
    ∃ first second, first ++ ' ' :: second ∈ noise ∧
      Apart Scan.isSpace first second (withoutNoise u s) := by
  have unspaced : ∀ word : Text, (∀ c ∈ word, isSeparator c = false) →
      ∀ c ∈ word, Scan.isSpace c = false := by
    intro word other c member
    have kept := other c member
    rw [isSeparator, Bool.or_eq_false_iff] at kept
    exact kept.1
  have apart_iff : ∀ first second : Text, first ++ ' ' :: second ∈ noise →
      (first ++ ' ' :: second <:+: description u s ↔
        Apart Scan.isSpace first second (withoutNoise u s)) := by
    intro first second known
    obtain ⟨some_, some', one, two⟩ := words_of_phrase (phrase_of_noise _ known)
    have digits := laws.noise_digit _ known
    rw [description_eq laws, collapseSpaces, infix_intercalate_iff (by decide) some_ (unspaced _ one)
      some' (unspaced _ two), joinDigitGroups_eq]
    exact apart_leftOf_iff spaces (separator_apart u) some_
      (fun c member => ⟨one c member, digits c (by simp [member])⟩)
      (fun c member => ⟨two c member, digits c (by simp [member])⟩)
  constructor
  · rintro ⟨n, known, inside⟩
    by_cases blank : ' ' ∈ n
    · obtain ⟨first, second, rfl⟩ := List.append_of_mem blank
      exact ⟨first, second, known, (apart_iff first second known).mp inside⟩
    · -- A single word was dropped wherever it stood.
      have phrase := phrase_of_noise n known
      have solid : ∀ c ∈ n, isSeparator c = false := by
        intro c member
        cases found : isSeparator c with
        | false => rfl
        | true => exact absurd (phrase.blanks c member found ▸ member) blank
      have some_ := phrase_ne_nil phrase
      rw [description_eq laws, collapseSpaces, joinDigitGroups_eq] at inside
      have left := infix_of_intercalate (by decide) some_ (unspaced n solid) inside
      have digits := laws.noise_digit n known
      cases n with
      | nil => exact absurd rfl some_
      | cons c n =>
          exact absurd ((infix_leftOf_iff (solid c (by simp)) digits).mp left)
            (not_infix_dropped phrase_of_noise known blank)
  · rintro ⟨first, second, known, apart_⟩
    exact ⟨_, known, (apart_iff first second known).mpr apart_⟩

/-- A description read again is the same exactly when the text without the boilerplate is still in
NFKC, in upper case as it is, and no two words of it that together are boilerplate have white space
between them. -/
theorem description_idempotent_iff (u : Tables) (laws : u.Unicode) (s : Text) :
    description u (description u s) = description u s ↔
      u.Normal (withoutNoise u s) ∧ ∀ first second, first ++ ' ' :: second ∈ noise →
        ¬ Apart Scan.isSpace first second (withoutNoise u s) := by
  have prepared := prepare_of_settled laws (@settled_description u s laws)
  have absent_iff : (∀ n ∈ noise, ¬ n <:+: description u s) ↔ ∀ first second,
      first ++ ' ' :: second ∈ noise → ¬ Apart Scan.isSpace first second (withoutNoise u s) := by
    have found := not_congr (@infix_description_iff u s laws)
    simpa only [not_exists, not_and] using found
  rw [← absent_iff]
  constructor
  · intro again
    have normal : u.Normal (description u s) := by
      rw [← again, normal_description laws, withoutNoise_eq, prepared]
      exact normal_dropped laws phrase_of_noise (laws.nfkc_nfkc _)
    refine ⟨(normal_description laws).mp normal, fun n known inside => ?_⟩
    have fewer := countP_dropped_lt phrase_of_noise known inside
    have kept := @countP_description u (description u s) laws
    rw [again, withoutNoise_eq, prepared, normal] at kept
    exact Nat.ne_of_lt fewer kept.symm
  · rintro ⟨normal, absent⟩
    have stays : withoutNoise u (description u s) = description u s := by
      rw [withoutNoise_eq, prepared, (normal_description laws).mpr normal]
      exact dropped_eq_self phrase_of_noise absent
    rw [description_eq laws, stays, joinDigitGroups_description laws, description_eq laws]
    exact collapseSpaces_idem _

end Description

/-! ## Two blanks between two words -/

theorem not_isUpper_of_isQuote {c : Char} (quote : isQuote c) : c.isUpper = false := by
  have all : quotePairs.all fun q => !q.1.isUpper := by decide +kernel
  obtain ⟨q, found⟩ := Option.isSome_iff_exists.mp quote
  obtain ⟨_, _, parts, -⟩ := List.lookup_eq_some_iff.mp found
  have known := List.all_eq_true.mp all (c, q) (by simp [parts])
  simpa using known

theorem isLower_iff {c : Char} : c.isLower = true ↔ c.val ≥ 'a'.val ∧ c.val ≤ 'z'.val := by
  show (decide (c.val ≥ 'a'.val) && decide (c.val ≤ 'z'.val)) = true ↔ _
  rw [Bool.and_eq_true, decide_eq_true_iff, decide_eq_true_iff]

theorem isUpper_iff {c : Char} : c.isUpper = true ↔ c.val ≥ 'A'.val ∧ c.val ≤ 'Z'.val :=
  decide_eq_true_iff

theorem toUpper_of_not {c : Char} (other : ¬ c.isLower) : c.toUpper = c := by
  rw [isLower_iff] at other
  exact dif_neg other

theorem isUpper_toUpper {c : Char} (lower : c.isLower) :
    c.toUpper.isUpper = true ∧ ¬ c.toUpper.isLower := by
  rw [isLower_iff] at lower
  have above := UInt32.le_iff_toNat_le.mp lower.1
  have below := UInt32.le_iff_toNat_le.mp lower.2
  have first : 'a'.val.toNat = 97 := rfl
  have last : 'z'.val.toNat = 122 := rfl
  have first' : 'A'.val.toNat = 65 := rfl
  have last' : 'Z'.val.toNat = 90 := rfl
  have value : c.toUpper.val.toNat = c.val.toNat - 32 := by
    have shift : ('A'.val - 'a'.val : UInt32).toNat = 2 ^ 32 - 32 := rfl
    have moved : c.toUpper = _ := dif_pos lower
    rw [moved, UInt32.toNat_add, shift]
    omega
  rw [isUpper_iff, isLower_iff]
  simp only [ge_iff_le, UInt32.le_iff_toNat_le, value]
  omega

theorem asciiTables_unicode : asciiTables.Unicode where
  nfkc_nfkc _ := rfl
  part _ := rfl
  starts _ _ _ := rfl
  ends _ _ _ := rfl
  ascii _ := rfl
  upper_append x y := List.map_append
  upper_upper {c d} member := by
    obtain rfl := List.mem_singleton.mp member
    have upper : c.toUpper.toUpper = c.toUpper := by
      by_cases lower : c.isLower
      · exact toUpper_of_not (isUpper_toUpper lower).2
      · rw [toUpper_of_not lower, toUpper_of_not lower]
    exact congrArg (fun e => [e]) upper
  upper_normal _ _ := rfl
  upper_space := rfl
  upper_quote {c d} member quote := by
    obtain rfl := List.mem_singleton.mp member
    apply toUpper_of_not
    intro lower
    have upper := (isUpper_toUpper lower).1
    rw [not_isUpper_of_isQuote quote] at upper
    cases upper
  nfkc_quote member _ := member
  nfkc_upper {s} alone := by
    have same : s.map Char.toUpper = s.map id :=
      List.map_congr_left fun c member => (List.cons.inj (alone c member).2).1
    rw [List.map_id] at same
    exact same
  noise_digit := by
    have all : noise.all fun n => n.all fun c => !c.isDigit := by decide +kernel
    intro n known c member
    have plain := List.all_eq_true.mp (List.all_eq_true.mp all n known) c member
    have digit : c.isDigit = false := by simpa using plain
    exact digit

/-- A description that is read again as it was. -/
theorem description_idempotent_sample :
    asciiTables.Normal (withoutNoise asciiTables "tytul: rent 12 - 34".toList) ∧
      ∀ first second, first ++ ' ' :: second ∈ noise →
        ¬ Apart Scan.isSpace first second (withoutNoise asciiTables "tytul: rent 12 - 34".toList) :=
  (description_idempotent_iff asciiTables asciiTables_unicode _).mp (by decide +kernel)

theorem spaced_boilerplate_fails : ¬ ∀ u : Tables, u.Unicode → ∀ s : Text,
    description u (description u s) = description u s := by
  intro claimed
  have once : description asciiTables "RACHUNEK  KONTRAHENTA:".toList =
      "RACHUNEK KONTRAHENTA:".toList := by decide +kernel
  have twice : description asciiTables "RACHUNEK KONTRAHENTA:".toList = [] := by decide +kernel
  have same := claimed asciiTables asciiTables_unicode "RACHUNEK  KONTRAHENTA:".toList
  rw [once, twice] at same
  cases same

end Vekst.Normalize
