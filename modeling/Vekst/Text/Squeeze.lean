import Vekst.Text.Regex

namespace Regex

variable {p : Char → Bool} {s : Text}

/-! ## Runs of a class replaced by one blank -/

/-- What `sub` leaves of a text whose runs of a class become one blank. -/
def squeeze (p : Char → Bool) (s : Text) : Text := sub (.many p 1) [' '] s

theorem substituteFrom_many (before s : Text) :
    substituteFrom (Pattern.many p 1).matchAt [' '] 0 before s = squeeze p s :=
  substituteFrom_before (fun one other s => by simp only [Pattern.matchAt_many_one]) 0 before [] s

theorem squeeze_cons_of_not {c : Char} (other : p c = false) :
    squeeze p (c :: s) = c :: squeeze p s := by
  rw [squeeze, sub, substituteFrom_none, substituteFrom_many]
  rw [Pattern.matchAt_many_one, List.takeWhile_cons, other]
  rfl

theorem squeeze_append_of_not {word : Text} (other : ∀ c ∈ word, p c = false) :
    squeeze p (word ++ s) = word ++ squeeze p s := by
  induction word with
  | nil => rfl
  | cons c word ih =>
      rw [List.cons_append, squeeze_cons_of_not (other c (by simp)),
        ih fun d member => other d (by simp [member]), List.cons_append]

theorem squeeze_of_space {c : Char} (blank : p c) :
    squeeze p (c :: s) = ' ' :: squeeze p (s.dropWhile p) := by
  have run : (c :: s).takeWhile p = c :: s.takeWhile p := by rw [List.takeWhile_cons, if_pos blank]
  have found : (Pattern.many p 1).matchAt [] (c :: s) = some ((s.takeWhile p).length + 1) := by
    rw [Pattern.matchAt_many_one, run]
    rfl
  have short : (s.takeWhile p).length + 1 ≤ (c :: s).length :=
    Nat.succ_le_succ (List.takeWhile_sublist p).length_le
  rw [squeeze, sub, substituteFrom_some (Nat.succ_pos _) short found, substituteFrom_many,
    List.drop_succ_cons]
  rw [drop_takeWhile]
  rfl

theorem fields_of_space {c : Char} (blank : p c) : fields p (c :: s) = fields p s := by
  rw [fields, List.splitOnP_cons_eq_if_modifyHead, if_pos blank]
  rfl

theorem fields_dropWhile : fields p (s.dropWhile p) = fields p s := by
  induction s with
  | nil => rfl
  | cons c s ih =>
      rw [List.dropWhile_cons]
      split
      next blank => rw [ih, fields_of_space blank]
      next => rfl

theorem fields_word {word : Text} (some_ : word ≠ []) (other : ∀ c ∈ word, p c = false) {c : Char}
    (blank : p c) : fields p (word ++ c :: s) = word :: fields p s := by
  rw [fields, List.splitOnP_append_cons_of_forall_mem other c blank, List.filter_cons,
    if_pos (decide_eq_true some_)]
  rfl

theorem fields_last {word : Text} (some_ : word ≠ []) (other : ∀ c ∈ word, p c = false) :
    fields p word = [word] := by
  rw [fields, List.splitOnP_eq_singleton other, List.filter_cons, if_pos (decide_eq_true some_)]
  rfl

theorem dropWhile_eq (p : Char → Bool) (s : Text) :
    s.dropWhile p = [] ∨ ∃ c rest, s.dropWhile p = c :: rest ∧ p c = false := by
  cases rest : s.dropWhile p with
  | nil => exact .inl rfl
  | cons c rest_ =>
      have kept := List.dropWhile_get_zero_not p s (by simp [rest])
      exact .inr ⟨c, rest_, rfl, by simpa [rest] using kept⟩

/-- A text that opens with another character: a word, then nothing or the class. -/
theorem exists_word {c : Char} (other : p c = false) (s : Text) :
    ∃ word after, c :: s = word ++ after ∧ word ≠ [] ∧ (∀ d ∈ word, p d = false) ∧
      after.length < (c :: s).length ∧ (after = [] ∨ ∃ d rest, after = d :: rest ∧ p d) := by
  refine ⟨c :: s.takeWhile fun d => !p d, s.dropWhile fun d => !p d, ?_, List.cons_ne_nil _ _, ?_,
    Nat.lt_succ_of_le (List.dropWhile_sublist _).length_le, ?_⟩
  · rw [List.cons_append, List.takeWhile_append_dropWhile]
  · intro d member
    rcases List.mem_cons.mp member with rfl | later
    · exact other
    · simpa using List.mem_takeWhile_imp later
  · rcases dropWhile_eq (fun d => !p d) s with none_ | ⟨d, rest, same, blank⟩
    · exact .inl none_
    · exact .inr ⟨d, rest, same, by simpa using blank⟩

/-- The words with blanks between them, and one where the text opens with the class. -/
theorem squeeze_eq (s : Text) : ∃ trail : Text, (∀ c ∈ trail, c = ' ') ∧ squeeze p s =
    (if s.head?.any p then [' '] else []) ++ [' '].intercalate (fields p s) ++ trail := by
  induction size : s.length using Nat.strong_induction_on generalizing s with
  | _ size_ ih =>
    subst size
    cases s with
    | nil => exact ⟨[], by simp, rfl⟩
    | cons c s =>
        cases blank : p c with
        | true =>
            obtain ⟨trail, blanks, same⟩ := ih (s.dropWhile p).length
              (Nat.lt_succ_of_le (List.dropWhile_sublist p).length_le) (s.dropWhile p) rfl
            have opens : (s.dropWhile p).head?.any p = false := by
              rcases dropWhile_eq p s with none_ | ⟨d, rest, some_, other⟩
              · rw [none_]
                rfl
              · rw [some_]
                exact other
            refine ⟨trail, blanks, ?_⟩
            rw [squeeze_of_space blank, same, opens, fields_dropWhile, fields_of_space blank]
            simp [blank]
        | false =>
            obtain ⟨word, after, parts, some_, other, shorter, ends⟩ := exists_word blank s
            obtain ⟨trail, blanks, same⟩ := ih after.length shorter after rfl
            have opens : (c :: s).head?.any p = false := blank
            rw [opens, parts, squeeze_append_of_not other, same]
            rcases ends with rfl | ⟨d, rest, rfl, space_⟩
            · refine ⟨trail, blanks, ?_⟩
              have none_ : fields p [] = [] := rfl
              rw [List.append_nil, fields_last some_ other, none_]
              simp
            · rw [fields_word some_ other space_, fields_of_space space_]
              cases words : fields p rest with
              | nil => exact ⟨' ' :: trail, by simpa using blanks, by simp [space_]⟩
              | cons first words_ =>
                  exact ⟨trail, blanks, by simp [space_, List.intercalate_cons_cons]⟩

/-- Each word is of the other characters. -/
theorem mem_fields (s : Text) : ∀ word ∈ fields p s, word ≠ [] ∧ ∀ c ∈ word, p c = false := by
  induction size : s.length using Nat.strong_induction_on generalizing s with
  | _ size_ ih =>
    subst size
    cases s with
    | nil => exact nofun
    | cons c s =>
        cases blank : p c with
        | true =>
            rw [fields_of_space blank]
            exact ih s.length (Nat.lt_succ_self _) s rfl
        | false =>
            obtain ⟨word, after, parts, some_, other, shorter, ends⟩ := exists_word blank s
            rw [parts]
            rcases ends with rfl | ⟨d, rest, rfl, space_⟩
            · rw [List.append_nil, fields_last some_ other]
              intro first member
              obtain rfl := List.mem_singleton.mp member
              exact ⟨some_, other⟩
            · rw [fields_word some_ other space_]
              intro first member
              rcases List.mem_cons.mp member with rfl | later
              · exact ⟨some_, other⟩
              · exact ih rest.length (Nat.lt_of_succ_lt shorter) rest rfl first later

theorem intercalate_ends {words : List Text}
    (known : ∀ word ∈ words, word ≠ [] ∧ ∀ c ∈ word, p c = false) :
    ([' '].intercalate words).head?.any p = false ∧
      ([' '].intercalate words).getLast?.any p = false := by
  induction words with
  | nil => exact ⟨rfl, rfl⟩
  | cons word words ih =>
      obtain ⟨some_, other⟩ := known word (by simp)
      have first : word.head?.any p = false := by
        cases word with
        | nil => rfl
        | cons c word => exact other c (by simp)
      have last : word.getLast?.any p = false := by
        rw [List.getLast?_eq_some_getLast some_]
        exact other _ (List.getLast_mem some_)
      cases words with
      | nil => simp [first, last]
      | cons next words =>
          obtain ⟨-, ends⟩ := ih fun other_ member => known other_ (by simp [member])
          have some' : [' '].intercalate (next :: words) ≠ [] := by
            have next_ := (known next (by simp)).1
            cases words with
            | nil => simpa using next_
            | cons w words => simp
          rw [List.intercalate_cons_cons]
          constructor
          · cases word with
            | nil => exact absurd rfl some_
            | cons c word => exact other c (by simp)
          · rw [List.getLast?_append_of_ne_nil _ some']
            exact ends

theorem strip_of_blanks {lead middle trail : Text} (leading : ∀ c ∈ lead, p c)
    (trailing : ∀ c ∈ trail, p c) (opens : middle.head?.any p = false)
    (ends : middle.getLast?.any p = false) : strip p (lead ++ middle ++ trail) = middle := by
  have right : (middle ++ trail).rdropWhile p = middle := by
    rw [List.rdropWhile, List.reverse_append,
      List.dropWhile_append_of_pos fun c member => trailing c (List.mem_reverse.mp member)]
    cases last : middle.reverse with
    | nil => exact (List.reverse_eq_nil_iff.mp last).symm
    | cons c rest =>
        rw [← List.head?_reverse, last] at ends
        have kept : ¬ p c := by simpa using ends
        rw [List.dropWhile_cons_of_neg kept, ← last, List.reverse_reverse]
  have left : (lead ++ (middle ++ trail)).dropWhile p = (middle ++ trail).dropWhile p :=
    List.dropWhile_append_of_pos leading
  rw [strip, List.append_assoc, left]
  cases middle with
  | nil =>
      have none_ : trail.dropWhile p = [] := List.dropWhile_eq_nil_iff.mpr trailing
      rw [List.nil_append, none_]
      rfl
  | cons c middle =>
      have first : ¬ p c := by simpa using opens
      rw [List.cons_append, List.dropWhile_cons_of_neg first]
      exact right

/-- Words joined by blanks are the squeezed text without the blanks at its ends. -/
theorem intercalate_fields (blank : p ' ') (s : Text) :
    [' '].intercalate (fields p s) = strip p (squeeze p s) := by
  obtain ⟨trail, blanks, same⟩ := @squeeze_eq p s
  obtain ⟨opens, ends⟩ := intercalate_ends (@mem_fields p s)
  rw [same, strip_of_blanks _ _ opens ends]
  · intro c member
    split at member
    · rw [List.mem_singleton.mp member]
      exact blank
    · cases member
  · intro c member
    rw [blanks c member]
    exact blank

theorem mem_squeeze {c : Char} (other : p c = false) (member : c ∈ s) : c ∈ squeeze p s := by
  apply mem_substituteFrom _ 0 [] s member
  intro _ rest n found dropped
  rw [Pattern.matchAt_many_one] at found
  split at found
  next => cases found
  next =>
    obtain rfl := Option.some.inj found
    rw [take_takeWhile] at dropped
    exact nomatch other.symm.trans (List.mem_takeWhile_imp dropped)

/-- Of the class, words joined by blanks hold the blank at most. -/
theorem eq_of_mem_intercalate_fields {c : Char} (of_class : p c)
    (member : c ∈ [' '].intercalate (fields p s)) : c = ' ' := by
  have known : ∀ words : List Text, (∀ word ∈ words, ∀ c ∈ word, p c = false) →
      c ∈ [' '].intercalate words → c = ' ' := by
    intro words other
    induction words with
    | nil => exact fun absurd_ => absurd absurd_ (by simp)
    | cons word words ih =>
        have first := other word (by simp)
        cases words with
        | nil =>
            intro known
            exact nomatch of_class.symm.trans (first c (by simpa using known))
        | cons next words =>
            rw [List.intercalate_cons_cons, List.mem_append, List.mem_append, List.mem_singleton]
            rintro ((inside | blank) | later)
            · exact nomatch of_class.symm.trans (first c inside)
            · exact blank
            · exact ih (fun w known => other w (by simp [known])) later
  exact known _ (fun word inside => (mem_fields s word inside).2) member

theorem fields_congr {q : Char → Bool} {s : Text} (same : ∀ c ∈ s, p c = q c) :
    fields p s = fields q s := by
  have splits : s.splitOnP p = s.splitOnP q := by
    induction s with
    | nil => rfl
    | cons c s ih =>
        rw [List.splitOnP_cons_eq_if_modifyHead, List.splitOnP_cons_eq_if_modifyHead,
          same c (by simp), ih fun d member => same d (by simp [member])]
  rw [fields, fields, splits]

/-! ## Two words apart -/

theorem squeeze_run {run : Text} (some_ : run ≠ []) (blanks : ∀ c ∈ run, p c)
    (stops : s.head?.any p = false) : squeeze p (run ++ s) = ' ' :: squeeze p s := by
  cases run with
  | nil => exact absurd rfl some_
  | cons c run =>
      rw [List.cons_append, squeeze_of_space (blanks c (by simp)),
        List.dropWhile_append_of_pos fun d member => blanks d (by simp [member])]
      rcases dropWhile_eq p s with none_ | ⟨d, rest, kept, -⟩
      · cases s with
        | nil => rfl
        | cons d s =>
            have other : p d = false := stops
            rw [List.dropWhile_cons, other] at none_
            cases none_
      · cases s with
        | nil => cases kept
        | cons d s =>
            have other : p d = false := stops
            rw [List.dropWhile_cons, other]
            rfl

theorem squeeze_eq_cons {c : Char} {y : Text} (other : c ≠ ' ') (same : squeeze p s = c :: y) :
    ∃ s', s = c :: s' ∧ squeeze p s' = y := by
  cases s with
  | nil => cases same
  | cons d s =>
      cases blank : p d with
      | true =>
          rw [squeeze_of_space blank] at same
          exact absurd (List.cons.inj same).1.symm other
      | false =>
          rw [squeeze_cons_of_not blank] at same
          obtain ⟨rfl, tail⟩ := List.cons.inj same
          exact ⟨s, rfl, tail⟩

theorem squeeze_eq_blank {y : Text} (blank : p ' ') (same : squeeze p s = ' ' :: y) :
    ∃ run s', s = run ++ s' ∧ run ≠ [] ∧ (∀ c ∈ run, p c) ∧ squeeze p s' = y := by
  cases s with
  | nil => cases same
  | cons d s =>
      cases space : p d with
      | true =>
          rw [squeeze_of_space space] at same
          refine ⟨d :: s.takeWhile p, s.dropWhile p, ?_, List.cons_ne_nil _ _, ?_,
            (List.cons.inj same).2⟩
          · rw [List.cons_append, List.takeWhile_append_dropWhile]
          · intro c member
            rcases List.mem_cons.mp member with rfl | later
            · exact space
            · exact List.mem_takeWhile_imp later
      | false =>
          rw [squeeze_cons_of_not space] at same
          rw [(List.cons.inj same).1, blank] at space
          cases space

theorem squeeze_eq_word {word y : Text} (others : ' ' ∉ word) (same : squeeze p s = word ++ y) :
    ∃ s', s = word ++ s' ∧ squeeze p s' = y := by
  induction word generalizing s with
  | nil => exact ⟨s, rfl, same⟩
  | cons c word ih =>
      rw [List.mem_cons, not_or] at others
      obtain ⟨tail, rfl, later⟩ := squeeze_eq_cons (Ne.symm others.1) same
      obtain ⟨s', rfl, known⟩ := ih others.2 later
      exact ⟨s', rfl, known⟩

/-- A place in the squeezed text is one in the text. -/
theorem squeeze_eq_append {x y : Text} (blank : p ' ') (same : squeeze p s = x ++ y) :
    ∃ x' s', s = x' ++ s' ∧ squeeze p s' = y := by
  induction x generalizing s with
  | nil => exact ⟨[], s, rfl, same⟩
  | cons d x ih =>
      by_cases space : d = ' '
      · subst space
        obtain ⟨run, tail, rfl, -, -, later⟩ := squeeze_eq_blank blank same
        obtain ⟨x', s', rfl, known⟩ := ih later
        exact ⟨run ++ x', s', by simp, known⟩
      · obtain ⟨tail, rfl, later⟩ := squeeze_eq_cons space same
        obtain ⟨x', s', rfl, known⟩ := ih later
        exact ⟨d :: x', s', rfl, known⟩

theorem squeeze_append {x y : Text} {c : Char} (other : p c = false) :
    ∃ x', squeeze p (x ++ c :: y) = x' ++ c :: squeeze p y := by
  induction size : x.length using Nat.strong_induction_on generalizing x with
  | _ size_ ih =>
    subst size
    cases x with
    | nil => exact ⟨[], squeeze_cons_of_not other⟩
    | cons d x =>
        cases space : p d with
        | true =>
            obtain ⟨x', known⟩ := ih (x.dropWhile p).length
              (Nat.lt_succ_of_le (List.dropWhile_sublist p).length_le) rfl
            have dropped : (x ++ c :: y).dropWhile p = x.dropWhile p ++ c :: y := by
              rw [List.dropWhile_append]
              split
              next none_ =>
                rw [List.isEmpty_iff.mp none_, List.dropWhile_cons, other]
                rfl
              next => rfl
            refine ⟨' ' :: x', ?_⟩
            rw [List.cons_append, squeeze_of_space space, dropped, known]
            rfl
        | false =>
            obtain ⟨x', known⟩ := ih x.length (Nat.lt_succ_self _) rfl
            exact ⟨d :: x', by rw [List.cons_append, squeeze_cons_of_not space, known]; rfl⟩

/-- The words stand one after the other with some of the class between them and nothing else. -/
def Apart (p : Char → Bool) (first second s : Text) : Prop :=
  ∃ before run after, s = before ++ (first ++ (run ++ (second ++ after))) ∧ run ≠ [] ∧ ∀ c ∈ run, p c

section Apart

variable {first second : Text}

theorem infix_squeeze_iff (blank : p ' ') (some_ : first ≠ []) (one : ∀ c ∈ first, p c = false)
    (some' : second ≠ []) (two : ∀ c ∈ second, p c = false) :
    first ++ ' ' :: second <:+: squeeze p s ↔ Apart p first second s := by
  have unblank : ∀ word : Text, (∀ c ∈ word, p c = false) → ' ' ∉ word := by
    intro word other inside
    exact nomatch blank.symm.trans (other ' ' inside)
  constructor
  · rintro ⟨x, y, same⟩
    rw [List.append_assoc, List.append_assoc, List.cons_append] at same
    obtain ⟨before, rest, rfl, opens⟩ := squeeze_eq_append blank same.symm
    obtain ⟨rest, rfl, between⟩ := squeeze_eq_word (unblank first one) opens
    obtain ⟨run, rest, rfl, run_, blanks, closes⟩ := squeeze_eq_blank blank between
    obtain ⟨after, rfl, -⟩ := squeeze_eq_word (unblank second two) closes
    exact ⟨before, run, after, rfl, run_, blanks⟩
  · rintro ⟨before, run, after, rfl, run_, blanks⟩
    have stops : (second ++ after).head?.any p = false := by
      cases second with
      | nil => exact absurd rfl some'
      | cons c second => exact two c (by simp)
    have tail : squeeze p (first ++ (run ++ (second ++ after))) =
        first ++ ' ' :: (second ++ squeeze p after) := by
      rw [squeeze_append_of_not one, squeeze_run run_ blanks stops, squeeze_append_of_not two]
    cases first with
    | nil => exact absurd rfl some_
    | cons c first =>
        obtain ⟨x, written⟩ := @squeeze_append p before (first ++ (run ++ (second ++ after))) c
          (one c (by simp))
        refine ⟨x, squeeze p after, ?_⟩
        rw [List.cons_append, squeeze_cons_of_not (one c (by simp)), List.cons_append] at tail
        rw [@List.cons_append _ c first (run ++ (second ++ after)), written, (List.cons.inj tail).2]
        simp

theorem infix_dropWhile_iff {c : Char} {word : Text} (other : p c = false) :
    c :: word <:+: s.dropWhile p ↔ c :: word <:+: s := by
  induction s with
  | nil => rfl
  | cons d s ih =>
      rw [List.dropWhile_cons]
      split
      next space =>
        rw [ih, List.infix_cons_iff, List.cons_prefix_cons]
        constructor
        · exact .inr
        · rintro (⟨rfl, -⟩ | later)
          · exact nomatch other.symm.trans space
          · exact later
      next => rfl

/-- What starts and ends outside of the class is in the text or not, whatever is stripped of it. -/
theorem infix_strip_iff {word : Text} (some_ : word ≠ []) (opens : word.head?.any p = false)
    (ends : word.getLast?.any p = false) : word <:+: strip p s ↔ word <:+: s := by
  have turned : word <:+: strip p s ↔ word.reverse <:+: (s.dropWhile p).reverse.dropWhile p := by
    rw [strip, List.rdropWhile, ← List.reverse_infix, List.reverse_reverse]
  rw [turned]
  cases last : word.reverse with
  | nil => exact absurd (List.reverse_eq_nil_iff.mp last) some_
  | cons c back =>
      have other : p c = false := by
        rw [← List.head?_reverse, last] at ends
        exact ends
      rw [infix_dropWhile_iff other, ← last, List.reverse_infix]
      cases word with
      | nil => exact absurd rfl some_
      | cons d word => exact infix_dropWhile_iff opens

/-- Joined by blanks, the words of a text hold a text of two exactly when they stand apart in it. -/
theorem infix_intercalate_iff (blank : p ' ') (some_ : first ≠ []) (one : ∀ c ∈ first, p c = false)
    (some' : second ≠ []) (two : ∀ c ∈ second, p c = false) :
    first ++ ' ' :: second <:+: [' '].intercalate (fields p s) ↔ Apart p first second s := by
  rw [intercalate_fields blank, infix_strip_iff, infix_squeeze_iff blank some_ one some' two]
  · simp [some_]
  · cases first with
    | nil => exact absurd rfl some_
    | cons c first => exact one c (by simp)
  · rw [List.getLast?_append_of_ne_nil _ (List.cons_ne_nil _ _), List.getLast?_cons_of_ne_nil some',
      List.getLast?_eq_some_getLast some']
    exact two _ (List.getLast_mem some')

/-- And no other text without the class. -/
theorem infix_of_intercalate (blank : p ' ') {word : Text} (some_ : word ≠ [])
    (other : ∀ c ∈ word, p c = false) (inside : word <:+: [' '].intercalate (fields p s)) :
    word <:+: s := by
  rw [intercalate_fields blank, infix_strip_iff some_] at inside
  · obtain ⟨x, y, same⟩ := inside
    rw [List.append_assoc] at same
    obtain ⟨before, rest, rfl, opens⟩ := squeeze_eq_append blank same.symm
    have unblank : ' ' ∉ word := fun found => nomatch blank.symm.trans (other ' ' found)
    obtain ⟨after, rfl, -⟩ := squeeze_eq_word unblank opens
    exact ⟨before, after, by simp⟩
  · cases word with
    | nil => exact absurd rfl some_
    | cons c word => exact other c (by simp)
  · rw [List.getLast?_eq_some_getLast some_]
    exact other _ (List.getLast_mem some_)

end Apart

/-! ## Words and characters that stay -/

section Counted

variable {q : Char → Bool}

theorem countP_run {run : Text} (apart : ∀ c, p c → q c = false) (blanks : ∀ c ∈ run, p c) :
    run.countP q = 0 := by
  rw [List.countP_eq_zero]
  intro c member
  rw [apart c (blanks c member)]
  exact Bool.false_ne_true

theorem countP_dropWhile (apart : ∀ c, p c → q c = false) (s : Text) :
    (s.dropWhile p).countP q = s.countP q := by
  nth_rewrite 2 [← @List.takeWhile_append_dropWhile _ p s]
  rw [List.countP_append, countP_run apart fun c member => List.mem_takeWhile_imp member, Nat.zero_add]

theorem countP_squeeze (blank : p ' ') (apart : ∀ c, p c → q c = false) (s : Text) :
    (squeeze p s).countP q = s.countP q := by
  induction size : s.length using Nat.strong_induction_on generalizing s with
  | _ size_ ih =>
    subst size
    cases s with
    | nil => rfl
    | cons c s => cases space : p c with
      | true =>
          rw [squeeze_of_space space, List.countP_cons, apart ' ' blank,
            ih (s.dropWhile p).length (Nat.lt_succ_of_le (List.dropWhile_sublist p).length_le) _ rfl,
            countP_dropWhile apart, List.countP_cons, apart c space]
      | false =>
          rw [squeeze_cons_of_not space, List.countP_cons, ih s.length (Nat.lt_succ_self _) s rfl,
            List.countP_cons]

/-- Joined by blanks, the words have the characters of the text outside of the class. -/
theorem countP_intercalate (blank : p ' ') (apart : ∀ c, p c → q c = false) (s : Text) :
    ([' '].intercalate (fields p s)).countP q = s.countP q := by
  rw [intercalate_fields blank, strip, List.rdropWhile, List.countP_reverse, countP_dropWhile apart,
    List.countP_reverse, countP_dropWhile apart, countP_squeeze blank apart]

theorem fields_intercalate (blank : p ' ') {words : List Text}
    (known : ∀ word ∈ words, word ≠ [] ∧ ∀ c ∈ word, p c = false) :
    fields p ([' '].intercalate words) = words := by
  induction words with
  | nil => rfl
  | cons word words ih =>
      obtain ⟨some_, other⟩ := known word (by simp)
      cases words with
      | nil => simpa using fields_last some_ other
      | cons next words =>
          rw [List.intercalate_cons_cons, List.append_assoc, List.singleton_append,
            fields_word some_ other blank, ih fun w member => known w (by simp [member])]

end Counted

end Regex
