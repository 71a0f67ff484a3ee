import Mathlib.Data.List.Count
import Mathlib.Data.List.Nodup
import Mathlib.Data.List.Range
import Mathlib.Logic.Function.Basic

namespace Relational

variable {κ : Type*} [DecidableEq κ]

/-- Each key with its ordinal among the keys equal to it, counting on from what has been seen. -/
def number (seen : κ → Nat) : List κ → List (κ × Nat)
  | [] => []
  | k :: rest => (k, seen k + 1) :: number (Function.update seen k (seen k + 1)) rest

theorem map_fst_number (seen : κ → Nat) (keys : List κ) :
    (number seen keys).map Prod.fst = keys := by
  induction keys generalizing seen with
  | nil => rfl
  | cons k keys ih => rw [number, List.map_cons, ih]

/-- The ordinals given to a key are the next ones, one for each time it occurs. -/
theorem mem_number {seen : κ → Nat} {keys : List κ} {k : κ} {n : Nat} :
    (k, n) ∈ number seen keys ↔ seen k < n ∧ n ≤ seen k + keys.count k := by
  induction keys generalizing seen with
  | nil =>
      simp only [number, List.not_mem_nil, List.count_nil, Nat.add_zero, false_iff, not_and]
      omega
  | cons head keys ih =>
      rw [number, List.mem_cons, ih, Prod.mk.injEq, List.count_cons]
      by_cases same : k = head
      · subst same
        simp only [true_and, Function.update_self, beq_self_eq_true, if_true]
        omega
      · have other : (head == k) = false := beq_false_of_ne fun eq => same eq.symm
        simp [same, other]

theorem nodup_number (seen : κ → Nat) (keys : List κ) : (number seen keys).Nodup := by
  induction keys generalizing seen with
  | nil => exact List.nodup_nil
  | cons k keys ih =>
      refine List.nodup_cons.mpr ⟨fun member => ?_, ih _⟩
      have later := (mem_number.mp member).1
      rw [Function.update_self] at later
      exact Nat.lt_irrefl _ later

/-- The ordinals of one key are the next ones, in order. -/
theorem filter_number (seen : κ → Nat) (keys : List κ) (k : κ) :
    (number seen keys).filter (·.1 = k) = (List.range' (seen k + 1) (keys.count k)).map (k, ·) := by
  induction keys generalizing seen with
  | nil => rfl
  | cons head keys ih =>
      rw [number, List.count_cons]
      by_cases same : head = k
      · subst same
        rw [List.filter_cons_of_pos (by simp), ih, Function.update_self, beq_self_eq_true, if_pos rfl,
          List.range'_succ, List.map_cons]
      · have other : (head == k) = false := beq_false_of_ne same
        rw [List.filter_cons_of_neg (by simpa using same), ih,
          Function.update_of_ne (Ne.symm same), other, if_neg Bool.false_ne_true]
        rfl

/-! ## A store that keeps each repeat once -/

section Store

variable {η : Type*} [DecidableEq η] {code : κ → Nat → η} {stored : List (κ × η)} {keys : List κ}
  {k : κ} {held : Nat}

/-- What is stored under a key has the codes of the first ordinals, in order. -/
def Upto (code : κ → Nat → η) (stored : List (κ × η)) (k : κ) (held : Nat) : Prop :=
  (stored.filter (·.1 = k)).map Prod.snd = (List.range' 1 held).map (code k)

/-- Every code stored is one of its key. -/
def Coded (code : κ → Nat → η) (stored : List (κ × η)) : Prop :=
  ∀ p ∈ stored, ∃ n, p.2 = code p.1 n

/-- The numbered keys whose code is not stored yet, coded. -/
def absorbed (code : κ → Nat → η) (stored : List (κ × η)) (keys : List κ) : List (κ × η) :=
  ((number (fun _ => 0) keys).map fun p => (p.1, code p.1 p.2)).filter
    fun p => p.2 ∉ stored.map Prod.snd

omit [DecidableEq η] in
theorem Upto.length (upto : Upto code stored k held) : stored.countP (·.1 = k) = held := by
  have lengths := congrArg List.length upto
  rwa [List.length_map, List.length_map, List.length_range', ← List.countP_eq_length_filter] at lengths

omit [DecidableEq η] in
theorem upto_zero (absent : ∀ p ∈ stored, p.1 ≠ k) : Upto code stored k 0 := by
  have none_ : stored.filter (·.1 = k) = [] :=
    List.filter_eq_nil_iff.mpr fun p member => by simpa using absent p member
  rw [Upto, none_]
  rfl

theorem Coded.absorbed (coded : Coded code stored) (keys : List κ) :
    Coded code (stored ++ absorbed code stored keys) := by
  intro p member
  rcases List.mem_append.mp member with old | new
  · exact coded p old
  · obtain ⟨q, -, rfl⟩ := List.mem_map.mp (List.mem_filter.mp new).1
    exact ⟨q.2, rfl⟩

theorem filter_range'_above (held count : Nat) :
    (List.range' 1 count).filter (fun i => held < i) = List.range' (held + 1) (count - held) := by
  rcases Nat.le_total count held with few | many
  · rw [Nat.sub_eq_zero_of_le few, List.range'_zero, List.filter_eq_nil_iff]
    intro i member
    have within := List.mem_range'_1.mp member
    simp only [decide_eq_true_eq]
    omega
  · have split_ : List.range' 1 count = List.range' 1 held ++ List.range' (held + 1) (count - held) := by
      rw [Nat.add_comm held 1, List.range'_append_1, Nat.add_sub_cancel' many]
    rw [split_, List.filter_append, List.filter_eq_nil_iff.mpr, List.nil_append, List.filter_eq_self]
    · intro i member
      have within := List.mem_range'_1.mp member
      exact decide_eq_true (by omega)
    · intro i member
      have within := List.mem_range'_1.mp member
      simp only [decide_eq_true_eq]
      omega

/-- Storing a batch beyond what is stored leaves under each key the larger of its numbers. -/
theorem Upto.absorbed (injective : ∀ k n k' n', code k n = code k' n' → k = k' ∧ n = n')
    (coded : Coded code stored) (upto : Upto code stored k held) :
    Upto code (stored ++ absorbed code stored keys) k (max held (keys.count k)) := by
  have known : ∀ i, 0 < i → (code k i ∈ stored.map Prod.snd ↔ i ≤ held) := by
    intro i positive
    constructor
    · intro member
      obtain ⟨p, inside, same⟩ := List.mem_map.mp member
      obtain ⟨n, own⟩ := coded p inside
      obtain ⟨rfl, rfl⟩ := injective _ _ _ _ (own.symm.trans same)
      have listed : p.2 ∈ (stored.filter (·.1 = p.1)).map Prod.snd :=
        List.mem_map_of_mem (List.mem_filter.mpr ⟨inside, decide_eq_true rfl⟩)
      rw [upto] at listed
      obtain ⟨j, within, eq⟩ := List.mem_map.mp listed
      obtain ⟨-, rfl⟩ := injective _ _ _ _ (eq.trans own)
      have bounds := List.mem_range'_1.mp within
      omega
    · intro within
      have listed : code k i ∈ (List.range' 1 held).map (code k) :=
        List.mem_map_of_mem (List.mem_range'_1.mpr ⟨positive, by omega⟩)
      rw [← upto] at listed
      obtain ⟨p, inside, same⟩ := List.mem_map.mp listed
      rw [← same]
      exact List.mem_map_of_mem (List.mem_filter.mp inside).1
  have new : ((Relational.absorbed code stored keys).filter (·.1 = k)).map Prod.snd =
      (List.range' (held + 1) (keys.count k - held)).map (code k) := by
    rw [Relational.absorbed, List.filter_comm, List.filter_map, Function.comp_def, filter_number,
      List.filter_map, List.map_map, List.filter_map, List.map_map, ← filter_range'_above]
    refine congrArg (List.map (code k)) (List.filter_congr fun i member => ?_)
    rw [Function.comp_apply, Function.comp_apply]
    rw [decide_eq_decide, known i (List.mem_range'_1.mp member).1, not_le]
  rw [Upto, List.filter_append, List.map_append, upto, new, ← List.map_append, Nat.add_comm held 1,
    List.range'_append_1]
  congr 2
  omega

end Store

end Relational
