import Mathlib.Data.List.Basic

namespace Relational

variable {α : Type*} {passes stuck : α → Prop}

/-- A search that goes on while items pass comes to one that it is stuck at. -/
def Reaches (passes stuck : α → Prop) (items : List α) : Prop :=
  ∃ before item after, items = before ++ item :: after ∧ (∀ b ∈ before, passes b) ∧ stuck item

@[simp] theorem reaches_nil : ¬ Reaches passes stuck [] := by
  rintro ⟨before, item, after, split_, -⟩
  simp at split_

@[simp] theorem reaches_cons {item : α} {items : List α} :
    Reaches passes stuck (item :: items) ↔
      stuck item ∨ passes item ∧ Reaches passes stuck items := by
  constructor
  · rintro ⟨before, found, after, split_, passed, held⟩
    cases before with
    | nil =>
        obtain ⟨rfl, -⟩ := List.cons.inj split_
        exact .inl held
    | cons first before =>
        obtain ⟨rfl, rfl⟩ := List.cons.inj split_
        obtain ⟨first, others⟩ := List.forall_mem_cons.mp passed
        exact .inr ⟨first, before, found, after, rfl, others, held⟩
  · rintro (held | ⟨first, before, found, after, rfl, others, held⟩)
    · exact ⟨[], item, items, rfl, nofun, held⟩
    · exact ⟨item :: before, found, after, rfl, List.forall_mem_cons.mpr ⟨first, others⟩, held⟩

theorem reaches_append {items more : List α} :
    Reaches passes stuck (items ++ more) ↔
      Reaches passes stuck items ∨ (∀ item ∈ items, passes item) ∧ Reaches passes stuck more := by
  induction items with
  | nil => simp
  | cons item items ih =>
      rw [List.cons_append, reaches_cons, reaches_cons, ih, List.forall_mem_cons]
      tauto

/-- A search finds the only item there is. -/
theorem find?_of_unique {items : List α} {q : α → Bool} {a : α} (member : a ∈ items)
    (holds : q a) (unique : ∀ b ∈ items, q b → b = a) : items.find? q = some a := by
  obtain ⟨b, found⟩ := Option.isSome_iff_exists.mp (List.find?_isSome.mpr ⟨a, member, holds⟩)
  rw [found, unique b (List.mem_of_find?_eq_some found) (List.find?_some found)]

end Relational
