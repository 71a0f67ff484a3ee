import Vekst.Relational.Policy

namespace Policy

variable {Row Key Tenant X α : Type} [DecidableEq Key] [DecidableEq Tenant] [DecidableEq X]

variable {schema : Schema Row Key Tenant} {ownerOf : Key → Option Tenant} {minted : Row → Prop}

/-- A row refers to its owner's rows or to shared ones. -/
def Schema.Within (schema : Schema Row Key Tenant) (ownerOf : Key → Option Tenant) (r : Row) : Prop :=
  ∀ k ∈ schema.needs r ++ schema.plain r, ownerOf k = none ∨ ownerOf k = schema.owner r

/-- The versions a tenant can read. -/
def Schema.view (schema : Schema Row Key Tenant) (t : Tenant) (vs : List (Version Row X)) :
    List (Version Row X) :=
  vs.filter fun v => schema.readable t v.row

section Checks

variable {x : X} {me t : Tenant} {vs : List (Version Row X)} {r : Row} {k : Key}

omit [DecidableEq Key] in
theorem readable_iff : schema.readable t r ↔ schema.owner r = none ∨ schema.owner r = some t := by
  simp [Schema.readable]

omit [DecidableEq Key] in
theorem writable_iff : schema.writable t r ↔ schema.owner r = some t := by simp [Schema.writable]

omit [DecidableEq Key] in
theorem readable_of_writable (mine : schema.writable t r) : schema.readable t r :=
  readable_iff.mpr (.inr (writable_iff.mp mine))

theorem owner_of_enter (entered : schema.enter x t vs r = .ok ()) : schema.owner r = some t := by
  rw [Schema.enter] at entered
  by_cases mine : schema.writable t r
  · exact writable_iff.mp mine
  · rw [if_pos (by simp [mine])] at entered
    cases entered

end Checks

/-! ## Updates -/

section Updates

variable {x : X} {me t : Tenant} {target : Version Row X → Bool} {f : Row → Row}
  {earlier new rest vs after : List (Version Row X)}

end Updates

/-! ## Deletions -/

section Deletions

variable {x : X} {t : Tenant} {vs : List (Version Row X)} {target : Version Row X → Bool} {n : Nat}
  {v : Version Row X}

end Deletions

/-! ## Statements -/

section Statements

variable {x : X} {me t : Tenant} {vs after : List (Version Row X)} {s : Statement Row}
  {result : Result Row}

/-- What is stored of a tenant's rows, and which transactions have touched them. -/
structure Schema.Kept (schema : Schema Row Key Tenant) (ownerOf : Key → Option Tenant)
    (minted : Row → Prop) (tenant : X → Option Tenant) (vs : List (Version Row X)) : Prop where
  stamped : ∀ v ∈ vs, minted v.row
  within : ∀ v ∈ vs, schema.Within ownerOf v.row
  touched : ∀ v ∈ vs, ∀ x, v.written = some x ∨ v.gone = some x →
    (tenant x).isSome ∧ schema.owner v.row = tenant x

omit [DecidableEq Tenant] in
theorem bind_ok {β : Type} {first : Except Stop α} {rest : α → Except Stop β} {b : β}
    (done_ : (first >>= rest) = .ok b) : ∃ a, first = .ok a ∧ rest a = .ok b := by
  cases first with
  | error stop => cases done_
  | ok a => exact ⟨a, rfl, done_⟩

theorem insert_ok {r : Row} (done_ : schema.insert x me vs r = .ok after) :
    schema.owner r = some me ∧ schema.refer x me (vs ++ [.made x r]) r = .ok () ∧
      after = vs ++ [.made x r] := by
  obtain ⟨_, entered, done_⟩ := bind_ok done_
  obtain ⟨_, referred, done_⟩ := bind_ok done_
  exact ⟨owner_of_enter entered, referred, (Except.ok.inj done_).symm⟩

variable {tenant : X → Option Tenant}

theorem map_ok {β : Type} {outcome : Except Stop α} {g : α → β} {b : β}
    (done_ : outcome.map g = .ok b) : ∃ a, outcome = .ok a ∧ b = g a := by
  cases outcome with
  | error stop => cases done_
  | ok a => exact ⟨a, rfl, (Except.ok.inj done_).symm⟩

end Statements

end Policy
