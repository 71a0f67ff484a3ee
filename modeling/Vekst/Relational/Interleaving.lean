import Vekst.Relational.Separation

namespace Policy

variable {Row Key Tenant X : Type} [DecidableEq Key] [DecidableEq Tenant] [DecidableEq X]
  {schema : Schema Row Key Tenant} {ownerOf : Key → Option Tenant} {minted : Row → Prop}
  {tenant : X → Option Tenant} {t : Tenant} {x : X} {σ : State Row X}

/-- What a tenant's transactions can know of a state. -/
def State.view (schema : Schema Row Key Tenant) (tenant : X → Option Tenant) (t : Tenant)
    (σ : State Row X) : State Row X where
  versions := schema.view t σ.versions
  aborted := σ.aborted.filter fun x => tenant x = some t

section Ends

variable (kept : schema.Kept ownerOf minted tenant σ.versions)
include kept

omit [DecidableEq Key] [DecidableEq X] in
/-- What a tenant sees has no part in other transactions. -/
theorem untouched (other : tenant x ≠ some t) :
    ∀ v ∈ schema.view t σ.versions, v.written ≠ some x ∧ v.gone ≠ some x := by
  intro v member
  obtain ⟨inside, readable⟩ := List.mem_filter.mp member
  have apart : ∀ touched : v.written = some x ∨ v.gone = some x, False := by
    intro touched
    obtain ⟨some_, owner⟩ := kept.touched v inside x touched
    rcases readable_iff.mp readable with shared | mine
    · rw [owner] at shared
      rw [shared] at some_
      cases some_
    · exact other (owner.symm.trans mine)
  exact ⟨fun written => apart (.inl written), fun gone => apart (.inr gone)⟩

end Ends

/-! ## Steps -/

end Policy
