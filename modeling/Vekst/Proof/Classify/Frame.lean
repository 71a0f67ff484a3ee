import Vekst.Proof.Review.Imports

namespace Vekst.Classify
open Isolation Ledger

/-! ## What a classification run writes -/

/-- A write of a run: a row of its own, or an answer of a category that is there. -/
def OfRun (d : Database) : Write → Prop
  | .insertRun _ => True
  | .updateRun _ => True
  | .insertClassification row => ∃ cat ∈ d.categories, cat.id = row.categoryID
  | _ => False

def WritesOfRun (d : Database) (writes : List Write) : Prop := ∀ w ∈ writes, OfRun d w

theorem writesOfRun_query {α : Type} (f : Database → Except Failure α) :
    (Prog.query f : Tx α).Emits WritesOfRun :=
  Prog.emits_query (by simp [WritesOfRun]) f

theorem writesOfRun_updateRunning (batchID : UUID)
    (change : ClassificationRunRow → ClassificationRunRow) :
    (updateRunning batchID change).Emits WritesOfRun := by
  apply Prog.emits_exec
  intro d writes answer success
  split at success
  next => cases success
  next =>
    obtain ⟨rfl, -⟩ := Prod.mk.inj (Except.ok.inj success)
    simp [WritesOfRun, OfRun]

theorem writesOfRun_insertClassificationRun (id : UUID) (now : Timestamp) (batchID : UUID) :
    (insertClassificationRun id now batchID).Emits WritesOfRun := by
  apply Prog.emits_exec
  intro d writes answer success
  obtain ⟨_, -, made⟩ := bind_ok.mp success
  obtain ⟨rfl, -⟩ := Prod.mk.inj (Except.ok.inj made)
  simp [WritesOfRun, OfRun]

theorem writesOfRun_insertClassification (id : UUID) (now : Timestamp) (c : Classification) :
    (insertClassification id now c).Emits WritesOfRun := by
  apply Prog.emits_exec
  intro d writes answer success
  obtain ⟨_, checked, made⟩ := bind_ok.mp success
  obtain ⟨rfl, rfl⟩ := Prod.mk.inj (Except.ok.inj made)
  obtain ⟨fits, -⟩ := checkClassification_ok.mp checked
  simpa [WritesOfRun, OfRun] using fits.category

theorem writesOfRun_storeChunk (batchID : UUID) (draws : Draws) (page : Nat)
    (rows : List Classification) (offered : Nat) :
    (storeChunk batchID draws page rows offered).Emits WritesOfRun := by
  apply Prog.emits_bind
  · apply Prog.emits_forM
    rintro ⟨c, i⟩ -
    exact Prog.emits_bind (writesOfRun_insertClassification _ _ c) fun _ => trivial
  · intro _
    exact writesOfRun_updateRunning _ _

theorem writesOfRun_requestContext (site : Site) : (requestContext site).Emits WritesOfRun := by
  apply Prog.emits_bind (writesOfRun_query _)
  intro cats
  apply Prog.emits_bind (writesOfRun_query _)
  intro rules
  apply Prog.emits_bind (Prog.emits_ofExcept _)
  intro rules
  exact Prog.emits_bind (writesOfRun_query _) fun _ => trivial

/-! ## The run and its pages -/

/-- The entry point of a run and the page it returns to. -/
def running : Discipline Database Write Reply Label where
  allowed label := match label with
    | .classifyBatch _ _ | .classifyPage _ _ _ _ _ => True
    | _ => False
  answered _ := True
  guarantee _ := WritesOfRun

section Keeps

variable {site : Site}

theorem running_inTx {α : Type} {next : Except Failure α → Job} {p : Tx α}
    (emits : p.Emits WritesOfRun) (kept : ∀ result, (next result).Keeps running []) :
    (inTx next p).Keeps running [] := by
  apply keeps_inTx
  · have all := @Prog.wp_of_emits _ _ _ _ _ (fun _ => WritesOfRun) (fun _ => True) _ emits
      (fun _ _ _ _ allowed => ⟨allowed, trivial⟩) [] trivial
    exact Prog.wp_mono all fun answer _ _ => kept (.ok answer)
  · exact fun e => kept (.error e)

theorem running_close (batchID : UUID) (now : Timestamp) (status : RunStatus)
    (failureCode : Option String) :
    (inTx settle (finishClassificationRun batchID now status failureCode)).Keeps running [] := by
  apply running_inTx (writesOfRun_updateRunning _ _)
  intro result
  cases result <;> trivial

theorem running_classifyPage (batchID : UUID) (draws : Draws) (context : BatchContext)
    (cursor : Cursor) (page : Nat) :
    (classifyPage site batchID draws context cursor page).Keeps running [] := by
  apply running_inTx (writesOfRun_query _)
  intro result
  split
  next => trivial
  next => exact running_close _ _ _ _
  next first rest =>
    refine ⟨fun reply _ => ?_, fun e => ?_⟩
    · cases reply with
      | statement parsed => trivial
      | proposals resp =>
          dsimp only
          unfold writeChunk
          split
          next => exact running_close _ _ _ _
          next => trivial
          next rows accepted =>
            apply running_inTx (writesOfRun_storeChunk _ _ _ _ _)
            intro result
            split
            next => exact ⟨trivial, rfl⟩
            next => exact running_close _ _ _ _
            next => trivial
    · cases e with
      | classifierRejected => exact running_close _ _ _ _
      | _ => trivial

theorem running_classifyBatch (batchID : UUID) (draws : Draws) :
    (classifyBatch site batchID draws).Keeps running [] := by
  apply running_inTx (writesOfRun_insertClassificationRun _ _ _)
  intro result
  split
  next =>
    apply running_inTx (writesOfRun_requestContext site)
    intro result
    split
    next => exact running_close _ _ _ _
    next => trivial
    next context => exact ⟨trivial, rfl⟩
  next => split <;> trivial

theorem running_bodies (label : Label) (allowed : running.allowed label) :
    (body site label).Keeps running [] := by
  cases label with
  | classifyBatch batchID draws => exact running_classifyBatch batchID draws
  | classifyPage batchID draws context cursor page => exact running_classifyPage _ _ _ _ _
  | _ => exact absurd allowed id

end Keeps

/-! ## What a run leaves -/

/-- A run adds answers of categories that are there, and touches nothing but them and the runs. -/
def Supplements (d e : Database) : Prop :=
  ∃ runs added, e = { d with runs, classifications := d.classifications ++ added } ∧
    ∀ c ∈ added, ∃ cat ∈ d.categories, cat.id = c.categoryID

theorem Supplements.trans {d e last : Database} (first : Supplements d e) (second : Supplements e last) :
    Supplements d last := by
  obtain ⟨_, added, rfl, known⟩ := first
  obtain ⟨runs, more, rfl, known'⟩ := second
  refine ⟨runs, added ++ more, by simp, fun c member => ?_⟩
  rcases List.mem_append.mp member with old | new
  · exact known c old
  · exact known' c new

theorem supplements_refl (d : Database) : Supplements d d := ⟨d.runs, [], by simp, by simp⟩

theorem supplements_visible {d : Database} {writes : List Write} (allowed : WritesOfRun d writes) :
    Supplements d (visible d writes) := by
  induction writes generalizing d with
  | nil => exact supplements_refl d
  | cons w writes ih =>
      have one : Supplements d (d.apply w) := by
        have first := allowed w (by simp)
        cases w with
        | insertRun row => exact ⟨d.runs ++ [row], [], by simp [Database.apply], by simp⟩
        | updateRun row =>
            exact ⟨replaceBy (·.id) row d.runs, [], by simp [Database.apply], by simp⟩
        | insertClassification row =>
            exact ⟨d.runs, [row], rfl, fun c member => List.mem_singleton.mp member ▸ first⟩
        | _ => exact absurd first id
      have categories : (d.apply w).categories = d.categories := by
        obtain ⟨_, _, same, -⟩ := one
        rw [same]
      have later : Supplements (d.apply w) (visible (d.apply w) writes) := by
        apply ih
        intro other member
        have known := allowed other (by simp [member])
        cases other with
        | insertClassification row =>
            rw [OfRun, categories]
            exact known
        | _ => exact known
      exact one.trans later

theorem running_drives : running.Drives (fun d pending => Supplements d (visible d pending)) Supplements where
  refl := supplements_refl
  trans _ _ _ := Supplements.trans
  opened := supplements_refl
  written d pending more held allowed := by
    rw [visible_append]
    exact held.trans (supplements_visible allowed)
  published _ _ held _ := held

theorem supplements_of_solo {site : Site} {batchID : UUID} {draws : Draws} {d last : Database}
    {around : Surroundings Failure Question Reply} {asked : List Question} {result : Option Outcome}
    (did : Solo (body site) around (body site (.classifyBatch batchID draws)) d [] asked result last) :
    Supplements d last :=
  did.moves running_drives running_bodies (fun _ _ _ => trivial)
    (running_bodies (.classifyBatch batchID draws) trivial) (supplements_refl d)

end Vekst.Classify
