import Mathlib.Data.List.Perm.Subperm
import Vekst.Identity.SignIn
import Vekst.Proof.Ledger.Emitted

namespace Vekst.Identity

/-! ## What belongs to whom -/

/-- The session a callback was answered with. -/
def Callback.session (c : Callback) : Option SessionRow :=
  match c.phase with
  | .answered (.signedIn session) => some session
  | _ => none

/-- The flow that led to a session. -/
def Callback.signedInBy (c : Callback) : Option AuthFlowRow :=
  if c.session.isSome then c.flow else none

/-- Both halves of the proof: the state in the URL and the flow's identifier in the cookie. -/
def Callback.Presents (c : Callback) (flow : AuthFlowRow) : Prop :=
  c.request.state = flow.state ∧ c.request.cookie = some flow.id.text

/-- The sessions of the callbacks, each of a flow of its own that its callback presented. -/
structure Bound (start : Database) (w : World) : Prop where
  once : (w.callbacks.filterMap Callback.signedInBy).Subperm w.started
  sessions : w.database.sessions.Perm (start.sessions ++ w.callbacks.filterMap Callback.session)
  presented : ∀ c ∈ w.callbacks, c.session.isSome → ∃ flow, c.flow = some flow ∧ c.Presents flow

/-- Of a callback's step: no flow is gone whose cookie the callback does not hold. -/
def Spares (s : Service) (w : World) : Event → Prop
  | .turn i turn => ∀ c ∈ w.callbacks[i]?, ∀ after ∈ fire s w (.turn i turn),
      ∀ flow ∈ w.database.authFlows, c.request.cookie ≠ some flow.id.text →
        flow ∈ after.database.authFlows
  | _ => True

/-- Of a consuming step: the flows it would consume are the cookie's own. -/
def OwnCookie (w : World) : Event → Prop
  | .turn i (.consume now) => ∀ c ∈ w.callbacks[i]?, c.phase = .consuming →
      ∀ flow ∈ w.database.authFlows, flow.pending now c.request.state →
        c.request.cookie = some flow.id.text
  | _ => True

/-- Of every step of a run. -/
def Throughout (s : Service) (holds : World → Event → Prop) (w : World) : List Event → Prop
  | [] => True
  | event :: rest => holds w event ∧ ∀ next ∈ fire s w event, Throughout s holds next rest

instance (s : Service) (w : World) (event : Event) : Decidable (Spares s w event) := by
  cases event <;> unfold Spares <;> infer_instance

instance (w : World) (event : Event) : Decidable (OwnCookie w event) := by
  unfold OwnCookie
  split <;> infer_instance

instance decidableThroughout {s : Service} {holds : World → Event → Prop}
    [decided : ∀ w event, Decidable (holds w event)] (w : World) :
    (events : List Event) → Decidable (Throughout s holds w events)
  | [] => isTrue trivial
  | event :: rest =>
      have (next : World) : Decidable (Throughout s holds next rest) :=
        decidableThroughout next rest
      @instDecidableAnd _ _ (decided w event) inferInstance

theorem throughout_congr {s : Service} {holds holds' : World → Event → Prop}
    (same : ∀ w event, holds w event ↔ holds' w event) {w : World} {events : List Event} :
    Throughout s holds w events ↔ Throughout s holds' w events := by
  induction events generalizing w with
  | nil => rfl
  | cons event rest ih => simp only [Throughout, same, ih]

/-! ## One step of a callback -/

/-- The phases a callback reaches only past the check of its cookie. -/
def Phase.Presented : Phase → Prop
  | .consuming | .answered (.failed _) => False
  | _ => True

/-- What a callback's local variables hold, phase by phase. -/
structure Callback.Sound (c : Callback) : Prop where
  unread : c.phase = .consuming → c.flow = none
  presented : c.phase.Presented → ∃ flow, c.flow = some flow ∧ c.Presents flow

section Steps

variable {s : Service} {d after : Database} {c moved : Callback} {turn : Turn} {now : Timestamp}
  {flow : AuthFlowRow}

/-- What one step can do: consume a flow, move on or fail, or insert the session. -/
inductive Turned (d : Database) (c : Callback) : Turn → Callback → Database → Prop
  | consumed {now : Timestamp} {flow : AuthFlowRow} (ready : c.phase = .consuming)
      (known : flow ∈ d.authFlows) (pending : flow.pending now c.request.state) :
      Turned d c (.consume now) (checkFlow c flow)
        { d with authFlows := d.authFlows.filter (!·.pending now c.request.state) }
  | moved {turn : Turn} {phase : Phase} {after : Database} (flows : after.authFlows = d.authFlows)
      (sessions : after.sessions = d.sessions) (unanswered : ∀ answer, c.phase ≠ .answered answer)
      (onward : (∃ code, phase = .answered (.failed code)) ∨
        c.phase.Presented ∧ phase.Presented ∧ ∀ answer, phase ≠ .answered answer) :
      Turned d c turn { c with phase } after
  | issued {turn : Turn} {userID : UUID} {session : SessionRow} {after : Database}
      (ready : c.phase = .issuing userID) (flows : after.authFlows = d.authFlows)
      (sessions : after.sessions = d.sessions ++ [session]) :
      Turned d c turn { c with phase := .answered (.signedIn session) } after

theorem insertUser_keeps {row : UserRow} (did : insertUser s row d = .ok after) :
    after.authFlows = d.authFlows ∧ after.sessions = d.sessions := by
  simp only [insertUser, require_bind_ok] at did
  obtain ⟨-, -, -, -, did⟩ := did
  obtain rfl := Except.ok.inj did
  exact ⟨rfl, rfl⟩

theorem insertIdentity_keeps {row : IdentityRow} (did : insertIdentity row d = .ok after) :
    after.authFlows = d.authFlows ∧ after.sessions = d.sessions := by
  simp only [insertIdentity, require_bind_ok] at did
  obtain ⟨-, did⟩ := did
  obtain rfl := Except.ok.inj did
  exact ⟨rfl, rfl⟩

theorem resolveOrProvision_keeps {newID userID : UUID} {claims : IDClaims}
    (did : resolveOrProvision s newID claims d = .ok (userID, after)) :
    after.authFlows = d.authFlows ∧ after.sessions = d.sessions := by
  cases known : findIdentity d providerGoogle claims.subject with
  | some identity =>
      simp only [resolveOrProvision, known] at did
      obtain ⟨-, rfl⟩ := Prod.mk.inj (Except.ok.inj did)
      exact ⟨rfl, rfl⟩
  | none =>
      simp only [resolveOrProvision, known] at did
      split at did
      next result provisioned =>
        obtain rfl := Except.ok.inj did
        obtain ⟨first, user, provisioned⟩ := bind_ok.mp provisioned
        obtain ⟨second, identity, provisioned⟩ := bind_ok.mp provisioned
        obtain ⟨-, rfl⟩ := Prod.mk.inj (Except.ok.inj provisioned)
        have flows := (insertIdentity_keeps identity).1.trans (insertUser_keeps user).1
        have sessions := (insertIdentity_keeps identity).2.trans (insertUser_keeps user).2
        exact ⟨flows, sessions⟩
      next => cases did
      next => cases did

theorem createSession_appends {token userAgent : String} {userID : UUID} {session : SessionRow}
    (did : createSession s token now userID userAgent d = .ok (session, after)) :
    after.authFlows = d.authFlows ∧ after.sessions = d.sessions ++ [session] := by
  obtain ⟨inserted, made, did⟩ := bind_ok.mp did
  obtain ⟨rfl, rfl⟩ := Prod.mk.inj (Except.ok.inj did)
  simp only [insertSession, require_bind_ok] at made
  obtain ⟨-, -, made⟩ := made
  obtain rfl := Except.ok.inj made
  exact ⟨rfl, rfl⟩

/-- A failure that leaves the database. -/
theorem Turned.failed {code : String} (unanswered : ∀ answer, c.phase ≠ .answered answer) :
    Turned d c turn (c.fail code) d :=
  .moved rfl rfl unanswered (.inl ⟨code, rfl⟩)

theorem turned_checkToken {reply : Option IDToken} (ready : c.phase = .exchanging) :
    Turned d c turn (checkToken c flow reply) d := by
  have unanswered : ∀ answer, c.phase ≠ .answered answer := by simp [ready]
  unfold checkToken
  split
  next => exact .failed unanswered
  next claims verified =>
    split
    next => exact .failed unanswered
    next =>
      have onward : c.phase.Presented ∧ (Phase.resolving claims).Presented ∧
          ∀ answer, Phase.resolving claims ≠ .answered answer := by
        simp [ready, Phase.Presented]
      exact .moved rfl rfl unanswered (.inr onward)

theorem turned_of_turn (did : c.turn s d turn = some (moved, after)) :
    Turned d c turn moved after := by
  cases turn with
  | consume now =>
      simp only [Callback.turn] at did
      split at did
      next ready =>
        split at did
        next e missing =>
          obtain ⟨rfl, rfl⟩ := Prod.mk.inj (Option.some.inj did)
          exact .failed (by simp [ready])
        next flow later found =>
          obtain ⟨rfl, rfl⟩ := Prod.mk.inj (Option.some.inj did)
          unfold consumeAuthFlow at found
          split at found
          next => cases found
          next row first =>
            obtain ⟨rfl, rfl⟩ := Prod.mk.inj (Except.ok.inj found)
            have pending : row.pending now c.request.state = true := by
              simpa using List.find?_some first
            exact .consumed ready (List.mem_of_find?_eq_some first) pending
      next => cases did
  | exchange reply =>
      simp only [Callback.turn] at did
      split at did
      next flow ready read =>
        obtain ⟨rfl, rfl⟩ := Prod.mk.inj (Option.some.inj did)
        exact turned_checkToken ready
      next => cases did
  | resolve newID =>
      simp only [Callback.turn] at did
      split at did
      next claims ready =>
        have unanswered : ∀ answer, c.phase ≠ .answered answer := by simp [ready]
        split at did
        next code refused =>
          obtain ⟨rfl, rfl⟩ := Prod.mk.inj (Option.some.inj did)
          exact .failed unanswered
        next userID later resolved =>
          obtain ⟨rfl, rfl⟩ := Prod.mk.inj (Option.some.inj did)
          obtain ⟨flows, sessions⟩ := resolveOrProvision_keeps resolved
          have onward : c.phase.Presented ∧ (Phase.issuing userID).Presented ∧
              ∀ answer, Phase.issuing userID ≠ .answered answer := by
            simp [ready, Phase.Presented]
          exact .moved flows sessions unanswered (.inr onward)
      next => cases did
  | issue token now =>
      simp only [Callback.turn] at did
      split at did
      next userID ready =>
        split at did
        next e refused =>
          obtain ⟨rfl, rfl⟩ := Prod.mk.inj (Option.some.inj did)
          exact .failed (by simp [ready])
        next session later issued =>
          obtain ⟨rfl, rfl⟩ := Prod.mk.inj (Option.some.inj did)
          obtain ⟨flows, sessions⟩ := createSession_appends issued
          exact .issued ready flows sessions
      next => cases did
  | fault =>
      simp only [Callback.turn] at did
      split at did
      all_goals try cases did
      all_goals exact .failed (by simp [*])

theorem checkFlow_flow : (checkFlow c flow).flow = some flow := by
  simp only [checkFlow]
  split
  next => rfl
  next => split <;> rfl

theorem checkFlow_session : (checkFlow c flow).session = none := by
  simp only [checkFlow]
  split
  next => rfl
  next => split <;> rfl

theorem sound_fail {code : String} : (c.fail code).Sound :=
  ⟨fun open_ => (nomatch open_), fun presented => presented.elim⟩

theorem sound_checkFlow (state : flow.state = c.request.state) : (checkFlow c flow).Sound := by
  simp only [checkFlow]
  split
  next => exact sound_fail
  next own =>
    split
    next => exact sound_fail
    next =>
      have cookie : c.request.cookie = some flow.id.text := Classical.not_not.mp own
      exact ⟨fun open_ => (nomatch open_), fun _ => ⟨flow, rfl, state.symm, cookie⟩⟩

theorem sound_handleCallback {request : Request} : (handleCallback s request).Sound := by
  simp only [handleCallback]
  split
  next => exact sound_fail
  next =>
    split
    next => exact sound_fail
    next => exact ⟨fun _ => rfl, fun presented => presented.elim⟩

theorem handleCallback_unread {request : Request} :
    (handleCallback s request).flow = none ∧ (handleCallback s request).session = none := by
  simp only [handleCallback]
  split
  next => exact ⟨rfl, rfl⟩
  next => split <;> exact ⟨rfl, rfl⟩

theorem AuthFlowRow.pending_iff {state : String} :
    flow.pending now state ↔ flow.state = state ∧ now < flow.expiresAt := by
  simp [AuthFlowRow.pending]

theorem Callback.Sound.turned (sound : c.Sound) (turned : Turned d c turn moved after) :
    moved.Sound := by
  cases turned with
  | consumed ready known pending => exact sound_checkFlow (AuthFlowRow.pending_iff.mp pending).1
  | moved flows sessions unanswered onward =>
      rcases onward with ⟨code, rfl⟩ | ⟨before, later, -⟩
      · exact sound_fail
      · refine ⟨?_, fun _ => sound.presented before⟩
        rintro rfl
        exact later.elim
  | issued ready flows sessions =>
      have presented : c.phase.Presented := by simp [ready, Phase.Presented]
      exact ⟨fun open_ => (nomatch open_), fun _ => sound.presented presented⟩

end Steps

/-! ## Runs -/

/-- No two pending flows have one state, as the table's key on it demands. -/
def StatesApart (d : Database) : Prop := (d.authFlows.map AuthFlowRow.state).Nodup

/-- What every step keeps: flows are pending or in one callback's hands, and sessions are those
answered. -/
structure Kept (start : Database) (w : World) : Prop where
  apart : StatesApart w.database
  sound : ∀ c ∈ w.callbacks, c.Sound
  conserved : w.started.Perm (w.database.authFlows ++ w.callbacks.filterMap Callback.flow)
  sessions : w.database.sessions.Perm (start.sessions ++ w.callbacks.filterMap Callback.session)

section Runs

variable {s : Service} {start : Database} {w next : World} {event : Event} {events : List Event}

/-- Replacing one item replaces its share of what the items yield. -/
theorem perm_filterMap_set {α β : Type} {items : List α} {i : Nat} {item : α}
    (found : items[i]? = some item) (f : α → Option β) : ∃ rest,
      (items.filterMap f).Perm ((f item).toList ++ rest) ∧
      ∀ other, ((items.set i other).filterMap f).Perm ((f other).toList ++ rest) := by
  obtain ⟨inside, rfl⟩ := List.getElem?_eq_some_iff.mp found
  have yields (other : α) : ((items.take i ++ other :: items.drop (i + 1)).filterMap f).Perm
      ((f other).toList ++ (items.take i ++ items.drop (i + 1)).filterMap f) := by
    have front : (items.take i ++ other :: items.drop (i + 1)).Perm
        (other :: (items.take i ++ items.drop (i + 1))) := List.perm_middle
    refine (front.filterMap f).trans (List.Perm.of_eq ?_)
    cases made : f other <;> simp [made]
  have here := yields items[i]
  rw [List.getElem_cons_drop, List.take_append_drop] at here
  refine ⟨_, here, fun other => ?_⟩
  rw [List.set_eq_take_append_cons_drop, if_pos inside]
  exact yields other

/-- The one row a consuming step takes out of the table. -/
theorem perm_consumed {flows : List AuthFlowRow} {flow : AuthFlowRow} {now : Timestamp}
    {state : String} (apart : (flows.map AuthFlowRow.state).Nodup) (known : flow ∈ flows)
    (pending : flow.pending now state) :
    flows.Perm (flow :: flows.filter (!·.pending now state)) := by
  induction flows with
  | nil => cases known
  | cons first rest ih =>
      obtain ⟨new, apart⟩ := List.nodup_cons.mp apart
      have named := (AuthFlowRow.pending_iff.mp pending).1
      rcases List.mem_cons.mp known with rfl | later
      · have untouched : rest.filter (!·.pending now state) = rest := by
          rw [List.filter_eq_self]
          intro other member
          have different : ¬ other.pending now state := by
            intro both
            apply new
            rw [named, ← (AuthFlowRow.pending_iff.mp both).1]
            exact List.mem_map_of_mem member
          simpa using different
        rw [List.filter_cons_of_neg (by simpa using pending), untouched]
      · have different : ¬ first.pending now state := by
          intro both
          apply new
          rw [(AuthFlowRow.pending_iff.mp both).1, ← named]
          exact List.mem_map_of_mem later
        rw [List.filter_cons_of_pos (by simpa using different)]
        exact ((ih apart later).cons first).trans (.swap flow first _)

theorem kept_turn {i : Nat} {turn : Turn} (kept : Kept start w)
    (fired : fire s w (.turn i turn) = some next) : Kept start next := by
  simp only [fire, Option.bind_eq_bind, Option.bind_eq_some_iff, Prod.exists] at fired
  obtain ⟨c, found, moved, after, did, same⟩ := fired
  obtain rfl := Option.some.inj same
  have sound : c.Sound := kept.sound c (List.mem_of_getElem? found)
  have turned := turned_of_turn did
  have others : ∀ other ∈ w.callbacks.set i moved, other.Sound := by
    intro other member
    rcases List.mem_or_eq_of_mem_set member with old | rfl
    · exact kept.sound other old
    · exact sound.turned turned
  obtain ⟨flowsAside, flowsBefore, flowsAfter⟩ := perm_filterMap_set found Callback.flow
  obtain ⟨aside, before, later⟩ := perm_filterMap_set found Callback.session
  -- Where the table of flows stays as it is, so does the callback's variable.
  have unspent (flows : after.authFlows = w.database.authFlows) (flow : moved.flow = c.flow) :
      StatesApart after ∧
        w.started.Perm (after.authFlows ++ (w.callbacks.set i moved).filterMap Callback.flow) := by
    rw [StatesApart, flows]
    refine ⟨kept.apart, kept.conserved.trans (List.Perm.append_left _ ?_)⟩
    rw [← flow] at flowsBefore
    exact flowsBefore.trans (flowsAfter moved).symm
  have unissued (sessions : after.sessions = w.database.sessions) (none_ : c.session = none)
      (still : moved.session = none) : after.sessions.Perm
        (start.sessions ++ (w.callbacks.set i moved).filterMap Callback.session) := by
    rw [sessions]
    refine kept.sessions.trans (List.Perm.append_left _ ?_)
    rw [none_, ← still] at before
    exact before.trans (later moved).symm
  cases turned with
  | @consumed now flow ready known pending =>
      have spent := perm_consumed kept.apart known pending
      have still : c.session = none := by rw [Callback.session, ready]
      refine ⟨?_, others, ?_, unissued rfl still checkFlow_session⟩
      · exact List.Nodup.sublist (List.Sublist.map _ List.filter_sublist) kept.apart
      · rw [sound.unread ready] at flowsBefore
        have moved := flowsAfter (checkFlow c flow)
        rw [checkFlow_flow] at moved
        calc w.started
          _ |>.Perm (w.database.authFlows ++ w.callbacks.filterMap Callback.flow) := kept.conserved
          _ |>.Perm ((flow :: w.database.authFlows.filter (!·.pending now c.request.state)) ++
              flowsAside) := spent.append flowsBefore
          _ |>.Perm _ := List.perm_middle.symm.trans (List.Perm.append_left _ moved.symm)
  | moved flows sessions unanswered onward =>
      obtain ⟨apart, conserved⟩ := unspent flows rfl
      refine ⟨apart, others, conserved, unissued sessions ?_ ?_⟩
      · rw [Callback.session]
        split
        next session answered => exact absurd answered (unanswered _)
        next => rfl
      · rcases onward with ⟨code, rfl⟩ | ⟨-, -, unanswered⟩
        · rfl
        · rw [Callback.session]
          split
          next session answered => exact absurd answered (unanswered _)
          next => rfl
  | @issued _ userID session after ready flows sessions =>
      obtain ⟨apart, conserved⟩ := unspent flows rfl
      refine ⟨apart, others, conserved, ?_⟩
      have none_ : c.session = none := by rw [Callback.session, ready]
      rw [none_] at before
      have answered := later { c with phase := .answered (.signedIn session) }
      calc after.sessions
        _ = w.database.sessions ++ [session] := sessions
        _ |>.Perm ((start.sessions ++ aside) ++ [session]) :=
            (kept.sessions.trans (List.Perm.append_left _ before)).append_right _
        _ |>.Perm (start.sessions ++ (session :: aside)) := by
            rw [List.append_assoc]
            exact List.Perm.append_left _ List.perm_append_comm
        _ |>.Perm _ := List.Perm.append_left _ answered.symm

theorem kept_start {draws : StartDraws} (kept : Kept start w)
    (fired : fire s w (.start draws) = some next) : Kept start next := by
  simp only [fire] at fired
  split at fired
  next =>
    obtain rfl := Option.some.inj fired
    exact kept
  next row after did =>
    obtain rfl := Option.some.inj fired
    simp only [handleStart] at did
    split at did
    next => cases did
    next =>
      split at did
      next => cases did
      next inserted stored =>
        obtain ⟨rfl, rfl⟩ := Prod.mk.inj (Except.ok.inj did)
        simp only [insertAuthFlow, require_bind_ok] at stored
        obtain ⟨-, unused, stored⟩ := stored
        obtain rfl := Except.ok.inj stored
        simp only [List.all_eq_true, decide_eq_true_eq] at unused
        refine ⟨?_, kept.sound, ?_, kept.sessions⟩
        · rw [StatesApart, List.map_append, List.nodup_append]
          refine ⟨kept.apart, List.nodup_singleton _, ?_⟩
          intro state known other new same
          obtain ⟨flow, stored, rfl⟩ := List.mem_map.mp known
          rw [List.mem_singleton.mp new] at same
          exact unused flow stored same
        · rw [List.append_assoc]
          refine (kept.conserved.append_right _).trans ?_
          rw [List.append_assoc]
          exact List.Perm.append_left _ List.perm_append_comm

theorem kept_run (kept : Kept start w) (ran : fireAll s w events = some next) :
    Kept start next := by
  induction events generalizing w with
  | nil =>
      obtain rfl := Option.some.inj ran
      exact kept
  | cons event rest ih =>
      obtain ⟨mid, fired, later⟩ := Option.bind_eq_some_iff.mp ran
      refine ih ?_ later
      cases event with
      | start draws => exact kept_start kept fired
      | callback request =>
          obtain rfl := Option.some.inj fired
          obtain ⟨unread, unanswered⟩ := @handleCallback_unread s request
          refine ⟨kept.apart, fun c member => ?_, ?_, ?_⟩
          · rcases List.mem_append.mp member with old | new
            · exact kept.sound c old
            · rw [List.mem_singleton.mp new]
              exact sound_handleCallback
          · simpa [List.filterMap_append, unread] using kept.conserved
          · simpa [List.filterMap_append, unanswered] using kept.sessions
      | turn i turn => exact kept_turn kept fired

theorem kept_idle (apart : StatesApart start) : Kept start (.idle start) := by
  refine ⟨apart, fun c member => absurd member List.not_mem_nil, ?_, ?_⟩
  · exact List.Perm.of_eq (List.append_nil _).symm
  · exact List.Perm.of_eq (List.append_nil _).symm

theorem Kept.bound (kept : Kept start w) : Bound start w := by
  refine ⟨?_, kept.sessions, fun c member answered => ?_⟩
  · have led : w.callbacks.filterMap Callback.signedInBy =
        (w.callbacks.filter fun c => c.session.isSome).filterMap Callback.flow := by
      rw [List.filterMap_filter]
      rfl
    have some_ : (w.callbacks.filterMap Callback.signedInBy).Sublist
        (w.callbacks.filterMap Callback.flow) := by
      rw [led]
      exact List.filter_sublist.filterMap _
    have all := some_.trans (List.sublist_append_right w.database.authFlows _)
    exact all.subperm.trans kept.conserved.symm.subperm
  · apply (kept.sound c member).presented
    rw [Callback.session] at answered
    split at answered
    next session same =>
      rw [same]
      trivial
    next => cases answered

/-! ## What a step leaves pending -/

theorem turn_consume {d : Database} {c : Callback} {now : Timestamp} {flow : AuthFlowRow}
    (ready : c.phase = .consuming) (known : flow ∈ d.authFlows)
    (pending : flow.pending now c.request.state) : ∃ first, c.turn s d (.consume now) =
      some (checkFlow c first,
        { d with authFlows := d.authFlows.filter (!·.pending now c.request.state) }) := by
  cases read : d.authFlows.find? (·.pending now c.request.state) with
  | none => exact absurd pending (List.find?_eq_none.mp read flow known)
  | some first => exact ⟨first, by simp only [Callback.turn, ready, consumeAuthFlow, read]⟩

/-- A callback's step spares the flows of others exactly when it would consume none of them. -/
theorem spares_iff : Spares s w event ↔ OwnCookie w event := by
  constructor
  · intro spares
    cases event with
    | turn i turn =>
        cases turn with
        | consume now =>
            intro c found ready flow known pending
            obtain ⟨first, did⟩ := @turn_consume s _ _ _ _ ready known pending
            by_contra other
            have fired : fire s w (.turn i (.consume now)) = some { w with
                database := { w.database with
                  authFlows := w.database.authFlows.filter (!·.pending now c.request.state) }
                callbacks := w.callbacks.set i (checkFlow c first) } := by
              simp only [fire, Option.mem_def.mp found, Option.bind_eq_bind, Option.bind_some, did]
              rfl
            have still := (List.mem_filter.mp (spares c found _ fired flow known other)).2
            simp [pending] at still
        | _ => trivial
    | _ => trivial
  · intro own
    cases event with
    | turn i turn =>
        intro c found after fired flow known other
        simp only [fire, Option.mem_def, Option.bind_eq_bind, Option.bind_eq_some_iff, Prod.exists] at fired
        obtain ⟨_, same, moved, later, did, result⟩ := fired
        obtain rfl := Option.some.inj result
        obtain rfl := Option.some.inj (found.symm.trans same)
        cases turned_of_turn did with
        | consumed ready read pending =>
            apply List.mem_filter.mpr
            refine ⟨known, ?_⟩
            have spared : ¬ flow.pending _ c.request.state := fun pending =>
              other (own c found ready flow known pending)
            simpa using spared
        | moved flows sessions unanswered onward => exact flows ▸ known
        | issued ready flows sessions => exact flows ▸ known
    | _ => trivial

/-- Sign-ins run in any order: each flow leads to at most one session, issued to a callback that
presented both its state and its cookie; and each step spares the flows whose cookie its callback
does not hold exactly when every consuming step meets flows of its own cookie alone. -/
theorem flows_of_one_browser_iff (apart : StatesApart start)
    (ran : fireAll s (.idle start) events = some w) :
    (Bound start w ∧ Throughout s (Spares s) (.idle start) events) ↔
      Throughout s OwnCookie (.idle start) events := by
  rw [throughout_congr fun w event => @spares_iff s w event]
  have bound : Bound start w := (kept_run (kept_idle apart) ran).bound
  exact ⟨And.right, fun own => ⟨bound, own⟩⟩

end Runs

/-! ## Two browsers -/

def sampleService : Service where
  configured := true
  sessionLifetime := 1000
  authFlowLifetime := 10
  toLower := id
  lower := id
  hashToken := id

def sampleTables : Database := ⟨[], [], [], []⟩

def sampleStart : StartDraws := ⟨1, "state", "nonce", "verifier", 0⟩

/-- The callback of the browser that started the flow. -/
def ownRequest : Request := ⟨"state", some (UUID.text 1), "code", ""⟩

def sampleReply : IDToken := ⟨"nonce", ⟨"subject", "a@b.c", true, "", "en"⟩⟩

/-- A sign-in on its own. -/
def signInEvents : List Event := [.start sampleStart, .callback ownRequest, .turn 0 (.consume 1),
  .turn 0 (.exchange sampleReply), .turn 0 (.resolve 2), .turn 0 (.issue "token" 1)]

theorem flows_of_one_browser_signed_in : ∃ w,
    fireAll sampleService (.idle sampleTables) signInEvents = some w ∧
      w.database.sessions.length = 1 ∧ Bound sampleTables w ∧
      Throughout sampleService (Spares sampleService) (.idle sampleTables) signInEvents := by
  have evaluated : (fireAll sampleService (.idle sampleTables) signInEvents).map
      (·.database.sessions.length) = some 1 := by decide +kernel
  obtain ⟨w, ran, issued⟩ := Option.map_eq_some_iff.mp evaluated
  have apart : StatesApart sampleTables := List.nodup_nil
  have own : Throughout sampleService OwnCookie (.idle sampleTables) signInEvents := by
    decide +kernel
  exact ⟨w, ran, issued, (flows_of_one_browser_iff apart ran).mpr own⟩

/-- Another browser that knows the state and sends any cookie of the name: the flow is gone, and
the browser that started it is refused. -/
def burningEvents : List Event := [.start sampleStart, .callback ⟨"state", some "other", "code", ""⟩,
  .turn 0 (.consume 1), .callback ownRequest, .turn 1 (.consume 2)]

theorem other_browser_burns_flow :
    ((fireAll sampleService (.idle sampleTables) burningEvents).map fun w =>
      (w.database.authFlows, w.callbacks.map Callback.phase)) =
        some ([], [.answered (.failed Code.invalidFlow), .answered (.failed Code.invalidFlow)]) ∧
    ¬ ∀ s start events w, StatesApart start → fireAll s (.idle start) events = some w →
      Bound start w ∧ Throughout s (Spares s) (.idle start) events := by
  have evaluated : ((fireAll sampleService (.idle sampleTables) burningEvents).map fun w =>
      (w.database.authFlows, w.callbacks.map Callback.phase)) =
        some ([], [.answered (.failed Code.invalidFlow), .answered (.failed Code.invalidFlow)]) := by
    decide +kernel
  refine ⟨evaluated, fun spared => ?_⟩
  obtain ⟨w, ran, -⟩ := Option.map_eq_some_iff.mp evaluated
  have burnt : ¬ Throughout sampleService (Spares sampleService) (.idle sampleTables)
      burningEvents := by decide +kernel
  have apart : StatesApart sampleTables := List.nodup_nil
  exact burnt (spared _ _ _ _ apart ran).2

end Vekst.Identity
