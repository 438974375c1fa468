import ActorTs.Persistence.Projection
import Mathlib.Data.List.DropRight

/-!
# What a projection steps over

Everything the cursor has passed was handled or skipped, as long as no event comes to lie at
or before a position that the projection has reached, and no query misses an event before one
that it answers. The order of the cursors needs neither: the saved one only goes forward.
-/

open List Option Bool

namespace ActorTs.Persistence

open Machine ProjectionInstance

variable {W P Q : Type} [LinearOrder P]

/-- A position of the journal, or the one before all of them. -/
def Reached (kind : ProjectionKind W P Q) (log : List (PersistentEvent W)) (position : P) : Prop :=
  position = kind.start ∨ ∃ e ∈ log, kind.concerns e = true ∧ kind.position e = position

/-- Envelopes of events of the journal, in order and behind the cursor. -/
structure Ahead (kind : ProjectionKind W P Q) (log : List (PersistentEvent W)) (cursor : P)
    (envelopes : List (ProjectionEnvelope W P)) : Prop where
  sorted : envelopes.Pairwise fun a b => a.offset < b.offset
  mem : ∀ envelope ∈ envelopes, envelope.event ∈ log ∧ kind.concerns envelope.event = true ∧
    kind.position envelope.event = envelope.offset
  ahead : ∀ envelope ∈ envelopes, cursor < envelope.offset

/-- What a query answers: events of the journal in order, behind the cursor or at it. -/
structure Answered (kind : ProjectionKind W P Q) (log : List (PersistentEvent W)) (cursor : P)
    (envelopes : List (ProjectionEnvelope W P)) : Prop where
  sorted : envelopes.Pairwise fun a b => a.offset < b.offset
  mem : ∀ envelope ∈ envelopes, envelope.event ∈ log ∧ kind.concerns envelope.event = true ∧
    kind.position envelope.event = envelope.offset
  ahead : ∀ envelope ∈ envelopes, kind.isCursor envelope.offset cursor = false →
    cursor < envelope.offset

lemma Answered.ahead_dropWhile {kind : ProjectionKind W P Q} {log : List (PersistentEvent W)}
    {cursor : P} {envelopes : List (ProjectionEnvelope W P)}
    (h : Answered kind log cursor envelopes) :
    ∀ envelope ∈ envelopes.dropWhile (fun envelope => kind.isCursor envelope.offset cursor),
      cursor < envelope.offset := by
  have hsorted := h.sorted.sublist
    (dropWhile_sublist fun envelope => kind.isCursor envelope.offset cursor)
  have hhead := head?_dropWhile_not (fun envelope => kind.isCursor envelope.offset cursor) envelopes
  have hmem := (dropWhile_sublist (l := envelopes)
    fun envelope => kind.isCursor envelope.offset cursor).subset
  cases hfresh : envelopes.dropWhile fun envelope => kind.isCursor envelope.offset cursor with
  | nil => nofun
  | cons first others =>
    rw [hfresh] at hsorted hhead hmem
    have hfirst : cursor < first.offset := h.ahead first (hmem mem_cons_self) hhead
    refine forall_mem_cons.2 ⟨hfirst, fun envelope henvelope => hfirst.trans ?_⟩
    exact (pairwise_cons.1 hsorted).1 envelope henvelope

/-- The laws of a class of projections, `Asked` being what holds of a query under way. -/
structure ProjectionKind.Lawful (kind : ProjectionKind W P Q)
    (Asked : List (PersistentEvent W) → P → Q → Prop) : Prop where
  query : ∀ log cursor, Asked log cursor (kind.query cursor)
  read : ∀ log cursor query, Kept log → Asked log cursor query →
    Asked log cursor (kind.read log query)
  append : ∀ log cursor query ev, Appendable log ev → Asked log cursor query →
    Asked (log ++ [ev]) cursor query
  answered : ∀ log cursor query envelopes, Kept log → Asked log cursor query →
    kind.envelopes query = some envelopes → Answered kind log cursor envelopes
  isCursor : ∀ position cursor, kind.isCursor position cursor = true → position = cursor

/-- The envelopes that a tick has still to hand to the handler. -/
def TickPhase.pending : TickPhase W P Q → List (ProjectionEnvelope W P)
  | .idle => []
  | .querying _ => []
  | .callingOne envelope walk rest => envelope :: (walk ++ rest)
  | .callingGroup first others rest => (first :: others) ++ rest
  | .savingOne _ walk rest => walk ++ rest
  | .savingGroup _ rest => rest

variable {kind : ProjectionKind W P Q} {log : List (PersistentEvent W)} {cursor offset : P}
  {envelopes others walk rest : List (ProjectionEnvelope W P)}
  {envelope first : ProjectionEnvelope W P} {e ev : PersistentEvent W}

omit [LinearOrder P] in
lemma Reached.append {position : P} (h : Reached kind log position) :
    Reached kind (log ++ [ev]) position :=
  h.imp_right fun ⟨e, he, hposition⟩ => ⟨e, mem_append_left _ he, hposition⟩

namespace Ahead

lemma nil : Ahead kind log cursor [] := ⟨.nil, nofun, nofun⟩

lemma append (h : Ahead kind log cursor envelopes) :
    Ahead kind (log ++ [ev]) cursor envelopes :=
  ⟨h.sorted, fun env henv => ⟨mem_append_left _ (h.mem env henv).1, (h.mem env henv).2⟩, h.ahead⟩

lemma reached (h : Ahead kind log cursor envelopes) (hmem : envelope ∈ envelopes) :
    Reached kind log envelope.offset :=
  .inr ⟨envelope.event, h.mem envelope hmem⟩

lemma behind (h : Ahead kind log cursor (envelopes ++ rest)) (hlast : envelope ∈ envelopes) :
    Ahead kind log envelope.offset rest where
  sorted := (pairwise_append.1 h.sorted).2.1
  mem env henv := h.mem env (mem_append_right _ henv)
  ahead env henv := (pairwise_append.1 h.sorted).2.2 envelope hlast env henv

end Ahead

/-- Everything of the journal was handled or skipped, is pending, or lies behind all that is
pending. -/
def Covered (kind : ProjectionKind W P Q) (log : List (PersistentEvent W)) (cursor : P)
    (Done : PersistentEvent W → Prop) (envelopes : List (ProjectionEnvelope W P)) : Prop :=
  ∀ e ∈ log, kind.concerns e = true → Done e ∨ ⟨e, kind.position e⟩ ∈ envelopes ∨
    cursor < kind.position e ∧ ∀ envelope ∈ envelopes, envelope.offset < kind.position e

namespace Covered

variable {Done Done' : PersistentEvent W → Prop}

lemma mono (h : Covered kind log cursor Done envelopes) (hdone : ∀ e, Done e → Done' e) :
    Covered kind log cursor Done' envelopes :=
  fun e he hconcerns => (h e he hconcerns).imp_left (hdone e)

lemma done (h : Covered kind log cursor Done envelopes)
    (hahead : Ahead kind log cursor envelopes) (he : e ∈ log) (hconcerns : kind.concerns e = true)
    (hle : kind.position e ≤ cursor) : Done e := by
  rcases h e he hconcerns with hdone | hpending | ⟨hbehind, -⟩
  · exact hdone
  · exact absurd (hahead.ahead _ hpending) (not_lt.2 hle)
  · exact absurd hbehind (not_lt.2 hle)

lemma drop (h : Covered kind log cursor Done envelopes)
    (hahead : Ahead kind log cursor envelopes) : Covered kind log cursor Done [] := by
  intro e he hconcerns
  by_cases hle : kind.position e ≤ cursor
  · exact .inl (h.done hahead he hconcerns hle)
  · exact .inr (.inr ⟨not_le.1 hle, nofun⟩)

lemma commit (hlast : envelope ∈ envelopes) (h : Covered kind log cursor Done (envelopes ++ rest))
    (hdone : ∀ e, Done e ∨ e ∈ envelopes.map ProjectionEnvelope.event → Done' e) :
    Covered kind log envelope.offset Done' rest := by
  intro e he hconcerns
  rcases h e he hconcerns with hbefore | hpending | ⟨-, hbehind⟩
  · exact .inl (hdone e (.inl hbefore))
  · rcases mem_append.1 hpending with hcall | hrest
    · exact .inl (hdone e (.inr (mem_map.2 ⟨_, hcall, rfl⟩)))
    · exact .inr (.inl hrest)
  · refine .inr (.inr ⟨hbehind envelope (mem_append_left _ hlast), fun env henv => ?_⟩)
    exact hbehind env (mem_append_right _ henv)

lemma of_nil (h : Covered kind log cursor (fun e => Done e ∨ e ∈ []) envelopes) :
    Covered kind log cursor Done envelopes :=
  h.mono fun _ hdone => hdone.resolve_right not_mem_nil

lemma append (h : Covered kind log cursor Done envelopes)
    (hev : kind.concerns ev = true → cursor < kind.position ev ∧
      ∀ envelope ∈ envelopes, envelope.offset < kind.position ev) :
    Covered kind (log ++ [ev]) cursor Done envelopes := by
  intro e he hconcerns
  rcases mem_append.1 he with he | he
  · exact h e he hconcerns
  · obtain rfl := mem_singleton.1 he
    exact .inr (.inr (hev hconcerns))

end Covered

/-! ## One instance -/

namespace ProjectionInstance

variable {options : ProjectionOptions} {inst : ProjectionInstance W P Q}
  {Asked : List (PersistentEvent W) → P → Q → Prop} {Done Done' : PersistentEvent W → Prop}

/-- What is pending lies behind the cursor in order, a query asks from it, and what is being
saved is the cursor. -/
structure Ordered (kind : ProjectionKind W P Q)
    (Asked : List (PersistentEvent W) → P → Q → Prop) (log : List (PersistentEvent W))
    (inst : ProjectionInstance W P Q) : Prop where
  reached : Reached kind log inst.cursor
  pending : Ahead kind log inst.cursor inst.phase.pending
  asked : ∀ query, inst.phase = .querying query → Asked log inst.cursor query
  saving : ∀ offset ∈ inst.saving?, offset = inst.cursor

/-- What the cursor has passed is done, and what it has not is pending or behind. -/
def Accounted (kind : ProjectionKind W P Q) (log : List (PersistentEvent W))
    (Done : PersistentEvent W → Prop) (inst : ProjectionInstance W P Q) : Prop :=
  Covered kind log inst.cursor Done inst.phase.pending

omit [LinearOrder P] in
@[simp] lemma endTick_cursor (inst : ProjectionInstance W P Q) :
    inst.endTick.cursor = inst.cursor := by
  rw [endTick, onTickSucceeded]
  split_ifs <;> rfl

omit [LinearOrder P] in
@[simp] lemma endTick_phase (inst : ProjectionInstance W P Q) :
    inst.endTick.phase = .idle := by
  rw [endTick, onTickSucceeded]
  split_ifs <;> rfl

/-- An instance that is about to call the handler, or idle, with these envelopes pending. -/
structure Delivers (inst next : ProjectionInstance W P Q)
    (envelopes : List (ProjectionEnvelope W P)) : Prop where
  cursor : next.cursor = inst.cursor
  pending : next.phase.pending = envelopes
  querying : ∀ query, next.phase ≠ .querying query
  saving : next.saving? = none

variable {next : ProjectionInstance W P Q} {called : List (PersistentEvent W)}

omit [LinearOrder P] in
lemma delivers_endTick (hcursor : next.cursor = inst.cursor) : Delivers inst next.endTick [] := by
  refine ⟨(endTick_cursor next).trans hcursor, ?_, fun query => ?_, ?_⟩
  · rw [endTick_phase]
    rfl
  · rw [endTick_phase]
    nofun
  · rw [saving?, endTick_phase]

lemma delivers_proceed (hcursor : next.cursor = inst.cursor) (hlawful : kind.Lawful Asked)
    (hahead : Ahead kind log inst.cursor (walk ++ rest)) :
    Delivers inst (next.proceed kind options walk rest) (walk ++ rest) := by
  rw [proceed.eq_def]
  split
  · exact ⟨hcursor, rfl, nofun, rfl⟩
  · split
    · have hskipped : rest.dropWhile (fun envelope => kind.isCursor envelope.offset next.cursor) =
          rest := by
        cases rest with
        | nil => rfl
        | cons envelope rest =>
          refine dropWhile_cons_of_neg fun hat => ?_
          have hlt := hahead.ahead envelope mem_cons_self
          exact hlt.ne' ((hlawful.isCursor _ _ hat).trans hcursor)
      rw [hskipped]
      split
      · exact delivers_endTick hcursor
      · exact ⟨hcursor, rfl, nofun, rfl⟩
    · next n _ =>
      split
      · exact delivers_endTick hcursor
      · next envelope rest =>
        split
        · exact ⟨hcursor, rfl, nofun, rfl⟩
        · split
          · exact ⟨hcursor, rfl, nofun, rfl⟩
          · next other others hothers =>
            refine ⟨hcursor, ?_, nofun, rfl⟩
            rw [TickPhase.pending, ← hothers, cons_append, take_append_drop]
            rfl

lemma Delivers.ordered (h : Delivers inst next envelopes)
    (hreached : Reached kind log inst.cursor) (hahead : Ahead kind log inst.cursor envelopes) :
    next.Ordered kind Asked log where
  reached := h.cursor ▸ hreached
  pending := by
    rw [h.cursor, h.pending]
    exact hahead
  asked query hquery := absurd hquery (h.querying query)
  saving := by
    rw [h.saving]
    nofun

lemma Delivers.accounted (h : Delivers inst next envelopes)
    (hcovered : Covered kind log inst.cursor Done envelopes) : next.Accounted kind log Done := by
  rw [Accounted, h.cursor, h.pending]
  exact hcovered

/-- What an event does to an instance that has its envelopes: nothing, or the tick ends or goes
on with what is pending, or the cursor passes the envelopes of a call. -/
inductive Moves (inst : ProjectionInstance W P Q) :
    ProjectionInstance W P Q → List (PersistentEvent W) → Prop
  | same : Moves inst inst []
  | ends {next : ProjectionInstance W P Q} (h : Delivers inst next []) : Moves inst next []
  | goesOn {next : ProjectionInstance W P Q} (h : Delivers inst next inst.phase.pending) :
    Moves inst next []
  | commits {next : ProjectionInstance W P Q} {envelopes rest : List (ProjectionEnvelope W P)}
    {envelope : ProjectionEnvelope W P} (hpending : inst.phase.pending = envelopes ++ rest)
    (hlast : envelope ∈ envelopes) (hcursor : next.cursor = envelope.offset)
    (hrest : next.phase.pending = rest) (hquerying : ∀ query, next.phase ≠ .querying query)
    (hsaving : next.saving? = some envelope.offset) :
    Moves inst next (envelopes.map ProjectionEnvelope.event)

namespace Moves

section

variable (hmoves : Moves inst next called)
include hmoves

lemma ordered (h : inst.Ordered kind Asked log) : next.Ordered kind Asked log := by
  cases hmoves with
  | same => exact h
  | ends hends => exact hends.ordered h.reached .nil
  | goesOn hgoes => exact hgoes.ordered h.reached h.pending
  | commits hpending hlast hcursor hrest hquerying hsaving =>
    have hahead := h.pending
    rw [hpending] at hahead
    refine ⟨hcursor ▸ hahead.reached (mem_append_left _ hlast), ?_,
      fun query hquery => absurd hquery (hquerying query), ?_⟩
    · rw [hcursor, hrest]
      exact hahead.behind hlast
    · rw [hsaving, hcursor]
      rintro _ ⟨⟩
      rfl

lemma accounted (hordered : inst.Ordered kind Asked log) (h : inst.Accounted kind log Done) :
    next.Accounted kind log fun e => Done e ∨ e ∈ called := by
  cases hmoves with
  | same => exact h.mono fun _ => .inl
  | ends hends => exact hends.accounted ((h.drop hordered.pending).mono fun _ => .inl)
  | goesOn hgoes => exact hgoes.accounted (h.mono fun _ => .inl)
  | commits hpending hlast hcursor hrest =>
    rw [Accounted, hpending] at h
    rw [Accounted, hcursor, hrest]
    exact h.commit hlast fun _ => id

lemma cursor_le (h : inst.Ordered kind Asked log) : inst.cursor ≤ next.cursor := by
  cases hmoves with
  | same => exact le_rfl
  | ends hends => exact hends.cursor.ge
  | goesOn hgoes => exact hgoes.cursor.ge
  | commits hpending hlast hcursor =>
    rw [hcursor]
    exact (h.pending.ahead _ (hpending ▸ mem_append_left _ hlast)).le

lemma keeps (h : inst.Ordered kind Asked log) :
    next.Ordered kind Asked log ∧ inst.cursor ≤ next.cursor :=
  ⟨hmoves.ordered h, hmoves.cursor_le h⟩

end

end Moves

omit [LinearOrder P] in
lemma exists_lastOffset (first : ProjectionEnvelope W P)
    (others : List (ProjectionEnvelope W P)) :
    ∃ envelope ∈ first :: others, lastOffset first others = envelope.offset := by
  rw [lastOffset]
  cases hlast : others.getLast? with
  | none => exact ⟨first, mem_cons_self, rfl⟩
  | some envelope =>
    exact ⟨envelope, mem_cons_of_mem _ (mem_of_getLast? hlast), rfl⟩

omit [LinearOrder P] in
lemma moves_onQueryFailed : Moves inst inst.onQueryFailed [] := by
  rw [onQueryFailed]
  split
  · exact .ends (delivers_endTick rfl)
  · exact .same

omit [LinearOrder P] in
lemma moves_onUnsaved : Moves inst inst.onUnsaved [] := by
  rw [onUnsaved]
  split
  · exact .ends (delivers_endTick rfl)
  · exact .ends (delivers_endTick rfl)
  · exact .same

omit [LinearOrder P] in
lemma moves_onHandled : Moves inst inst.onHandled.1 inst.onHandled.2 := by
  rw [onHandled]
  split
  · next envelope walk rest hphase =>
    have hpending : inst.phase.pending = [envelope] ++ (walk ++ rest) := by
      rw [hphase]
      rfl
    exact .commits hpending (mem_singleton_self envelope) rfl rfl nofun rfl
  · next first others rest hphase =>
    obtain ⟨envelope, hlast, hoffset⟩ := exists_lastOffset first others
    refine .commits (by rw [hphase]; rfl) hlast hoffset rfl nofun ?_
    rw [← hoffset]
    rfl
  · exact .same

lemma moves_onFailed (hlawful : kind.Lawful Asked) (h : inst.Ordered kind Asked log) :
    Moves inst (inst.onFailed kind options).1 (inst.onFailed kind options).2 := by
  have hahead := h.pending
  rw [onFailed]
  split
  · next envelope walk rest hphase =>
    split <;> dsimp only
    · exact .ends (delivers_endTick rfl)
    · exact .ends (delivers_endTick rfl)
    · have hpending : inst.phase.pending = [envelope] ++ (walk ++ rest) := by
        rw [hphase]
        rfl
      exact .commits hpending (mem_singleton_self envelope) rfl rfl nofun rfl
  · next first others rest hphase =>
    split <;> dsimp only
    · exact .ends (delivers_endTick rfl)
    · exact .ends (delivers_endTick rfl)
    · rw [hphase] at hahead
      refine .goesOn ?_
      rw [hphase]
      exact delivers_proceed rfl hlawful hahead
  · exact .same

lemma moves_onSaved (hlawful : kind.Lawful Asked) (h : inst.Ordered kind Asked log) :
    Moves inst (inst.onSaved kind options) [] := by
  have hahead := h.pending
  rw [onSaved]
  split
  · next offset walk rest hphase =>
    rw [hphase] at hahead
    dsimp only
    split
    · exact .ends (delivers_endTick rfl)
    · refine .goesOn ?_
      rw [hphase]
      exact delivers_proceed rfl hlawful hahead
  · next offset rest hphase =>
    rw [hphase] at hahead
    split
    · exact .ends (delivers_endTick rfl)
    · refine .goesOn ?_
      rw [hphase]
      exact delivers_proceed rfl hlawful hahead
  · exact .same

lemma Ordered.onTick (hlawful : kind.Lawful Asked) (h : inst.Ordered kind Asked log) :
    (inst.onTick kind).Ordered kind Asked log ∧ inst.cursor ≤ (inst.onTick kind).cursor := by
  rw [ProjectionInstance.onTick]
  split
  · split_ifs
    · exact ⟨h, le_rfl⟩
    · refine ⟨⟨h.reached, .nil, ?_, nofun⟩, le_rfl⟩
      rintro _ ⟨⟩
      exact hlawful.query log inst.cursor
  · exact ⟨h, le_rfl⟩

lemma Accounted.onTick (h : inst.Accounted kind log Done) :
    (inst.onTick kind).Accounted kind log Done := by
  rw [ProjectionInstance.onTick]
  split
  · next hphase =>
    split_ifs
    · exact h
    · rw [Accounted, hphase] at h
      exact h
  · exact h

lemma Ordered.onRead (hlawful : kind.Lawful Asked) (hkept : Kept log)
    (h : inst.Ordered kind Asked log) :
    (inst.onRead kind log).Ordered kind Asked log ∧
      inst.cursor ≤ (inst.onRead kind log).cursor := by
  rw [ProjectionInstance.onRead]
  split
  · next query hphase =>
    refine ⟨⟨h.reached, .nil, ?_, nofun⟩, le_rfl⟩
    rintro _ ⟨⟩
    exact hlawful.read log inst.cursor query hkept (h.asked query hphase)
  · exact ⟨h, le_rfl⟩

lemma Accounted.onRead (h : inst.Accounted kind log Done) :
    (inst.onRead kind log).Accounted kind log Done := by
  rw [ProjectionInstance.onRead]
  split
  · next query hphase =>
    rw [Accounted, hphase] at h
    exact h
  · exact h

lemma exists_onAnswer (options : ProjectionOptions) (hlawful : kind.Lawful Asked)
    {query : Q} (hphase : inst.phase = .querying query)
    (henvelopes : kind.envelopes query = some envelopes)
    (hanswered : Answered kind log inst.cursor envelopes) :
    ∃ fresh, Ahead kind log inst.cursor fresh ∧ (∀ env ∈ fresh, env ∈ envelopes) ∧
      (∀ env ∈ envelopes, inst.cursor < env.offset → env ∈ fresh) ∧
      inst.onAnswer kind options = inst.proceed kind options [] fresh := by
  have hbehind : ∀ env ∈ envelopes, inst.cursor < env.offset →
      kind.isCursor env.offset inst.cursor = false := by
    intro env _ hlt
    rw [← not_eq_true]
    exact fun hcursor => hlt.ne' (hlawful.isCursor _ _ hcursor)
  rw [onAnswer, hphase]
  dsimp only
  rw [henvelopes]
  dsimp only
  cases hgroup : options.groupAfterEnvelopes with
  | some n =>
    refine ⟨_, ⟨hanswered.sorted.sublist filter_sublist, fun env henv => ?_,
      fun env henv => ?_⟩, fun env henv => mem_of_mem_filter henv,
      fun env henv hlt => mem_filter.2 ⟨henv, ?_⟩, if_pos rfl⟩
    · exact hanswered.mem env (mem_of_mem_filter henv)
    · obtain ⟨henv, hfresh⟩ := mem_filter.1 henv
      exact hanswered.ahead env henv (not_eq_eq_eq_not.1 hfresh)
    · rw [hbehind env henv hlt]
      rfl
  | none =>
    refine ⟨envelopes.dropWhile fun envelope => kind.isCursor envelope.offset inst.cursor,
      ⟨hanswered.sorted.sublist (dropWhile_sublist _), fun env henv => ?_,
      fun env henv => ?_⟩, fun env henv => (dropWhile_sublist _).subset henv,
      fun env henv hlt => ?_, ?_⟩
    · exact hanswered.mem env ((dropWhile_sublist _).subset henv)
    · exact hanswered.ahead_dropWhile env henv
    · have hfresh := hbehind env henv hlt
      rw [← takeWhile_append_dropWhile (l := envelopes), mem_append] at henv
      refine henv.resolve_left fun hskipped => ?_
      have hcursor := mem_takeWhile_imp hskipped
      exact false_ne_true (hfresh.symm.trans hcursor)
    · rw [if_neg (by decide), proceed.eq_def, proceed.eq_def, hgroup]
      rw [dropWhile_idempotent]

/-- No event of the journal was missed before one that is answered. -/
def Reads (kind : ProjectionKind W P Q) (log : List (PersistentEvent W)) (cursor : P)
    (envelopes : List (ProjectionEnvelope W P)) : Prop :=
  ∀ e ∈ log, kind.concerns e = true → cursor < kind.position e →
    ⟨e, kind.position e⟩ ∈ envelopes ∨ ∀ envelope ∈ envelopes, envelope.offset < kind.position e

omit [LinearOrder P] in
lemma onAnswer_eq_self (h : ∀ query envelopes, inst.phase = .querying query →
    kind.envelopes query ≠ some envelopes) : inst.onAnswer kind options = inst := by
  rw [onAnswer]
  split
  · next query hphase =>
    split
    · rfl
    · next envelopes henvelopes => exact absurd henvelopes (h query envelopes hphase)
  · rfl

lemma Ordered.onAnswer (hlawful : kind.Lawful Asked) (hkept : Kept log)
    (h : inst.Ordered kind Asked log) :
    (inst.onAnswer kind options).Ordered kind Asked log ∧
      inst.cursor ≤ (inst.onAnswer kind options).cursor := by
  by_cases hanswer : ∃ query envelopes, inst.phase = .querying query ∧
      kind.envelopes query = some envelopes
  · obtain ⟨query, envelopes, hphase, henvelopes⟩ := hanswer
    obtain ⟨fresh, hahead, -, -, heq⟩ := exists_onAnswer options hlawful hphase henvelopes
      (hlawful.answered _ _ _ _ hkept (h.asked query hphase) henvelopes)
    have hdelivers : Delivers inst (inst.proceed kind options [] fresh) fresh :=
      delivers_proceed rfl hlawful hahead
    rw [heq]
    exact ⟨hdelivers.ordered h.reached hahead, hdelivers.cursor.ge⟩
  · rw [onAnswer_eq_self fun query envelopes hphase henvelopes =>
      hanswer ⟨query, envelopes, hphase, henvelopes⟩]
    exact ⟨h, le_rfl⟩

lemma Accounted.onAnswer (hlawful : kind.Lawful Asked) (hkept : Kept log)
    (hordered : inst.Ordered kind Asked log) (h : inst.Accounted kind log Done)
    (hreads : ∀ query envelopes, inst.phase = .querying query →
      kind.envelopes query = some envelopes → Reads kind log inst.cursor envelopes) :
    (inst.onAnswer kind options).Accounted kind log Done := by
  by_cases hanswer : ∃ query envelopes, inst.phase = .querying query ∧
      kind.envelopes query = some envelopes
  · obtain ⟨query, envelopes, hphase, henvelopes⟩ := hanswer
    obtain ⟨fresh, hahead, hsub, hsup, heq⟩ := exists_onAnswer options hlawful hphase henvelopes
      (hlawful.answered _ _ _ _ hkept (hordered.asked query hphase) henvelopes)
    have hdelivers : Delivers inst (inst.proceed kind options [] fresh) fresh :=
      delivers_proceed rfl hlawful hahead
    rw [heq]
    refine hdelivers.accounted fun e he hconcerns => ?_
    by_cases hle : kind.position e ≤ inst.cursor
    · exact .inl (h.done hordered.pending he hconcerns hle)
    · have hlt : inst.cursor < kind.position e := not_le.1 hle
      refine .inr ((hreads query envelopes hphase henvelopes e he hconcerns hlt).imp
        (fun hmem => hsup _ hmem hlt) fun hbehind => ⟨hlt, fun env henv => ?_⟩)
      exact hbehind env (hsub env henv)
  · rw [onAnswer_eq_self fun query envelopes hphase henvelopes =>
      hanswer ⟨query, envelopes, hphase, henvelopes⟩]
    exact h

lemma Ordered.append (hlawful : kind.Lawful Asked) (h : inst.Ordered kind Asked log)
    (hev : Appendable log ev) : inst.Ordered kind Asked (log ++ [ev]) :=
  ⟨h.reached.append, h.pending.append,
    fun query hquery => hlawful.append _ _ _ ev hev (h.asked query hquery), h.saving⟩

end ProjectionInstance

/-! ## Every run -/

namespace ProjectionWorld

variable {options : ProjectionOptions} {w : ProjectionWorld W P Q}
  {Asked : List (PersistentEvent W) → P → Q → Prop}
  {f : ProjectionInstance W P Q → ProjectionInstance W P Q} {store : P}

/-- The saved cursor is a position of the journal and not behind that of the instance. -/
structure Ordered (kind : ProjectionKind W P Q)
    (Asked : List (PersistentEvent W) → P → Q → Prop) (w : ProjectionWorld W P Q) : Prop where
  kept : Kept w.log
  reached : Reached kind w.log w.store
  running : ∀ inst ∈ w.running, inst.Ordered kind Asked w.log ∧ w.store ≤ inst.cursor

structure Accounted (kind : ProjectionKind W P Q) (w : ProjectionWorld W P Q) : Prop where
  stored : ∀ e ∈ w.log, kind.concerns e = true → kind.position e ≤ w.store → w.Done e
  running : ∀ inst ∈ w.running, inst.Accounted kind w.log w.Done

/-- An event that is appended lies behind every position the projection has reached or is
about to, and a query misses none before one that it answers. -/
def InOrder (kind : ProjectionKind W P Q) (w : ProjectionWorld W P Q) : ProjectionMove W → Prop
  | .append ev => Appendable w.log ev → kind.concerns ev = true →
      w.store < kind.position ev ∧ ∀ inst ∈ w.running, inst.cursor < kind.position ev ∧
        ∀ envelope ∈ inst.phase.pending, envelope.offset < kind.position ev
  | .answer => ∀ inst ∈ w.running, ∀ query envelopes, inst.phase = .querying query →
      kind.envelopes query = some envelopes → ProjectionInstance.Reads kind w.log inst.cursor
        envelopes
  | _ => True

lemma Ordered.mem_saving (h : w.Ordered kind Asked) {inst : ProjectionInstance W P Q}
    (hinst : inst ∈ w.running) (hoffset : offset ∈ inst.saving?) : offset = inst.cursor :=
  (h.running inst hinst).1.saving offset hoffset

omit [LinearOrder P] in
lemma landed_cases (w : ProjectionWorld W P Q) :
    w.landed = w.store ∨ ∃ inst ∈ w.running, w.landed ∈ inst.saving? := by
  rw [landed]
  cases w.running with
  | none => exact .inl rfl
  | some inst =>
    rw [bind_some]
    cases hsaving : inst.saving? with
    | none => exact .inl rfl
    | some offset => exact .inr ⟨inst, rfl, hsaving⟩

lemma Ordered.landed_cases (h : w.Ordered kind Asked) :
    w.landed = w.store ∨ ∃ inst ∈ w.running, w.landed = inst.cursor :=
  w.landed_cases.imp_right fun ⟨inst, hinst, hsaving⟩ =>
    ⟨inst, hinst, h.mem_saving hinst hsaving⟩

lemma Ordered.store_le_landed (h : w.Ordered kind Asked) : w.store ≤ w.landed := by
  rcases h.landed_cases with heq | ⟨inst, hinst, heq⟩
  · exact heq.ge
  · rw [heq]
    exact (h.running inst hinst).2

lemma Ordered.reached_landed (h : w.Ordered kind Asked) : Reached kind w.log w.landed := by
  rcases h.landed_cases with heq | ⟨inst, hinst, heq⟩
  · exact heq ▸ h.reached
  · exact heq ▸ (h.running inst hinst).1.reached

lemma Ordered.landed_le (h : w.Ordered kind Asked) {inst : ProjectionInstance W P Q}
    (hinst : inst ∈ w.running) : w.landed ≤ inst.cursor := by
  rcases h.landed_cases with heq | ⟨other, hother, heq⟩
  · exact heq ▸ (h.running inst hinst).2
  · obtain rfl := mem_unique hother hinst
    exact heq.le

lemma Accounted.done_landed (h : w.Accounted kind) (hordered : w.Ordered kind Asked) :
    ∀ e ∈ w.log, kind.concerns e = true → kind.position e ≤ w.landed → w.Done e := by
  intro e he hconcerns hle
  rcases hordered.landed_cases with heq | ⟨inst, hinst, heq⟩
  · exact h.stored e he hconcerns (heq ▸ hle)
  · exact (h.running inst hinst).done (hordered.running inst hinst).1.pending he hconcerns
      (heq ▸ hle)

/-- Something happens to the instance, and the saved cursor stays at its cursor or before
it. -/
lemma Ordered.map (h : w.Ordered kind Asked) (hreached : Reached kind w.log store)
    (hstore : ∀ inst ∈ w.running, store ≤ inst.cursor) (hf : ∀ inst, inst.Ordered kind Asked w.log →
      (f inst).Ordered kind Asked w.log ∧ inst.cursor ≤ (f inst).cursor) :
    Ordered kind Asked { w with store, running := w.running.map f } := by
  refine ⟨h.kept, hreached, fun next hnext => ?_⟩
  obtain ⟨inst, hinst, rfl⟩ := mem_map.1 hnext
  obtain ⟨hordered, hle⟩ := hf inst (h.running inst hinst).1
  exact ⟨hordered, (hstore inst hinst).trans hle⟩

lemma Accounted.map (h : w.Accounted kind)
    (hstored : ∀ e ∈ w.log, kind.concerns e = true → kind.position e ≤ store → w.Done e)
    (hf : ∀ inst ∈ w.running, inst.Accounted kind w.log w.Done →
      (f inst).Accounted kind w.log w.Done) :
    Accounted kind { w with store, running := w.running.map f } := by
  refine ⟨hstored, fun next hnext => ?_⟩
  obtain ⟨inst, hinst, rfl⟩ := mem_map.1 hnext
  exact hf inst hinst (h.running inst hinst)

lemma Ordered.store_le (h : w.Ordered kind Asked) :
    ∀ inst ∈ w.running, w.store ≤ inst.cursor := fun inst hinst => (h.running inst hinst).2

lemma Ordered.step (hlawful : kind.Lawful Asked) (h : w.Ordered kind Asked)
    (move : ProjectionMove W) : (step kind options w move).Ordered kind Asked := by
  cases move with
  | append ev =>
    rw [ProjectionWorld.step]
    split_ifs with hev
    · exact ⟨h.kept.concat hev, h.reached.append, fun inst hinst =>
        ⟨(h.running inst hinst).1.append hlawful hev, (h.running inst hinst).2⟩⟩
    · exact h
  | start =>
    refine ⟨h.kept, h.reached, fun inst hinst => ?_⟩
    rcases or_eq_some_iff.1 hinst with hinst | ⟨-, hinst⟩
    · exact h.running inst hinst
    · cases hinst
      exact ⟨⟨h.reached, .nil, nofun, nofun⟩, le_rfl⟩
  | tick =>
    exact h.map h.reached h.store_le fun _ hinst => hinst.onTick hlawful
  | read =>
    exact h.map h.reached h.store_le fun _ hinst => hinst.onRead hlawful h.kept
  | queryFailed =>
    exact h.map h.reached h.store_le fun _ hinst =>
      moves_onQueryFailed.keeps hinst
  | answer =>
    exact h.map h.reached h.store_le fun _ hinst => hinst.onAnswer hlawful h.kept
  | handled =>
    rw [ProjectionWorld.step]
    split
    · exact h
    · next inst hinst =>
      obtain ⟨hordered, hle⟩ := h.running inst hinst
      refine ⟨h.kept, h.reached, ?_⟩
      rintro _ ⟨⟩
      exact (moves_onHandled.keeps hordered).imp_right hle.trans
  | failed =>
    rw [ProjectionWorld.step]
    split
    · exact h
    · next inst hinst =>
      obtain ⟨hordered, hle⟩ := h.running inst hinst
      refine ⟨h.kept, h.reached, ?_⟩
      rintro _ ⟨⟩
      exact ((moves_onFailed hlawful hordered).keeps hordered).imp_right hle.trans
  | saved =>
    exact h.map h.reached_landed (fun _ => h.landed_le) fun _ hinst =>
      (moves_onSaved hlawful hinst).keeps hinst
  | unsaved landed =>
    cases landed with
    | true =>
      exact h.map h.reached_landed (fun _ => h.landed_le) fun _ hinst =>
        moves_onUnsaved.keeps hinst
    | false =>
      exact h.map h.reached h.store_le fun _ hinst =>
        moves_onUnsaved.keeps hinst
  | stop =>
    exact ⟨h.kept, h.reached, fun inst hinst => h.running inst (mem_filter_iff.1 hinst).1⟩
  | crash landed =>
    cases landed with
    | true => exact ⟨h.kept, h.reached_landed, nofun⟩
    | false => exact ⟨h.kept, h.reached, nofun⟩

lemma Ordered.store_le_step (h : w.Ordered kind Asked) (move : ProjectionMove W) :
    w.store ≤ (ProjectionWorld.step kind options w move).store := by
  cases move with
  | append ev =>
    rw [ProjectionWorld.step]
    split_ifs <;> exact le_rfl
  | saved => exact h.store_le_landed
  | unsaved landed =>
    cases landed with
    | true => exact h.store_le_landed
    | false => exact le_rfl
  | crash landed =>
    cases landed with
    | true => exact h.store_le_landed
    | false => exact le_rfl
  | handled | failed =>
    rw [ProjectionWorld.step]
    split <;> exact le_rfl
  | start | tick | read | queryFailed | answer | stop => exact le_rfl

lemma Accounted.step (hlawful : kind.Lawful Asked) (hordered : w.Ordered kind Asked)
    (h : w.Accounted kind) {move : ProjectionMove W} (hmove : InOrder kind w move) :
    (step kind options w move).Accounted kind := by
  cases move with
  | append ev =>
    rw [ProjectionWorld.step]
    split_ifs with hev
    · refine ⟨fun e he hconcerns hle => ?_, fun inst hinst => ?_⟩
      · rcases mem_append.1 he with he | he
        · exact h.stored e he hconcerns hle
        · obtain rfl := mem_singleton.1 he
          exact absurd (hmove hev hconcerns).1 (not_lt.2 hle)
      · exact Covered.append (h.running inst hinst) fun hconcerns =>
          (hmove hev hconcerns).2 inst hinst
    · exact h
  | start =>
    refine ⟨h.stored, fun inst hinst => ?_⟩
    rcases or_eq_some_iff.1 hinst with hinst | ⟨-, hinst⟩
    · exact h.running inst hinst
    · cases hinst
      intro e he hconcerns
      by_cases hle : kind.position e ≤ w.store
      · exact .inl (h.stored e he hconcerns hle)
      · exact .inr (.inr ⟨not_le.1 hle, nofun⟩)
  | tick => exact h.map h.stored fun _ _ hinst => hinst.onTick
  | read => exact h.map h.stored fun _ _ hinst => hinst.onRead
  | queryFailed =>
    exact h.map h.stored fun inst hinst haccounted =>
      (moves_onQueryFailed.accounted (hordered.running inst hinst).1 haccounted).of_nil
  | answer =>
    exact h.map h.stored fun inst hinst haccounted =>
      haccounted.onAnswer hlawful hordered.kept (hordered.running inst hinst).1 (hmove inst hinst)
  | handled =>
    rw [ProjectionWorld.step]
    split
    · exact h
    · next inst hinst =>
      refine ⟨fun e he hconcerns hle =>
        (h.stored e he hconcerns hle).imp_left (mem_append_left _), ?_⟩
      rintro _ ⟨⟩
      refine Covered.mono (moves_onHandled.accounted
        (hordered.running inst hinst).1 (h.running inst hinst)) fun e hdone => ?_
      rcases hdone with (hhandled | hdead) | hnew
      · exact .inl (mem_append_left _ hhandled)
      · exact .inr hdead
      · exact .inl (mem_append_right _ hnew)
  | failed =>
    rw [ProjectionWorld.step]
    split
    · exact h
    · next inst hinst =>
      refine ⟨fun e he hconcerns hle =>
        (h.stored e he hconcerns hle).imp_right (mem_append_left _), ?_⟩
      rintro _ ⟨⟩
      have hinst' := (hordered.running inst hinst).1
      refine Covered.mono ((moves_onFailed hlawful hinst').accounted hinst'
        (h.running inst hinst)) fun e hdone => ?_
      rcases hdone with (hhandled | hdead) | hnew
      · exact .inl hhandled
      · exact .inr (mem_append_left _ hdead)
      · exact .inr (mem_append_right _ hnew)
  | saved =>
    exact h.map (h.done_landed hordered) fun inst hinst haccounted =>
      ((moves_onSaved hlawful (hordered.running inst hinst).1).accounted
        (hordered.running inst hinst).1 haccounted).of_nil
  | unsaved landed =>
    cases landed with
    | true =>
      exact h.map (h.done_landed hordered) fun inst hinst haccounted =>
        (moves_onUnsaved.accounted (hordered.running inst hinst).1 haccounted).of_nil
    | false =>
      exact h.map h.stored fun inst hinst haccounted =>
        (moves_onUnsaved.accounted (hordered.running inst hinst).1 haccounted).of_nil
  | stop =>
    exact ⟨h.stored, fun inst hinst => h.running inst (mem_filter_iff.1 hinst).1⟩
  | crash landed =>
    cases landed with
    | true => exact ⟨h.done_landed hordered, nofun⟩
    | false => exact ⟨h.stored, nofun⟩

lemma ordered_opened : (opened kind).Ordered kind Asked := ⟨.nil, .inl rfl, nofun⟩

lemma accounted_opened : (opened kind).Accounted kind := ⟨nofun, nofun⟩

/-- What lies at the saved cursor or before it was part of a call that succeeded, or was
skipped. -/
def StepsOverNothing (kind : ProjectionKind W P Q) (w : ProjectionWorld W P Q) : Prop :=
  ∀ e ∈ w.log, kind.concerns e = true → kind.position e ≤ w.store →
    e ∈ w.handled ∨ e ∈ w.deadLetters

lemma stepsOverNothing_run (hlawful : kind.Lawful Asked) {moves : List (ProjectionMove W)}
    (hmoves : Machine.Along (step kind options) (InOrder kind) (opened kind) moves) :
    (run (step kind options) (opened kind) moves).StepsOverNothing kind := by
  have hrun : (run (step kind options) (opened kind) moves).Ordered kind Asked ∧
      (run (step kind options) (opened kind) moves).Accounted kind :=
    invariant (I := fun w => w.Ordered kind Asked ∧ w.Accounted kind)
      (fun _ move hmove h => ⟨h.1.step hlawful move, h.2.step hlawful h.1 hmove⟩) hmoves
      ⟨ordered_opened, accounted_opened⟩
  exact hrun.2.stored

/-- Each step of a run leaves the saved cursor where it is or moves it forward. -/
lemma forward_run (hlawful : kind.Lawful Asked) (moves : List (ProjectionMove W)) :
    Machine.Along (step kind options)
      (fun w move => w.store ≤ (step kind options w move).store) (opened kind) moves :=
  along_of_invariant (I := Ordered kind Asked) (fun _ move h => h.step hlawful move)
    (fun _ move h => h.store_le_step move) ordered_opened

end ProjectionWorld

end ActorTs.Persistence
