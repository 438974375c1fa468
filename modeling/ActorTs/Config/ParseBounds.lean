import ActorTs.Config.HoconParser

/-!
# Every text has a parse or a refusal

`Leaves n p` says that a reader stops by itself and leaves fewer than `n` units. Each
function leaves less than it was given, so the calls it makes are counted by the length
of the text, and the count that `parseHocon` starts with is never used up.
-/

open List Nat

namespace ActorTs.Config

section Leaves

variable {α β : Type} {n m : ℕ}

def Leaves (n : ℕ) (p : Except Halt (α × JsString)) : Prop :=
  match p with
  | .ok (_, rest) => rest.length < n
  | .error halt => halt ≠ .exhausted

lemma leaves_refuse (message text : JsString) :
    Leaves n (refuse message text : Except Halt (α × JsString)) := Halt.noConfusion

lemma leaves_ok {a : α} {rest : JsString} (h : rest.length < n) :
    Leaves n (.ok (a, rest) : Except Halt (α × JsString)) := h

variable {p : Except Halt (α × JsString)}

lemma Leaves.mono (h : Leaves n p) (hn : n ≤ m) : Leaves m p := by
  cases p with
  | error halt => exact h
  | ok r => exact lt_of_lt_of_le h hn

lemma Leaves.bind {f : α × JsString → Except Halt (β × JsString)} (h : Leaves n p)
    (hf : ∀ a rest, rest.length < n → Leaves m (f (a, rest))) : Leaves m (p >>= f) := by
  cases p with
  | error halt => exact h
  | ok r => exact hf r.1 r.2 h

lemma Leaves.map (h : Leaves n p) (f : α → β) : Leaves n (p.map (Prod.map f id)) := by
  cases p with
  | error halt => exact h
  | ok r => exact h

lemma Leaves.ite {c : Prop} [Decidable c] {q : Except Halt (α × JsString)} (hp : c → Leaves n p)
    (hq : ¬ c → Leaves n q) : Leaves n (if c then p else q) := by
  split_ifs with h
  · exact hp h
  · exact hq h

end Leaves

section Skip

variable (skips : UInt16 → Bool)

mutual

theorem length_skipText_le : ∀ text : JsString, (skipText skips text).length ≤ text.length
  | [] => le_rfl
  | c :: rest => by
    rw [skipText]
    split_ifs with hskip hcomment
    · exact (length_skipText_le rest).trans (le_succ _)
    · exact (length_skipComment_le rest).trans (le_succ _)
    · exact le_rfl

theorem length_skipComment_le : ∀ text : JsString, (skipComment skips text).length ≤ text.length
  | [] => le_rfl
  | c :: rest => by
    rw [skipComment]
    split_ifs with hbreak hskip
    · exact (length_skipText_le rest).trans (le_succ _)
    · exact le_rfl
    · exact (length_skipComment_le rest).trans (le_succ _)

end

end Skip

variable (text : JsString)

lemma length_skipInsignificant_le :
    (skipInsignificant text).length ≤ text.length := length_skipText_le _ text

lemma length_skipInsignificantInline_le :
    (skipInsignificantInline text).length ≤ text.length := length_skipText_le _ text

lemma length_skipSeparator_le :
    (skipSeparator text).length ≤ text.length := length_skipText_le _ text

lemma length_assignsNoValue_le (braced : Bool) (text : JsString) :
    (assignsNoValue braced text).2.length ≤ text.length := by
  have h := length_skipInsignificantInline_le text
  simp only [assignsNoValue]
  cases htext : skipInsignificantInline text with
  | nil => exact zero_le _
  | cons c rest =>
    rw [htext] at h
    dsimp only
    split_ifs <;> exact h

lemma leaves_parseQuotedBody : Leaves (text.length + 1) (parseQuotedBody text) := by
  fun_induction parseQuotedBody text with
  | case1 => exact leaves_refuse _ _
  | case2 rest => exact leaves_ok (by simp)
  | case3 => exact Halt.noConfusion
  | case4 a b c d rest _ u hu ih => exact (ih.map _).mono (by simp)
  | case5 => exact leaves_refuse _ _
  | case6 => exact leaves_refuse _ _
  | case7 esc rest _ hesc u hu ih => exact (ih.map _).mono (by simp)
  | case8 => exact leaves_refuse _ _
  | case9 => exact leaves_refuse _ _
  | case10 c rest _ _ _ ih => exact (ih.map _).mono (by simp)

lemma length_dropWhile_lt {p : UInt16 → Bool} {c : UInt16} {segment text : JsString}
    (h : text.takeWhile p = c :: segment) : (text.dropWhile p).length < text.length := by
  have hlen := congrArg List.length (takeWhile_append_dropWhile (p := p) (l := text))
  rw [length_append, h, length_cons] at hlen
  omega

lemma leaves_parseBareKeySegment : Leaves text.length (parseBareKeySegment text) := by
  rw [parseBareKeySegment]
  split
  · exact leaves_refuse _ _
  · rename_i segment hne
    cases hsegment : text.takeWhile isKeyUnit with
    | nil => exact absurd hsegment hne
    | cons c segment => exact leaves_ok (length_dropWhile_lt hsegment)

lemma length_tail_lt {c : UInt16} {text : JsString} (h : text.head? = some c) :
    text.tail.length < text.length := by
  cases text with
  | nil => cases h
  | cons c' rest => exact lt_succ_self _

lemma leaves_parseKeySegment : Leaves text.length (parseKeySegment text) := by
  have hread : ∀ text, Leaves text.length (parseAnyKeySegment text) := by
    intro text
    rw [parseAnyKeySegment]
    split_ifs with hquote
    · exact (leaves_parseQuotedBody _).mono (length_tail_lt hquote)
    · exact leaves_parseBareKeySegment text
  have hskip := length_skipInsignificantInline_le text
  refine ((hread _).mono hskip).bind fun segment rest hrest => ?_
  dsimp only
  split_ifs
  · exact leaves_refuse _ _
  · exact hrest

lemma leaves_parseKeySegments (fuel : ℕ) (text : JsString) :
    Leaves (text.length + 1) (parseKeySegments fuel text) := by
  induction fuel generalizing text with
  | zero => exact leaves_ok (lt_succ_self _)
  | succ fuel ih =>
    cases text with
    | nil => exact leaves_ok (lt_succ_self _)
    | cons c rest =>
      rw [parseKeySegments]
      split_ifs
      · refine (leaves_parseKeySegment rest).bind fun segment rest' hrest' => ?_
        refine (ih rest').bind fun segments rest'' hrest'' => leaves_ok ?_
        rw [length_cons]
        omega
      · exact leaves_ok (lt_succ_self _)

lemma leaves_parseKeyPath : Leaves text.length (parseKeyPath text) := by
  refine (leaves_parseKeySegment text).bind fun segment rest hrest => ?_
  refine (leaves_parseKeySegments rest.length rest).bind fun segments rest' hrest' => leaves_ok ?_
  omega

lemma length_dropWhile_le (p : UInt16 → Bool) (text : JsString) :
    (text.dropWhile p).length ≤ text.length := (dropWhile_suffix p).length_le

lemma leaves_parseSubstitution : Leaves (text.length + 1) (parseSubstitution text) := by
  rw [parseSubstitution]
  generalize htext' : (if decide (text.head? = some 0x3F) then text.tail else text) = text'
  have hle : text'.length ≤ text.length := by
    rw [← htext']
    split_ifs
    · exact (length_tail ..).trans_le (sub_le _ _)
    · exact le_rfl
  have hdrop := length_dropWhile_le (fun u => decide (u ≠ 0x7D)) text'
  cases hrest : text'.dropWhile fun u => decide (u ≠ 0x7D) with
  | nil => exact leaves_refuse _ _
  | cons c rest =>
    rw [hrest, length_cons] at hdrop
    split_ifs
    · exact leaves_refuse _ _
    · exact leaves_refuse _ _
    · exact leaves_ok (by omega)

lemma unquotedRun_cases (before : Option UInt16) (text : JsString) :
    (∃ run rest, unquotedRun before text = .ok (run, rest) ∧
      run.length + rest.length = text.length) ∨
    ∃ message unread, unquotedRun before text = .error (.refused message unread) := by
  induction text generalizing before with
  | nil => exact .inl ⟨[], [], rfl, rfl⟩
  | cons c text ih =>
    rw [unquotedRun]
    split_ifs
    · exact .inl ⟨[], _, rfl, zero_add _⟩
    · exact .inr ⟨_, _, rfl⟩
    · exact .inl ⟨[], _, rfl, zero_add _⟩
    · obtain ⟨run, rest, hrun, hlen⟩ | ⟨message, unread, hrun⟩ := ih (some c)
      · refine .inl ⟨c :: run, rest, by rw [hrun]; rfl, ?_⟩
        rw [length_cons, length_cons]
        omega
      · exact .inr ⟨message, unread, by rw [hrun]; rfl⟩

lemma leaves_parseUnquotedRun : Leaves text.length (parseUnquotedRun text) := by
  rw [parseUnquotedRun]
  obtain ⟨run, rest, hrun, hlen⟩ | ⟨message, unread, hrun⟩ := unquotedRun_cases none text
  · rw [hrun]
    change Leaves text.length (if trim run = [] then _ else _)
    split_ifs with htrim
    · exact leaves_refuse _ _
    · have hne : run ≠ [] := fun h => htrim (by rw [h]; rfl)
      have hpos := length_pos_iff.2 hne
      exact leaves_ok (by omega)
  · rw [hrun]
    exact Halt.noConfusion

lemma leaves_parsePiece : Leaves text.length (parsePiece text) := by
  rw [parsePiece]
  split_ifs with hquote htriple hdollar
  · exact leaves_refuse _ _
  · exact ((leaves_parseQuotedBody _).map _).mono (length_tail_lt hquote)
  · refine ((leaves_parseSubstitution _).map _).mono ?_
    have hlen := congrArg List.length hdollar
    rw [length_take, length_cons] at hlen
    rw [length_drop]
    omega
  · exact (leaves_parseUnquotedRun _).map _

lemma leaves_parsePieces {fuel : ℕ} {text : JsString} (h : text.length < fuel) :
    Leaves text.length (parsePieces fuel text) := by
  induction fuel generalizing text with
  | zero => exact absurd h (not_lt_zero _)
  | succ fuel ih =>
    refine (leaves_parsePiece text).bind fun piece rest hrest => ?_
    have hnext := length_dropWhile_le isBlank rest
    refine Leaves.ite (fun _ => leaves_ok hrest) fun _ => ?_
    refine Leaves.ite (fun _ => leaves_refuse _ _) fun _ => ?_
    refine Leaves.ite (fun _ => leaves_ok hrest) fun _ => ?_
    have hlt : (rest.dropWhile isBlank).length < fuel := by omega
    refine (ih hlt).bind fun pieces rest' hrest' => leaves_ok ?_
    omega

lemma leaves_parseSimpleValue : Leaves text.length (parseSimpleValue text) :=
  (leaves_parsePieces (lt_succ_self _)).map _

lemma leaves_refuseConcatenationAfter (value : ConfigValue) (what : JsString) {text : JsString}
    {n : ℕ} (h : text.length < n) : Leaves n (refuseConcatenationAfter value what text) := by
  exact Leaves.ite (fun _ => leaves_refuse _ _) fun _ => leaves_ok h

lemma leaves_expectBrace {α : Type} (result : α) (text : JsString) :
    Leaves text.length (expectBrace result text) := by
  rw [expectBrace]
  split_ifs with hbrace
  · exact leaves_ok (length_tail_lt hbrace)
  · exact leaves_refuse _ _

/-- The calls that each of the three functions needs: two for a unit. -/
structure Enough (fuel : ℕ) : Prop where
  fields (braced : Bool) (out : ConfigObject) (text : JsString) :
    2 * text.length + 2 ≤ fuel → Leaves (text.length + 1) (parseFields fuel braced out text)
  value (text : JsString) : 2 * text.length + 1 ≤ fuel →
    Leaves text.length (parseValue fuel text)
  items (text : JsString) : 2 * text.length + 2 ≤ fuel →
    Leaves (text.length + 1) (parseItems fuel text)

section Step

variable {fuel : ℕ} (ih : Enough fuel)
include ih

lemma Enough.fields_succ (braced : Bool) (out : ConfigObject) (text : JsString)
    (hfuel : 2 * text.length + 2 ≤ fuel + 1) :
    Leaves (text.length + 1) (parseFields (fuel + 1) braced out text) := by
  have hskip := length_skipInsignificant_le text
  rw [parseFields]
  split_ifs
  · exact leaves_refuse _ _
  · exact leaves_ok (lt_succ_of_le hskip)
  · exact leaves_ok (lt_succ_of_le hskip)
  · refine (leaves_parseKeyPath _).bind fun keyPath rest hrest => ?_
    have hinline := length_skipInsignificantInline_le rest
    -- a value that was read is written, and the entries behind it are read
    have hvalue : ∀ text' : JsString, text'.length < text.length →
        Leaves (text.length + 1) (parseValue fuel text' >>= fun r =>
          parseFields fuel braced (mergeKeyPath out keyPath r.1) (skipSeparator r.2)) := by
      intro text' htext'
      refine (ih.value text' (by omega)).bind fun value rest' hrest' => ?_
      have hsep := length_skipSeparator_le rest'
      dsimp only
      exact (ih.fields braced _ _ (by omega)).mono (by omega)
    have htail := (length_tail (l := skipInsignificantInline rest)).trans_le (sub_le _ 1)
    have hassigns := length_assignsNoValue_le braced (skipInsignificantInline rest).tail
    dsimp only
    split_ifs
    · have hsep := length_skipSeparator_le (assignsNoValue braced (skipInsignificantInline rest).tail).2
      exact (ih.fields braced _ _ (by omega)).mono (by omega)
    · exact hvalue _ (by omega)
    · exact hvalue _ (by omega)
    · exact leaves_refuse _ _
    · exact leaves_refuse _ _

lemma Enough.value_succ (text : JsString) (hfuel : 2 * text.length + 1 ≤ fuel + 1) :
    Leaves text.length (parseValue (fuel + 1) text) := by
  have hskip := length_skipInsignificant_le text
  rw [parseValue]
  dsimp only
  split_ifs with hend hbrace hbracket
  · exact leaves_refuse _ _
  · have htail := length_tail_lt hbrace
    refine (ih.fields true [] _ (by omega)).bind fun members rest hrest => ?_
    refine (leaves_expectBrace members rest).bind fun members' rest' hrest' => ?_
    exact leaves_refuseConcatenationAfter _ _ (by dsimp only; omega)
  · have htail := length_tail_lt hbracket
    refine (ih.items _ (by omega)).bind fun items rest hrest => ?_
    exact leaves_refuseConcatenationAfter _ _ (by dsimp only; omega)
  · exact (leaves_parseSimpleValue _).mono hskip

lemma Enough.items_succ (text : JsString) (hfuel : 2 * text.length + 2 ≤ fuel + 1) :
    Leaves (text.length + 1) (parseItems (fuel + 1) text) := by
  have hskip := length_skipInsignificant_le text
  rw [parseItems]
  dsimp only
  split_ifs with hend
  · have htail := length_tail_lt hend
    exact leaves_ok (by omega)
  · refine (ih.value _ (by omega)).bind fun item rest hrest => ?_
    have hsep := length_skipSeparator_le rest
    refine (ih.items _ (by dsimp only; omega)).bind fun items rest' hrest' => leaves_ok ?_
    dsimp only at hrest' ⊢
    omega

end Step

lemma enough (fuel : ℕ) : Enough fuel := by
  induction fuel with
  | zero => exact ⟨fun _ _ _ h => absurd h (by simp), fun _ h => absurd h (by simp),
      fun _ h => absurd h (by simp)⟩
  | succ fuel ih => exact ⟨ih.fields_succ, ih.value_succ, ih.items_succ⟩

/-- The parser stops on every text by itself, with a tree or with a refusal. -/
lemma parseHocon_ne_exhausted (source : JsString) : parseHocon source ≠ .error .exhausted := by
  have hskip := length_skipInsignificant_le source
  have hroot : Leaves (source.length + 1) (parseRootObject source) := by
    rw [parseRootObject]
    split_ifs with hbrace
    · have htail := length_tail_lt hbrace
      have hfields := (enough (parseFuel source)).fields true [] (skipInsignificant source).tail
        (by rw [parseFuel]; omega)
      refine hfields.bind fun result rest hrest => ?_
      exact (leaves_expectBrace result rest).mono (by omega)
    · have hfields := (enough (parseFuel source)).fields false [] (skipInsignificant source)
        (by rw [parseFuel]; omega)
      exact hfields.mono (by omega)
  rw [parseHocon, parseRoot]
  cases hresult : parseRootObject source with
  | error halt =>
    rw [hresult] at hroot
    exact fun h => hroot (Except.error.inj h)
  | ok r =>
    intro h
    change (if skipInsignificant r.2 = [] then _ else _) = _ at h
    split_ifs at h
    · cases h
    · exact Halt.noConfusion (Except.error.inj h)

end ActorTs.Config
