import ActorTs.Library.JsonNumber
import ActorTs.Library.OrderedMap
import ActorTs.Library.Utf8

/-!
# JSON trees and their text

A tree is what the text of a value can say. `stringify` writes a tree without spaces, `parse` reads
any text of the grammar; a member that is named twice keeps its first place and its last value. A
tree reads back as its `normal` form, in which a number that has no text of its own is replaced by
the one it is written as.
-/

inductive Json where
  | null
  | bool (b : Bool)
  | num (x : JsNumber)
  | str (s : JsString)
  | arr (items : List Json)
  | obj (members : List (JsString × Json))

open List OrderedMap

namespace Json

open JsonText

mutual

def stringify : Json → JsString
  | null => "null"
  | bool b => if b then "true" else "false"
  | num x => numberText x
  | str s => quote s
  | arr [] => [0x5B, 0x5D]
  | arr (x :: xs) => 0x5B :: (stringify x ++ stringifyItems xs)
  | obj [] => [0x7B, 0x7D]
  | obj ((k, v) :: ms) => 0x7B :: (quote k ++ 0x3A :: (stringify v ++ stringifyMembers ms))

/-- The items behind the first, and the closing bracket. -/
def stringifyItems : List Json → JsString
  | [] => [0x5D]
  | x :: xs => 0x2C :: (stringify x ++ stringifyItems xs)

/-- The members behind the first, and the closing brace. -/
def stringifyMembers : List (JsString × Json) → JsString
  | [] => [0x7D]
  | (k, v) :: ms => 0x2C :: (quote k ++ 0x3A :: (stringify v ++ stringifyMembers ms))

end

def isSpace (u : UInt16) : Bool := decide (u = 0x20 ∨ u = 0x09 ∨ u = 0x0A ∨ u = 0x0D)

def skipSpace (text : JsString) : JsString := text.dropWhile isSpace

/-- Read a word that stands for a value. -/
def parseWord (word : JsString) (value : Json) (text : JsString) : Scanned Json :=
  if word.isPrefixOf text then some (value, text.drop word.length) else none

mutual

def parseValue : ℕ → JsString → Scanned Json
  | 0, _ => none
  | fuel + 1, text =>
    match skipSpace text with
    | [] => none
    | c :: rest =>
      if c = 0x7B then
        match skipSpace rest with
        | [] => none
        | c' :: rest' =>
          if c' = 0x7D then some (obj [], rest') else parseMembers fuel [] (c' :: rest')
      else if c = 0x5B then
        match skipSpace rest with
        | [] => none
        | c' :: rest' =>
          if c' = 0x5D then some (arr [], rest') else parseItems fuel [] (c' :: rest')
      else if c = 0x22 then (parseStringBody rest).map (Prod.map str id)
      else if c = 0x6E then parseWord "null" null (c :: rest)
      else if c = 0x74 then parseWord "true" (bool true) (c :: rest)
      else if c = 0x66 then parseWord "false" (bool false) (c :: rest)
      else (parseNumber (c :: rest)).map (Prod.map num id)

/-- Read an item and what follows it, with the items before it in `acc`. -/
def parseItems : ℕ → List Json → JsString → Scanned Json
  | 0, _, _ => none
  | fuel + 1, acc, text =>
    match parseValue fuel text with
    | none => none
    | some (x, rest) =>
      match skipSpace rest with
      | [] => none
      | c :: rest =>
        if c = 0x2C then parseItems fuel (acc ++ [x]) rest
        else if c = 0x5D then some (arr (acc ++ [x]), rest)
        else none

/-- Read a member and what follows it, with the members before it in `acc`. -/
def parseMembers : ℕ → List (JsString × Json) → JsString → Scanned Json
  | 0, _, _ => none
  | fuel + 1, acc, text =>
    match skipSpace text with
    | [] => none
    | c :: rest =>
      if c ≠ 0x22 then none
      else
        match parseStringBody rest with
        | none => none
        | some (k, rest) =>
          match skipSpace rest with
          | [] => none
          | c :: rest =>
            if c ≠ 0x3A then none
            else
              match parseValue fuel rest with
              | none => none
              | some (v, rest) =>
                match skipSpace rest with
                | [] => none
                | c :: rest =>
                  if c = 0x2C then parseMembers fuel (OrderedMap.bind k v acc) rest
                  else if c = 0x7D then some (obj (OrderedMap.bind k v acc), rest)
                  else none

end

/-- The text of one value and nothing behind it. A value of a text is nested no
deeper than the text is long. -/
def parse (text : JsString) : Option Json :=
  match parseValue text.length text with
  | none => none
  | some (v, rest) => if skipSpace rest = [] then some v else none

/-- What a number reads back as. -/
def normalNumber : JsNumber → Json
  | .finite x => num (.finite (if x.significand = 0 then .zero false else x))
  | _ => null

mutual

def normal : Json → Json
  | null => null
  | bool b => bool b
  | num x => normalNumber x
  | str s => str s
  | arr xs => arr (normalItems xs)
  | obj ms => obj (normalMembers [] ms)

def normalItems : List Json → List Json
  | [] => []
  | x :: xs => normal x :: normalItems xs

def normalMembers (acc : List (JsString × Json)) :
    List (JsString × Json) → List (JsString × Json)
  | [] => acc
  | (k, v) :: ms => normalMembers (OrderedMap.bind k (normal v) acc) ms

end

/-! ### Trees that are their own normal form -/

lemma normal_arr {xs : List Json} (h : ∀ x ∈ xs, normal x = x) : normal (arr xs) = arr xs := by
  have hitems : normalItems xs = xs := by
    induction xs with
    | nil => rfl
    | cons x xs ih =>
      rw [normalItems, h x mem_cons_self, ih fun y hy => h y (mem_cons_of_mem _ hy)]
  rw [normal, hitems]

lemma normalMembers_eq_append {acc ms : List (JsString × Json)}
    (hkeys : ((acc ++ ms).map Prod.fst).Nodup) (h : ∀ m ∈ ms, normal m.2 = m.2) :
    normalMembers acc ms = acc ++ ms := by
  induction ms generalizing acc with
  | nil => rw [normalMembers, append_nil]
  | cons m ms ih =>
    have hkey : m.1 ∉ acc.map Prod.fst := by
      rw [map_append, nodup_append] at hkeys
      exact fun hmem => hkeys.2.2 _ hmem m.1 (by simp) rfl
    rw [normalMembers, h m mem_cons_self, bind_of_notMem _ hkey]
    rw [append_cons] at hkeys
    have hrest := ih hkeys fun m' hm' => h m' (mem_cons_of_mem _ hm')
    exact hrest.trans (append_cons acc m ms).symm

lemma normal_obj {ms : List (JsString × Json)} (hkeys : (ms.map Prod.fst).Nodup)
    (h : ∀ m ∈ ms, normal m.2 = m.2) : normal (obj ms) = obj ms := by
  rw [normal, @normalMembers_eq_append [] ms hkeys h, nil_append]

lemma normal_normalNumber (x : JsNumber) : normal (normalNumber x) = normalNumber x := by
  cases x with
  | nan => rfl
  | infinity negative => rfl
  | finite x =>
    rw [normalNumber, normal, normalNumber]
    by_cases hx : x.significand = 0
    · rw [if_pos hx]
      rfl
    · rw [if_neg hx, if_neg hx]

mutual

theorem normal_normal : ∀ j : Json, normal (normal j) = normal j
  | null => rfl
  | bool _ => rfl
  | num x => normal_normalNumber x
  | str _ => rfl
  | arr xs => normal_arr (normal_normalItems xs)
  | obj ms => by
    obtain ⟨hkeys, hvalues⟩ := normal_normalMembers ms [] nodup_nil (by simp)
    exact normal_obj hkeys hvalues

theorem normal_normalItems : ∀ (xs : List Json), ∀ x ∈ normalItems xs, normal x = x
  | [], _, hx => absurd hx not_mem_nil
  | x :: xs, y, hy => by
    rcases mem_cons.1 hy with rfl | hy
    · exact normal_normal x
    · exact normal_normalItems xs y hy

theorem normal_normalMembers : ∀ (ms acc : List (JsString × Json)), (acc.map Prod.fst).Nodup →
    (∀ m ∈ acc, normal m.2 = m.2) → ((normalMembers acc ms).map Prod.fst).Nodup ∧
      ∀ m ∈ normalMembers acc ms, normal m.2 = m.2
  | [], _, hkeys, hvalues => ⟨hkeys, hvalues⟩
  | (k, v) :: ms, acc, hkeys, hvalues => by
    refine normal_normalMembers ms _ (nodup_bind k _ hkeys) fun m hm => ?_
    rcases eq_or_mem_of_mem_bind hm with rfl | hm
    · exact normal_normal v
    · exact hvalues m hm

end

/-! ### One step of the reader -/

section Step

variable {fuel : ℕ} {acc : List Json} {members : List (JsString × Json)} {text rest : JsString}
  {k : JsString} {x : Json} {v : Json}

lemma skipSpace_cons {c : UInt16} (h : isSpace c = false) (rest : JsString) :
    skipSpace (c :: rest) = c :: rest := by
  simp [skipSpace, h]

lemma parseItems_comma (h : parseValue fuel text = some (x, 0x2C :: rest)) :
    parseItems (fuel + 1) acc text = parseItems fuel (acc ++ [x]) rest := by
  rw [parseItems, h]
  simp [skipSpace_cons (c := 0x2C) (by decide)]

lemma parseItems_close (h : parseValue fuel text = some (x, 0x5D :: rest)) :
    parseItems (fuel + 1) acc text = some (arr (acc ++ [x]), rest) := by
  rw [parseItems, h]
  simp [skipSpace_cons (c := 0x5D) (by decide)]

lemma parseMembers_comma (h : parseValue fuel text = some (v, 0x2C :: rest)) :
    parseMembers (fuel + 1) members (quote k ++ 0x3A :: text) =
      parseMembers fuel (bind k v members) rest := by
  simp [parseMembers, quote, skipSpace_cons (c := 0x22) (by decide), parseStringBody_quoteUnits,
    skipSpace_cons (c := 0x3A) (by decide), h, skipSpace_cons (c := 0x2C) (by decide)]

lemma parseMembers_close (h : parseValue fuel text = some (v, 0x7D :: rest)) :
    parseMembers (fuel + 1) members (quote k ++ 0x3A :: text) =
      some (obj (bind k v members), rest) := by
  simp [parseMembers, quote, skipSpace_cons (c := 0x22) (by decide), parseStringBody_quoteUnits,
    skipSpace_cons (c := 0x3A) (by decide), h, skipSpace_cons (c := 0x7D) (by decide)]

lemma parseValue_items {c : UInt16} (hc : c ≠ 0x5D) (hspace : isSpace c = false) :
    parseValue (fuel + 1) (0x5B :: c :: rest) = parseItems fuel [] (c :: rest) := by
  simp [parseValue, skipSpace_cons (c := 0x5B) (by decide), skipSpace_cons hspace, hc]

lemma parseValue_members (k : JsString) :
    parseValue (fuel + 1) (0x7B :: (quote k ++ rest)) = parseMembers fuel [] (quote k ++ rest) := by
  simp [parseValue, quote, skipSpace_cons (c := 0x7B) (by decide),
    skipSpace_cons (c := 0x22) (by decide)]

lemma parseValue_quote (s : JsString) :
    parseValue (fuel + 1) (quote s ++ rest) = some (str s, rest) := by
  simp [parseValue, quote, skipSpace_cons (c := 0x22) (by decide), parseStringBody_quoteUnits]

lemma parseWord_append (word : JsString) (value : Json) :
    parseWord word value (word ++ rest) = some (value, rest) := by
  simp [parseWord, isPrefixOf_iff_prefix]

lemma parseNumber_head {c : UInt16} {r : JsNumber × JsString}
    (h : parseNumber (c :: rest) = some r) : isDigit c = true ∨ c = 0x2D := by
  by_cases hc : c = 0x2D
  · exact .inr hc
  · left
    rw [parseNumber, if_neg hc] at h
    by_contra hdigit
    have htake : (c :: rest).takeWhile isDigit = [] := takeWhile_cons_of_neg hdigit
    simp [parseUnsigned, parseInteger, htake] at h

lemma numberText_cons (x : FiniteDouble) :
    ∃ c text, numberText (.finite x) = c :: text ∧ (isDigit c = true ∨ c = 0x2D) := by
  have hparse := @parseNumber_numberText x [] (by simp [EndsNumber])
  cases htext : numberText (.finite x) with
  | nil => simp [htext, parseNumber] at hparse
  | cons c text => exact ⟨c, text, rfl, parseNumber_head (htext ▸ hparse)⟩

end Step

/-! ### Reading back what was written -/

/-- The text of the value reads back, whatever stands behind it. -/
def Reads (j : Json) : Prop :=
  ∀ (fuel : ℕ) (rest : JsString), (stringify j).length ≤ fuel → EndsNumber rest →
    parseValue fuel (stringify j ++ rest) = some (normal j, rest)

lemma endsNumber_cons {c : UInt16} (hdigit : isDigit c = false)
    (h : c ≠ 0x2E ∧ c ≠ 0x65 ∧ c ≠ 0x45) (rest : JsString) : EndsNumber (c :: rest) := by
  rintro c' ⟨⟩
  exact ⟨hdigit, h⟩

lemma endsNumber_items (xs : List Json) (rest : JsString) :
    EndsNumber (stringifyItems xs ++ rest) := by
  cases xs with
  | nil => exact endsNumber_cons (by decide) (by decide) rest
  | cons x xs => exact endsNumber_cons (by decide) (by decide) _

lemma endsNumber_members (ms : List (JsString × Json)) (rest : JsString) :
    EndsNumber (stringifyMembers ms ++ rest) := by
  cases ms with
  | nil => exact endsNumber_cons (by decide) (by decide) rest
  | cons m ms => exact endsNumber_cons (by decide) (by decide) _

lemma number_start {c : UInt16} (h : isDigit c = true ∨ c = 0x2D) :
    isSpace c = false ∧ c ≠ 0x5D ∧ c ≠ 0x7B ∧ c ≠ 0x5B ∧ c ≠ 0x22 ∧ c ≠ 0x6E ∧ c ≠ 0x74 ∧
      c ≠ 0x66 := by
  have hspace : isSpace c = false := by
    cases hsp : isSpace c with
    | false => rfl
    | true =>
      rcases of_decide_eq_true hsp with rfl | rfl | rfl | rfl <;>
        exact absurd h (by decide)
  refine ⟨hspace, ?_, ?_, ?_, ?_, ?_, ?_, ?_⟩ <;> rintro rfl <;> exact absurd h (by decide)

/-- The text of a value starts with a unit that is neither a space nor the end of
an array. -/
lemma stringify_cons (j : Json) :
    ∃ c text, stringify j = c :: text ∧ isSpace c = false ∧ c ≠ 0x5D := by
  cases j with
  | null => exact ⟨0x6E, "ull", by decide, by decide, by decide⟩
  | bool b =>
    cases b with
    | true => exact ⟨0x74, "rue", by decide, by decide, by decide⟩
    | false => exact ⟨0x66, "alse", by decide, by decide, by decide⟩
  | num x =>
    cases x with
    | nan => exact ⟨0x6E, "ull", by decide, by decide, by decide⟩
    | infinity negative => exact ⟨0x6E, "ull", rfl, by decide, by decide⟩
    | finite x =>
      obtain ⟨c, text, htext, hc⟩ := numberText_cons x
      exact ⟨c, text, htext, (number_start hc).1, (number_start hc).2.1⟩
  | str s => exact ⟨0x22, _, rfl, by decide, by decide⟩
  | arr xs =>
    cases xs with
    | nil => exact ⟨0x5B, _, rfl, by decide, by decide⟩
    | cons x xs => exact ⟨0x5B, _, rfl, by decide, by decide⟩
  | obj ms =>
    cases ms with
    | nil => exact ⟨0x7B, _, rfl, by decide, by decide⟩
    | cons m ms => exact ⟨0x7B, _, rfl, by decide, by decide⟩

lemma reads_null : Reads null := by
  intro fuel rest hfuel _
  cases fuel with
  | zero => exact absurd hfuel (by decide)
  | succ fuel =>
    have hword : stringify null ++ rest = 0x6E :: ("ull".toJs ++ rest) := rfl
    have hparse : parseWord "null" null (0x6E :: ("ull" ++ rest)) = some (null, rest) :=
      parseWord_append "null" null
    simp [hword, parseValue, skipSpace_cons (c := 0x6E) (by decide), hparse, normal]

lemma reads_bool (b : Bool) : Reads (bool b) := by
  intro fuel rest hfuel _
  cases fuel with
  | zero =>
    cases b with
    | true => exact absurd hfuel (by decide)
    | false => exact absurd hfuel (by decide)
  | succ fuel =>
    cases b with
    | true =>
      have hword : stringify (bool true) ++ rest = 0x74 :: ("rue".toJs ++ rest) := rfl
      have hparse : parseWord "true" (bool true) (0x74 :: ("rue" ++ rest)) =
          some (bool true, rest) := parseWord_append "true" (bool true)
      simp [hword, parseValue, skipSpace_cons (c := 0x74) (by decide), hparse, normal]
    | false =>
      have hword : stringify (bool false) ++ rest = 0x66 :: ("alse".toJs ++ rest) := rfl
      have hparse : parseWord "false" (bool false) (0x66 :: ("alse" ++ rest)) =
          some (bool false, rest) := parseWord_append "false" (bool false)
      simp [hword, parseValue, skipSpace_cons (c := 0x66) (by decide), hparse, normal]

lemma reads_num (x : JsNumber) : Reads (num x) := by
  cases x with
  | nan => exact reads_null
  | infinity negative => exact reads_null
  | finite x =>
    intro fuel rest hfuel hrest
    obtain ⟨c, text, htext, hc⟩ := numberText_cons x
    obtain ⟨hspace, -, h₁, h₂, h₃, h₄, h₅, h₆⟩ := number_start hc
    have hparse := parseNumber_numberText x hrest
    rw [stringify] at hfuel ⊢
    rw [htext] at hfuel hparse ⊢
    cases fuel with
    | zero => simp at hfuel
    | succ fuel =>
      rw [cons_append] at hparse ⊢
      simp [parseValue, skipSpace_cons hspace, h₁, h₂, h₃, h₄, h₅, h₆, hparse, normal, normalNumber]

lemma reads_str (s : JsString) : Reads (str s) := by
  intro fuel rest hfuel _
  cases fuel with
  | zero => simp [stringify, quote] at hfuel
  | succ fuel => exact parseValue_quote s

mutual

theorem reads : ∀ j : Json, Reads j
  | null => reads_null
  | bool b => reads_bool b
  | num x => reads_num x
  | str s => reads_str s
  | arr [] => by
    intro fuel rest hfuel _
    cases fuel with
    | zero => simp [stringify] at hfuel
    | succ fuel =>
      simp [stringify, parseValue, skipSpace_cons (c := 0x5B) (by decide),
        skipSpace_cons (c := 0x5D) (by decide), normal, normalItems]
  | arr (x :: xs) => by
    intro fuel rest hfuel _
    obtain ⟨c, text, htext, hspace, hc⟩ := stringify_cons x
    have hitems := readsItems xs [] x (reads x)
    rw [stringify, length_cons, length_append] at hfuel
    cases fuel with
    | zero => omega
    | succ fuel =>
      have hstep := hitems fuel rest (by omega)
      rw [stringify, cons_append, append_assoc]
      rw [htext, cons_append] at hstep ⊢
      rw [parseValue_items hc hspace, hstep, normal, normalItems, nil_append]
  | obj [] => by
    intro fuel rest hfuel _
    cases fuel with
    | zero => simp [stringify] at hfuel
    | succ fuel =>
      simp [stringify, parseValue, skipSpace_cons (c := 0x7B) (by decide),
        skipSpace_cons (c := 0x7D) (by decide), normal, normalMembers]
  | obj ((k, v) :: ms) => by
    intro fuel rest hfuel _
    have hmembers := readsMembers ms [] k v (reads v)
    simp only [stringify, length_cons, length_append] at hfuel
    cases fuel with
    | zero => omega
    | succ fuel =>
      have hstep := hmembers fuel rest (by omega)
      simp only [stringify, cons_append, append_assoc]
      rw [parseValue_members, hstep, normal, normalMembers]

theorem readsItems : ∀ (xs acc : List Json) (x : Json), Reads x → ∀ (fuel : ℕ) (rest : JsString),
    (stringify x).length + (stringifyItems xs).length ≤ fuel →
    parseItems fuel acc (stringify x ++ (stringifyItems xs ++ rest)) =
      some (arr (acc ++ normal x :: normalItems xs), rest)
  | [], acc, x, hx, fuel, rest, hfuel => by
    cases fuel with
    | zero => simp [stringifyItems] at hfuel
    | succ fuel =>
      have hvalue := hx fuel (stringifyItems [] ++ rest)
        (by simp [stringifyItems] at hfuel; omega) (endsNumber_items _ _)
      exact parseItems_close hvalue
  | y :: ys, acc, x, hx, fuel, rest, hfuel => by
    rw [stringifyItems, length_cons, length_append] at hfuel
    cases fuel with
    | zero => omega
    | succ fuel =>
      have hvalue := hx fuel (stringifyItems (y :: ys) ++ rest) (by omega) (endsNumber_items _ _)
      have hrest := readsItems ys (acc ++ [normal x]) y (reads y) fuel rest (by omega)
      rw [stringifyItems, cons_append, append_assoc] at hvalue ⊢
      rw [parseItems_comma hvalue, hrest, normalItems]
      simp

theorem readsMembers : ∀ (ms acc : List (JsString × Json)) (k : JsString) (v : Json), Reads v →
    ∀ (fuel : ℕ) (rest : JsString),
    (quote k).length + (stringify v).length + (stringifyMembers ms).length ≤ fuel →
    parseMembers fuel acc (quote k ++ 0x3A :: (stringify v ++ (stringifyMembers ms ++ rest))) =
      some (obj (normalMembers (bind k (normal v) acc) ms), rest)
  | [], acc, k, v, hv, fuel, rest, hfuel => by
    cases fuel with
    | zero => simp [stringifyMembers] at hfuel
    | succ fuel =>
      have hvalue := hv fuel (stringifyMembers [] ++ rest)
        (by simp [stringifyMembers] at hfuel; omega) (endsNumber_members _ _)
      exact parseMembers_close hvalue
  | (k', v') :: ms, acc, k, v, hv, fuel, rest, hfuel => by
    simp only [stringifyMembers, length_cons, length_append] at hfuel
    cases fuel with
    | zero => omega
    | succ fuel =>
      have hvalue := hv fuel (stringifyMembers ((k', v') :: ms) ++ rest) (by omega)
        (endsNumber_members _ _)
      have hrest := readsMembers ms (bind k (normal v) acc) k' v' (reads v') fuel rest (by omega)
      simp only [stringifyMembers, cons_append, append_assoc] at hvalue ⊢
      rw [parseMembers_comma hvalue, hrest, normalMembers]

end

lemma parse_stringify (j : Json) : parse (stringify j) = some (normal j) := by
  have hread := reads j (stringify j).length [] le_rfl (by simp [EndsNumber])
  rw [append_nil] at hread
  simp [parse, hread, skipSpace]

lemma stringify_append_inj {j j' : Json} {a b : JsString} (ha : EndsNumber a)
    (hb : EndsNumber b) (h : stringify j ++ a = stringify j' ++ b) :
    normal j = normal j' ∧ a = b := by
  have hread := reads j (max (stringify j).length (stringify j').length) a (le_max_left _ _) ha
  have hread' := reads j' (max (stringify j).length (stringify j').length) b (le_max_right _ _) hb
  rw [h, hread', Option.some.injEq, Prod.mk.injEq] at hread
  exact ⟨hread.1.symm, hread.2.symm⟩

/-! ### The text is a sequence of scalar values -/

section Paired

open Utf8

lemma paired_of_small {s : JsString} (h : ∀ u ∈ s, u < 0x80) : paired s = true := by
  have hplain : ∀ u : UInt16, u < 0x80 → isLead u = false ∧ isTrail u = false := by
    intro u hu
    have hu' : u.toNat < 0x80 := hu
    constructor
    · rw [← Bool.not_eq_true, isLead_iff]
      omega
    · rw [← Bool.not_eq_true, isTrail_iff]
      omega
  induction s using paired.induct with
  | case1 => rfl
  | case2 u =>
    obtain ⟨hlead, htrail⟩ := hplain u (h u mem_cons_self)
    simp [paired, hlead, htrail]
  | case3 u v rest hu ih =>
    rw [(hplain u (h u mem_cons_self)).1] at hu
    cases hu
  | case4 u v rest hu ih =>
    rw [paired, if_neg hu, Bool.and_eq_true, (hplain u (h u mem_cons_self)).2]
    exact ⟨rfl, ih fun w hw => h w (mem_cons_of_mem _ hw)⟩

lemma paired_cons {u : UInt16} (hu : u < 0x80) {s : JsString} (hs : paired s = true) :
    paired (u :: s) = true :=
  paired_append (a := [u]) (paired_of_small (by simpa using hu)) hs

lemma small_hex4 (u : UInt16) : ∀ c ∈ hex4 u, c < 0x80 := by
  have hdigit : ∀ n < 16, hexDigit n < 0x80 := by decide
  intro c hc
  simp only [hex4, List.mem_cons, List.not_mem_nil, or_false] at hc
  rcases hc with rfl | rfl | rfl | rfl
  all_goals
    refine hdigit _ ?_
    have hlt := u.toNat_lt
    omega

lemma paired_quoteUnit (u : UInt16) : paired (quoteUnit u) = true := by
  unfold quoteUnit
  split
  · next letter hletter =>
    refine paired_of_small fun c hc => ?_
    have hsmall : ∀ v letter : UInt16, shortEscape? v = some letter → letter < 0x80 := by
      intro v letter h
      unfold shortEscape? at h
      split_ifs at h <;> cases h <;> decide
    simp only [List.mem_cons, List.not_mem_nil, or_false] at hc
    rcases hc with rfl | rfl
    · decide
    · exact hsmall u _ hletter
  · split
    · refine paired_of_small fun c hc => ?_
      simp only [List.mem_cons] at hc
      rcases hc with rfl | rfl | hc
      · decide
      · decide
      · exact small_hex4 u c hc
    · next hplain =>
      rw [not_or, not_or, Bool.not_eq_true, Bool.not_eq_true] at hplain
      simp [paired, hplain.2.1, hplain.2.2]

lemma paired_quoteUnits (s : JsString) : paired (quoteUnits s) = true := by
  induction s using quoteUnits.induct with
  | case1 => rfl
  | case2 u => exact paired_quoteUnit u
  | case3 u v rest hpair ih =>
    rw [quoteUnits, if_pos hpair, paired, if_pos hpair.1, hpair.2, ih]
    rfl
  | case4 u v rest hpair ih =>
    rw [quoteUnits, if_neg hpair]
    exact paired_append (paired_quoteUnit u) ih

lemma paired_quote (s : JsString) : paired (quote s) = true :=
  paired_cons (by decide) (paired_append (paired_quoteUnits s) (by decide))

lemma small_decimal (n : ℕ) : ∀ c ∈ decimal n, c < 0x80 := by
  intro c hc
  have hdigit := of_decide_eq_true (isDigit_of_mem_decimal hc)
  exact lt_of_le_of_lt hdigit.2 (by decide)

lemma small_zeros (n : ℕ) : ∀ c ∈ zeros n, c < 0x80 := by
  intro c hc
  rw [eq_of_mem_replicate hc]
  decide

lemma small_formatDecimal (m : ℕ) (e : ℤ) : ∀ c ∈ formatDecimal m e, c < 0x80 := by
  have hsign : ∀ n, signUnit n < 0x80 := by
    intro n
    unfold signUnit
    split <;> decide
  intro c hc
  simp only [formatDecimal] at hc
  split_ifs at hc <;>
    simp only [mem_append, mem_cons] at hc <;>
    rcases hc with hc | hc <;>
    grind [small_decimal, small_zeros]

lemma paired_numberText (x : JsNumber) : paired (numberText x) = true := by
  refine paired_of_small fun c hc => ?_
  unfold numberText at hc
  split at hc
  · split at hc
    · rw [mem_singleton] at hc
      subst hc
      decide
    · rcases mem_append.1 hc with hc | hc
      · split at hc
        · rw [mem_singleton] at hc
          subst hc
          decide
        · cases hc
      · exact small_formatDecimal _ _ c hc
  · have hsmall : (("null".toJs).all fun c => decide (c < 0x80)) = true := by decide
    exact of_decide_eq_true (all_eq_true.1 hsmall c hc)

mutual

theorem paired_stringify : ∀ j : Json, paired (stringify j) = true
  | null => by decide
  | bool true => by decide
  | bool false => by decide
  | num x => paired_numberText x
  | str s => paired_quote s
  | arr [] => by decide
  | arr (x :: xs) =>
    paired_cons (by decide) (paired_append (paired_stringify x) (paired_stringifyItems xs))
  | obj [] => by decide
  | obj ((k, v) :: ms) =>
    paired_cons (by decide) (paired_append (paired_quote k) (paired_cons (by decide)
      (paired_append (paired_stringify v) (paired_stringifyMembers ms))))

theorem paired_stringifyItems : ∀ xs : List Json, paired (stringifyItems xs) = true
  | [] => by decide
  | x :: xs =>
    paired_cons (by decide) (paired_append (paired_stringify x) (paired_stringifyItems xs))

theorem paired_stringifyMembers :
    ∀ ms : List (JsString × Json), paired (stringifyMembers ms) = true
  | [] => by decide
  | (k, v) :: ms =>
    paired_cons (by decide) (paired_append (paired_quote k) (paired_cons (by decide)
      (paired_append (paired_stringify v) (paired_stringifyMembers ms))))

end

lemma stripMark_stringify (j : Json) : stripMark (stringify j) = stringify j := by
  have hhead : ∀ {c : UInt16} {text : JsString}, c ≠ 0xFEFF → stripMark (c :: text) = c :: text :=
    fun hc => if_neg hc
  cases j with
  | null => decide
  | bool b => cases b <;> decide
  | num x =>
    cases x with
    | nan => decide
    | infinity negative => cases negative <;> decide
    | finite x =>
      obtain ⟨c, text, htext, hc⟩ := numberText_cons x
      rw [stringify, htext]
      refine hhead ?_
      rintro rfl
      exact absurd hc (by decide)
  | str s => exact hhead (by decide)
  | arr xs => cases xs <;> exact hhead (by decide)
  | obj ms => cases ms <;> exact hhead (by decide)

lemma decode_encode_stringify (j : Json) : decode (encode (stringify j)) = stringify j := by
  rw [decode_encode (paired_stringify j), stripMark_stringify]

end Paired

end Json
