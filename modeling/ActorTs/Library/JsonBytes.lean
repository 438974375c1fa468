import ActorTs.Library.Json

/-!
# The bytes of JSON text

JSON text escapes every surrogate that stands alone, so its pieces are encoded one by one:
`byteLength` of an object is the sum of what its members take, a comma between two of them,
and the braces.
-/

open List Bool

namespace Utf8

lemma scalars_append {a b : JsString} (ha : paired a = true) :
    scalars (a ++ b) = scalars a ++ scalars b := by
  induction a using paired.induct with
  | case1 => rfl
  | case2 u =>
    rw [paired, and_eq_true, not_eq_true', not_eq_true'] at ha
    cases b with
    | nil => simp [scalars]
    | cons v rest => simp [scalars, ha.1, ha.2]
  | case3 u v rest hu ih =>
    rw [paired, if_pos hu, and_eq_true] at ha
    simp [scalars, hu, ha.1, ih ha.2]
  | case4 u v rest hu ih =>
    rw [paired, if_neg hu, and_eq_true, not_eq_true'] at ha
    have hrest := ih ha.2
    rw [cons_append] at hrest
    simp [scalars, hu, ha.1, hrest]

lemma encode_append {a b : JsString} (ha : paired a = true) :
    encode (a ++ b) = encode a ++ encode b := by
  rw [encode, scalars_append ha, flatMap_append]
  rfl

lemma length_encode_cons {u : UInt16} (hu : u < 0x80) (s : JsString) :
    (encode (u :: s)).length = (encode s).length + 1 := by
  have hpaired : paired [u] = true :=
    Json.paired_of_small fun v hv => mem_singleton.1 hv ▸ hu
  have hone : (encode [u]).length = 1 := by
    rw [paired, and_eq_true, not_eq_true', not_eq_true'] at hpaired
    have hsmall : u.toNat < 0x80 := UInt16.lt_iff_toNat_lt.1 hu
    simp [encode, scalars, hpaired.1, hpaired.2, scalarBytes, hsmall]
  have happend := congrArg List.length (encode_append (b := s) hpaired)
  rw [singleton_append, length_append, hone, Nat.add_comm] at happend
  exact happend

end Utf8

namespace Json

open JsonText

def byteLength (j : Json) : ℕ := (Utf8.encode j.stringify).length

/-- What a member takes: its name in quotes, a colon and its value. -/
def memberBytes (m : JsString × Json) : ℕ :=
  (Utf8.encode (quote m.1)).length + 1 + byteLength m.2

lemma length_encode_member (k : JsString) (v : Json) (rest : JsString) :
    (Utf8.encode (quote k ++ 0x3A :: (stringify v ++ rest))).length =
      memberBytes (k, v) + (Utf8.encode rest).length := by
  rw [Utf8.encode_append (paired_quote k), length_append,
    Utf8.length_encode_cons (by decide), Utf8.encode_append (paired_stringify v),
    length_append, memberBytes, byteLength]
  ring

lemma length_encode_stringifyMembers (ms : List (JsString × Json)) :
    (Utf8.encode (stringifyMembers ms)).length = (ms.map fun m => memberBytes m + 1).sum + 1 := by
  induction ms with
  | nil => decide
  | cons m ms ih =>
    rw [stringifyMembers, Utf8.length_encode_cons (by decide), length_encode_member, ih,
      map_cons, sum_cons]
    ring

/-- An object takes its braces and its members, each with the comma behind it but for the
last. -/
lemma byteLength_obj {ms : List (JsString × Json)} (h : ms ≠ []) :
    byteLength (.obj ms) = (ms.map fun m => memberBytes m + 1).sum + 1 := by
  cases ms with
  | nil => exact absurd rfl h
  | cons m ms =>
    rw [byteLength, stringify, Utf8.length_encode_cons (by decide), length_encode_member,
      length_encode_stringifyMembers, map_cons, sum_cons]
    ring

lemma byteLength_obj_nil : byteLength (.obj []) = 2 := by decide

end Json
