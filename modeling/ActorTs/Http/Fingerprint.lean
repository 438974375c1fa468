import ActorTs.Http.IdempotencyKey
import Mathlib.Data.List.TakeWhile

/-!
# What a fingerprint tells

The bytes that are hashed start with a line that ends at the first line feed, the line's first
space ends the method, and the target's first question mark ends the path. So the fingerprint
of a request tells its method, its path, its canonical query and its body.
-/

lemma List.eq_of_append_separator {α : Type*} {a : α} {x y z w : List α} (hx : a ∉ x)
    (hy : a ∉ y) (h : x ++ a :: z = y ++ a :: w) : x = y ∧ z = w := by
  induction x generalizing y with
  | nil =>
    cases y with
    | nil => exact ⟨rfl, (List.cons.inj h).2⟩
    | cons b y => exact absurd ((List.cons.inj h).1 ▸ List.mem_cons_self) hy
  | cons b x ih =>
    cases y with
    | nil => exact absurd ((List.cons.inj h).1 ▸ List.mem_cons_self) hx
    | cons c y =>
      obtain ⟨rfl, htail⟩ := List.cons.inj h
      rw [List.mem_cons, not_or] at hx hy
      obtain ⟨rfl, hz⟩ := ih hx.2 hy.2 htail
      exact ⟨rfl, hz⟩

open List

namespace Utf8

lemma eq_of_small_mem_scalarBytes {b n : ℕ} (hb : b < 0x80) (hn : IsScalar n)
    (h : UInt8.ofNat b ∈ scalarBytes n) : n = b := by
  have hbyte : ∀ {k : ℕ}, k < 0x100 → UInt8.ofNat b = UInt8.ofNat k → b = k := by
    intro k hk heq
    have hnat := congrArg UInt8.toNat heq
    rwa [toNat_byte (by omega), toNat_byte hk] at hnat
  unfold IsScalar at hn
  unfold scalarBytes at h
  split at h
  · exact (hbyte (by omega) (mem_singleton.1 h)).symm
  · split at h
    · simp only [mem_cons, not_mem_nil, or_false] at h
      rcases h with h | h
      · exact absurd (hbyte (by omega) h) (by omega)
      · exact absurd (hbyte (by omega) h) (by omega)
    · split at h
      · simp only [mem_cons, not_mem_nil, or_false] at h
        rcases h with h | h | h
        · exact absurd (hbyte (by omega) h) (by omega)
        · exact absurd (hbyte (by omega) h) (by omega)
        · exact absurd (hbyte (by omega) h) (by omega)
      · simp only [mem_cons, not_mem_nil, or_false] at h
        rcases h with h | h | h | h
        · exact absurd (hbyte (by omega) h) (by omega)
        · exact absurd (hbyte (by omega) h) (by omega)
        · exact absurd (hbyte (by omega) h) (by omega)
        · exact absurd (hbyte (by omega) h) (by omega)

/-- A character of one byte is found in the encoding only where it is in the string. -/
lemma mem_of_small_mem_encode {u : UInt16} (hu : u < 0x80) {s : JsString}
    (hs : paired s = true) (h : UInt8.ofNat u.toNat ∈ encode s) : u ∈ s := by
  obtain ⟨n, hn, hmem⟩ := mem_flatMap.1 h
  have hsmall : u.toNat < 0x80 := UInt16.lt_iff_toNat_lt.1 hu
  obtain rfl := eq_of_small_mem_scalarBytes hsmall (isScalar_of_mem_scalars n hn) hmem
  rw [← units_scalars hs]
  exact mem_flatMap.2 ⟨u.toNat, hn, units_toNat u ▸ mem_singleton.2 rfl⟩

end Utf8

namespace ActorTs.Http

lemma HttpMethod.text_injective {a b : HttpMethod} (h : a.text = b.text) : a = b := by
  cases a <;> cases b <;> first | rfl | exact absurd h (by decide)

lemma HttpMethod.space_notMem_text (a : HttpMethod) : 0x20 ∉ a.text := by
  cases a <;> decide

lemma HttpMethod.lineFeed_notMem_text (a : HttpMethod) : 0x0A ∉ a.text := by
  cases a <;> decide

lemma HttpMethod.paired_text (a : HttpMethod) : Utf8.paired a.text = true := by
  cases a <;> decide

lemma pathWithoutQuery_of_notMem {path : JsString} (h : 0x3F ∉ path) :
    pathWithoutQuery path = path := by
  refine takeWhile_eq_self_iff.2 fun u hu => decide_eq_true ?_
  rintro rfl
  exact h hu

variable (request : HttpRequest)

lemma requestTarget_eq :
    requestTarget request = request.path ++
      if canonicalQuery request.query = [] then [] else 0x3F :: canonicalQuery request.query := by
  unfold requestTarget
  rw [pathWithoutQuery_of_notMem request.pathNoQuery]
  rfl

lemma printable_canonicalQuery (query : OrderedMap JsString QueryValue) :
    ∀ u ∈ canonicalQuery query, FormUrlEncoded.Printable u :=
  FormUrlEncoded.printable_serialize _

lemma lineFeed_notMem_requestTarget : 0x0A ∉ requestTarget request := by
  rw [requestTarget_eq, mem_append, not_or]
  refine ⟨request.pathNoLineFeed, fun h => ?_⟩
  split at h
  · exact not_mem_nil h
  · rcases mem_cons.1 h with h | h
    · exact absurd h (by decide)
    · exact absurd (printable_canonicalQuery _ _ h) (by decide)

lemma paired_requestTarget : Utf8.paired (requestTarget request) = true := by
  rw [requestTarget_eq]
  refine Utf8.paired_append request.pathPaired (Json.paired_of_small fun u hu => ?_)
  split at hu
  · exact absurd hu not_mem_nil
  · rcases mem_cons.1 hu with rfl | hu
    · decide
    · exact (printable_canonicalQuery _ u hu).2.trans (by decide)

lemma requestTarget_inj {a b : HttpRequest} (h : requestTarget a = requestTarget b) :
    a.path = b.path ∧ canonicalQuery a.query = canonicalQuery b.query := by
  rw [requestTarget_eq, requestTarget_eq] at h
  by_cases ha : canonicalQuery a.query = []
  · by_cases hb : canonicalQuery b.query = []
    · rw [if_pos ha, if_pos hb, append_nil, append_nil] at h
      exact ⟨h, ha.trans hb.symm⟩
    · rw [if_pos ha, if_neg hb, append_nil] at h
      refine absurd (h ▸ a.pathNoQuery) (not_not.2 ?_)
      exact mem_append_right _ mem_cons_self
  · by_cases hb : canonicalQuery b.query = []
    · rw [if_neg ha, if_pos hb, append_nil] at h
      refine absurd (h.symm ▸ b.pathNoQuery) (not_not.2 ?_)
      exact mem_append_right _ mem_cons_self
    · rw [if_neg ha, if_neg hb] at h
      exact eq_of_append_separator a.pathNoQuery b.pathNoQuery h

/-- The line in front of the body. -/
def requestLine (request : HttpRequest) : JsString :=
  request.method.text ++ 0x20 :: requestTarget request

lemma lineFeed_notMem_requestLine : 0x0A ∉ requestLine request := by
  rw [requestLine, mem_append, mem_cons, not_or, not_or]
  exact ⟨request.method.lineFeed_notMem_text, by decide, lineFeed_notMem_requestTarget request⟩

lemma paired_requestLine : Utf8.paired (requestLine request) = true := by
  have hspace : Utf8.paired [0x20] = true := by decide
  exact Utf8.paired_append request.method.paired_text
    (Utf8.paired_append hspace (paired_requestTarget request))

lemma fingerprintInput_eq :
    fingerprintInput request =
      Utf8.encode (requestLine request) ++ 0x0A :: request.body.getD [] := by
  have hline : request.method.text ++ " ".toJs ++ requestTarget request ++ "\n".toJs =
      requestLine request ++ [0x0A] := by
    rw [requestLine, append_assoc request.method.text]
    rfl
  have hfeed : Utf8.encode [0x0A] = [0x0A] := by decide
  rw [fingerprintInput, hline, Utf8.encode_append (paired_requestLine request), hfeed, append_assoc]
  rfl

/-- Two requests that are the same to the middleware. -/
structure SameRequest (a b : HttpRequest) : Prop where
  method : a.method = b.method
  path : a.path = b.path
  query : canonicalQuery a.query = canonicalQuery b.query
  body : a.body.getD [] = b.body.getD []

lemma lineFeed_notMem_encode : (0x0A : UInt8) ∉ Utf8.encode (requestLine request) := by
  intro h
  have hu : (0x0A : UInt16) < 0x80 := by decide
  exact lineFeed_notMem_requestLine request
    (Utf8.mem_of_small_mem_encode hu (paired_requestLine request) h)

lemma sameRequest_of_fingerprintInput_eq {a b : HttpRequest}
    (h : fingerprintInput a = fingerprintInput b) : SameRequest a b := by
  rw [fingerprintInput_eq, fingerprintInput_eq] at h
  obtain ⟨hline, hbody⟩ :=
    eq_of_append_separator (lineFeed_notMem_encode a) (lineFeed_notMem_encode b) h
  have hline := Utf8.eq_of_encode_eq (paired_requestLine a) (paired_requestLine b) hline
  obtain ⟨hmethod, htarget⟩ := eq_of_append_separator a.method.space_notMem_text
    b.method.space_notMem_text hline
  obtain ⟨hpath, hquery⟩ := requestTarget_inj htarget
  exact ⟨HttpMethod.text_injective hmethod, hpath, hquery, hbody⟩

lemma computeRequestFingerprint_eq_iff (runtime : Runtime) (a b : HttpRequest) :
    computeRequestFingerprint runtime a = computeRequestFingerprint runtime b ↔
      SameRequest a b := by
  constructor
  · intro h
    have hdigest := congrArg Base64.decode h
    rw [computeRequestFingerprint, computeRequestFingerprint, Base64.decode_encode,
      Base64.decode_encode] at hdigest
    exact sameRequest_of_fingerprintInput_eq (runtime.sha256Injective hdigest)
  · rintro ⟨hmethod, hpath, hquery, hbody⟩
    have hinput : fingerprintInput a = fingerprintInput b := by
      rw [fingerprintInput_eq, fingerprintInput_eq, requestLine, requestLine, requestTarget_eq,
        requestTarget_eq, hmethod, hpath, hquery, hbody]
    rw [computeRequestFingerprint, computeRequestFingerprint, hinput]

end ActorTs.Http
