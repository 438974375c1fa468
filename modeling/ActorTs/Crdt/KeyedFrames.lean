import ActorTs.Crdt.WireValidation
import ActorTs.Library.Json

/-!
# Frames that name their elements

The frame of a set or a map has a property for every key, and beside it the JSON text of
the element or key the property stands for. A decoder reads the text back and files the
property under the key its own identity function gives that value; without one it keeps
the sender's key. Properties that come under one key are combined.

`WireElement` is what is needed of the values.
-/

open List OrderedMap

namespace ActorTs

open Outcome

/-- Values that travel as JSON text. -/
class WireElement (E : Type) where
  stringify : E → JsString
  parse : JsString → Option E
  /-- What a value reads back as. -/
  normal : E → E
  parse_stringify : ∀ element, parse (stringify element) = some (normal element)
  normal_normal : ∀ element, normal (normal element) = normal element

instance : WireElement Json where
  stringify := Json.stringify
  parse := Json.parse
  normal := Json.normal
  parse_stringify := Json.parse_stringify
  normal_normal := Json.normal_normal

/-- The text of an id of a map is that of a string. -/
def parseIdString (text : JsString) : Option JsString :=
  match Json.parse text with
  | some (.str id) => some id
  | _ => none

instance : WireElement JsString where
  stringify := JsonText.quote
  parse := parseIdString
  normal := id
  parse_stringify id := by
    have hparse : Json.parse (JsonText.quote id) = some (.str id) := Json.parse_stringify (.str id)
    rw [parseIdString, hparse]
    rfl
  normal_normal _ := rfl

variable {E : Type} [WireElement E]

/-- JSON can say what the value is: what it reads back as has the same text. -/
def Representable (element : E) : Prop :=
  WireElement.stringify (WireElement.normal element) = WireElement.stringify element

/-- `JSON.parse`, with the text it refuses. -/
def parseElement (text : JsString) : Except CrdtDecodeError E :=
  match WireElement.parse text with
  | none => .error (.notJson text)
  | some element => .ok element

lemma yields_parseElement (element : E) :
    Yields (parseElement (WireElement.stringify element)) True (WireElement.normal element) := by
  refine Yields.of_eq_ok ?_ trivial
  rw [parseElement, WireElement.parse_stringify]

/-- The text of the element of a property. A frame of the old shape has no texts: there the
sender's key is the text. -/
def rawText (texts : Option (OrderedMap JsString JsString)) (wireKey : JsString) : JsString :=
  (texts.bind (·.get? wireKey)).getD wireKey

lemma rawText_toObject {α : Type} (m : OrderedMap JsString α) (text : α → JsString)
    {key : JsString} {a : α} (h : m.get? key = some a) :
    rawText (some (m.mapValues fun _ a => text a).toObject) key = text a := by
  simp [rawText, get?_mapValues, h]

/-- The key an element is filed under. -/
def keyUnder (custom : Option (E → JsString)) (wireKey : JsString) (element : E) : JsString :=
  match custom with
  | none => wireKey
  | some identity => identity element

/-- One turn of a decoder's loop: the sender's key, the key here, and what is filed. -/
structure Decoded (α : Type) where
  wireKey : JsString
  key : JsString
  entry : α

/-- The sender's keys that are not those of this replica. -/
def localKeys {α : Type} (decoded : List (Decoded α)) : OrderedMap JsString JsString :=
  OrderedMap.gather (fun _ key => key)
    ((decoded.filter fun d => d.key ≠ d.wireKey).map fun d => (d.wireKey, d.key))

lemma localKeys_eq_empty {α : Type} {decoded : List (Decoded α)}
    (h : ∀ d ∈ decoded, d.key = d.wireKey) : localKeys decoded = OrderedMap.empty := by
  have hfilter : decoded.filter (fun d => d.key ≠ d.wireKey) = [] := by
    refine filter_eq_nil_iff.2 fun d hd => ?_
    simp [h d hd]
  rw [localKeys, hfilter]
  rfl

/-- What is filed, key by key. -/
def fileUnder {α : Type} (combine : α → α → α) (decoded : List (Decoded α)) :
    OrderedMap JsString α :=
  OrderedMap.gather combine (decoded.map fun d => (d.key, d.entry))

section FileUnder

variable {α β : Type} {combine : α → α → α} {decoded : List (Decoded α)}

lemma exists_get?_fileUnder {P : α → Prop} (hcombine : ∀ a b, P (combine a b) ↔ P a ∨ P b)
    (key : JsString) :
    (∃ a, (fileUnder combine decoded).get? key = some a ∧ P a) ↔
      ∃ d ∈ decoded, d.key = key ∧ P d.entry := by
  rw [fileUnder, exists_get?_gather hcombine]
  constructor
  · rintro ⟨entry, hd, hP⟩
    obtain ⟨d, hd, heq⟩ := mem_map.1 hd
    rw [Prod.mk.injEq] at heq
    exact ⟨d, hd, heq.1, heq.2 ▸ hP⟩
  · rintro ⟨d, hd, rfl, hP⟩
    exact ⟨d.entry, mem_map.2 ⟨d, hd, rfl⟩, hP⟩

lemma forall_get?_fileUnder {P : JsString → α → Prop} (hdecoded : ∀ d ∈ decoded, P d.key d.entry)
    (hcombine : ∀ key a b, P key a → P key b → P key (combine a b)) {key : JsString} {a : α}
    (h : (fileUnder combine decoded).get? key = some a) : P key a := by
  refine forall_get?_gather ?_ hcombine h
  intro key a hmem
  obtain ⟨d, hd, heq⟩ := mem_map.1 hmem
  rw [Prod.mk.injEq] at heq
  exact heq.1 ▸ heq.2 ▸ hdecoded d hd

lemma fileUnder_of_keyed (combine : β → β → β) (m : OrderedMap JsString α)
    (f : JsString → α → β) :
    fileUnder combine (m.toObject.entries.map fun p => ⟨p.1, p.1, f p.1 p.2⟩) =
      (m.mapValues f).toObject := by
  rw [toObject_mapValues, fileUnder, map_map]
  ext1
  exact entries_gather (m.toObject.mapValues f).nodupKeys combine

end FileUnder

section DecodeAll

variable {α β γ : Type} {d : Decoded β}

/-- The loop of a decoder over the properties of an object. -/
def decodeAll (source : OrderedMap JsString γ) (what : JsString)
    (decode : JsString × γ → Except CrdtDecodeError (Decoded β)) :
    Except CrdtDecodeError (List (Decoded β)) := do
  let entries ← safeEntries source what
  entries.mapM decode

lemma yields_decodeAll {m : OrderedMap JsString α} {encode : JsString → α → γ}
    {decode : JsString × γ → Except CrdtDecodeError (Decoded β)} {P : JsString → α → Prop}
    {g : JsString → α → Decoded β}
    (h : ∀ k a, m.get? k = some a → Yields (decode (k, encode k a)) (P k a) (g k a))
    (what : JsString) :
    Yields (decodeAll (m.mapValues encode).toObject what decode)
      (Admissible m ∧ ∀ k a, m.get? k = some a → P k a)
      (m.toObject.entries.map fun p => g p.1 p.2) := by
  have hmap : Yields ((m.mapValues encode).toObject.entries.mapM decode)
      (∀ p ∈ m.toObject.entries, P p.1 p.2) (m.toObject.entries.map fun p => g p.1 p.2) := by
    rw [toObject_mapValues, entries_mapValues, mapM_map]
    refine Yields.mapM fun p hp => h p.1 p.2 ?_
    exact (mem_toObject_iff m p.1 p.2).1 hp
  refine ((yields_safeEntries (m.mapValues encode).toObject what).bind hmap).iff ?_
  exact and_congr (admissible_toObject encode m) (forall_mem_toObject m P)

lemma exists_of_decodeAll {source : OrderedMap JsString γ} {what : JsString}
    {decode : JsString × γ → Except CrdtDecodeError (Decoded β)} {decoded : List (Decoded β)}
    (h : decodeAll source what decode = .ok decoded) (hd : d ∈ decoded) :
    ∃ p, decode p = .ok d := by
  obtain ⟨entries, -, h⟩ := bind_eq_ok h
  obtain ⟨p, -, hp⟩ := exists_of_forall₂ (forall₂_of_mapM_eq_ok h) hd
  exact ⟨p, hp⟩

/-- A property of the frame of a map: the text of the key, and the frame of the value. -/
def decodeKeyed (texts : Option (OrderedMap JsString JsString)) (custom : Option (E → JsString))
    (decodeValue : γ → Except CrdtDecodeError α) (mk : E → α → β) (p : JsString × γ) :
    Except CrdtDecodeError (Decoded β) := do
  let key ← parseElement (rawText texts p.1)
  let value ← decodeValue p.2
  pure ⟨p.1, keyUnder custom p.1 key, mk key value⟩

/-- The entry that a key and a value are read as. -/
def decodedKeyed (custom : Option (E → JsString)) (mk : E → α → β) (wireKey : JsString)
    (key : E) (value : α) : Decoded β :=
  ⟨wireKey, keyUnder custom wireKey (WireElement.normal key), mk (WireElement.normal key) value⟩

lemma yields_decodeKeyed {texts : Option (OrderedMap JsString JsString)}
    (custom : Option (E → JsString)) {decodeValue : γ → Except CrdtDecodeError α}
    (mk : E → α → β) {wireKey : JsString} {key : E} {frame : γ} {value : α} {P : Prop}
    (htext : rawText texts wireKey = WireElement.stringify key)
    (hvalue : Yields (decodeValue frame) P value) :
    Yields (decodeKeyed texts custom decodeValue mk (wireKey, frame)) P
      (decodedKeyed custom mk wireKey key value) := by
  rw [decodeKeyed, htext]
  refine Yields.iff (Yields.bind (yields_parseElement key) (Yields.seq _ hvalue)) ?_
  exact and_iff_right trivial

lemma decodeKeyed_eq_ok {texts : Option (OrderedMap JsString JsString)}
    {custom : Option (E → JsString)} {decodeValue : γ → Except CrdtDecodeError α} {mk : E → α → β}
    {p : JsString × γ} (h : decodeKeyed texts custom decodeValue mk p = .ok d) :
    ∃ key value, decodeValue p.2 = .ok value ∧
      d = ⟨p.1, keyUnder custom p.1 key, mk key value⟩ := by
  obtain ⟨key, -, h⟩ := bind_eq_ok h
  obtain ⟨value, hvalue, h⟩ := bind_eq_ok h
  cases h
  exact ⟨key, value, hvalue, rfl⟩

end DecodeAll

end ActorTs
