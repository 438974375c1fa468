import ActorTs.Cache.InMemoryCacheOptions
import ActorTs.Library.Loop
import ActorTs.Library.Machine

/-!
# The in-memory cache

The entries of a cache are kept in buckets, one for each reserved prefix and one for the keys
that have none of them, and within a bucket in two halves. A key that is new to the cache
makes room for itself first: in its bucket while that is at its quota, then in the remainder
while the cache is full, and in any bucket once the remainder is empty.

The remainder is the bucket of the empty prefix. Each operation is given the readings of the clock
that it takes. What is evicted is noted; the code keeps no such note and nothing reads it.
-/

namespace ActorTs.Cache

variable {V : Type}

/-- A number, or another value with the word `typeof` has for it. -/
inductive CacheValue (V : Type) where
  | number (x : JsNumber)
  | other (type : JsString) (value : V)
  deriving DecidableEq

structure Entry (V : Type) where
  value : CacheValue V
  expiresAt : JsNumber
  expiryCeiling : Option JsNumber
  deriving DecidableEq

structure Bucket (V : Type) where
  opportunistic : OrderedMap JsString (Entry V)
  guaranteed : OrderedMap JsString (Entry V)

namespace CacheConfig

/-- The prefixes, the longest first. -/
def reservedPrefixes (c : CacheConfig) : List JsString :=
  c.quotas.keys.mergeSort fun a b => decide (b.length ≤ a.length)

/-- The prefix whose bucket a key belongs to. -/
def bucketFor (c : CacheConfig) (key : JsString) : JsString :=
  (c.reservedPrefixes.find? fun pre => pre.isPrefixOf key).getD []

/-- The prefixes of all buckets, in the order in which the buckets were made. -/
def names (c : CacheConfig) : List JsString := [] :: c.quotas.keys

def expiryFor (c : CacheConfig) (now : JsNumber) (ttlMs : Option JsNumber) :
    JsNumber × Option JsNumber :=
  match ttlMs with
  | some ttlMs => (now.add ttlMs, none)
  | none =>
    let lifetime := if JsNumber.lt (.ofInt 0) c.timeToLiveMs then now.add c.timeToLiveMs
      else .infinity false
    if c.timeToIdleMs.eq (.ofInt 0) then (lifetime, none)
    else (lifetime.min (now.add c.timeToIdleMs), some lifetime)

def extendIdleWindow (c : CacheConfig) (entry : Entry V) (now : JsNumber) : Entry V :=
  match entry.expiryCeiling with
  | none => entry
  | some ceiling =>
    if c.timeToIdleMs.eq (.ofInt 0) then entry
    else { entry with
      expiresAt := ceiling.min (entry.expiresAt.max (now.add c.timeToIdleMs)) }

end CacheConfig

namespace Bucket

def empty : Bucket V := ⟨.empty, .empty⟩

def size (b : Bucket V) : ℕ := b.opportunistic.size + b.guaranteed.size

def has (b : Bucket V) (key : JsString) : Bool :=
  b.guaranteed.has key || b.opportunistic.has key

def lookup (b : Bucket V) (key : JsString) : Option (Entry V) :=
  (b.guaranteed.get? key).or (b.opportunistic.get? key)

def remove (b : Bucket V) (key : JsString) : Bucket V :=
  ⟨b.opportunistic.delete key, b.guaranteed.delete key⟩

def inheritsGuarantee (b : Bucket V) (key : JsString) (now expiresAt : JsNumber) : Bool :=
  expiresAt.isFinite && (b.guaranteed.get? key).any fun held => now.lt held.expiresAt

def write (b : Bucket V) (key : JsString) (entry : Entry V) (carriesGuarantee : Bool) : Bucket V :=
  if carriesGuarantee then ⟨b.opportunistic.delete key, b.guaranteed.set key entry⟩
  else ⟨b.opportunistic.set key entry, b.guaranteed.delete key⟩

def adoptAsGuaranteed (b : Bucket V) (key : JsString) (entry : Entry V) : Bucket V :=
  if b.opportunistic.has key then ⟨b.opportunistic.delete key, b.guaranteed.set key entry⟩ else b

/-- The entry itself is changed by the extension, so that the one that is bound again is the
extended one. -/
def bump (c : CacheConfig) (b : Bucket V) (key : JsString) (entry : Entry V) (now : JsNumber) :
    Bucket V :=
  if b.guaranteed.has key then
    { b with guaranteed := (b.guaranteed.delete key).set key entry }
  else
    { b with opportunistic :=
        (b.opportunistic.delete key).set key (c.extendIdleWindow entry now) }

/-- The least recently used entry goes, and no guaranteed one while there is another. -/
def evict (b : Bucket V) : Option (JsString × Bucket V) :=
  if 0 < b.opportunistic.size then
    b.opportunistic.keys.head?.map fun key =>
      (key, { b with opportunistic := b.opportunistic.delete key })
  else
    b.guaranteed.keys.head?.map fun key =>
      (key, { b with guaranteed := b.guaranteed.delete key })

def sweepExpired (now : JsNumber) (b : Bucket V) : Bucket V :=
  ⟨b.opportunistic.filter fun p => !p.2.expiresAt.le now,
    b.guaranteed.filter fun p => !p.2.expiresAt.le now⟩

end Bucket

/-- An eviction: the key that went, and the bucket it went from as it was before. -/
structure Eviction (V : Type) where
  name : JsString
  key : JsString
  bucket : Bucket V

structure InMemoryCache (V : Type) where
  buckets : JsString → Bucket V
  evictions : List (Eviction V)

namespace InMemoryCache

def initial : InMemoryCache V := ⟨fun _ => .empty, []⟩

def totalSize (c : CacheConfig) (s : InMemoryCache V) : ℕ :=
  (c.names.map fun name => (s.buckets name).size).sum

/-- Change one bucket. -/
def update (name : JsString) (f : Bucket V → Bucket V) (s : InMemoryCache V) : InMemoryCache V :=
  { s with buckets := Function.update s.buckets name (f (s.buckets name)) }

def evictFrom (name : JsString) (s : InMemoryCache V) : Option (InMemoryCache V) :=
  (s.buckets name).evict.map fun victim =>
    ⟨Function.update s.buckets name victim.2,
      s.evictions ++ [⟨name, victim.1, s.buckets name⟩]⟩

def evictFromAnyBucket (c : CacheConfig) (s : InMemoryCache V) : Option (InMemoryCache V) :=
  match c.names.find? fun name => decide (0 < (s.buckets name).opportunistic.size) with
  | some name => evictFrom name s
  | none =>
    match c.names.find? fun name => decide (0 < (s.buckets name).guaranteed.size) with
    | some name => evictFrom name s
    | none => none

/-- One round of the loop that brings a bucket below its quota. -/
def evictAtQuota (c : CacheConfig) (name : JsString) (s : InMemoryCache V) :
    Option (InMemoryCache V) :=
  match c.quotas.get? name with
  | none => none
  | some quota => if quota ≤ (s.buckets name).size then evictFrom name s else none

/-- One round of the loop that brings the cache below its bound. -/
def evictAtBound (c : CacheConfig) (s : InMemoryCache V) : Option (InMemoryCache V) :=
  match c.maxEntries with
  | none => none
  | some maxEntries =>
    if maxEntries ≤ totalSize c s then (evictFrom [] s).or (evictFromAnyBucket c s) else none

/-- Each round takes an entry, so that the rounds are as many as the entries at most. -/
def evictIfNeeded (c : CacheConfig) (incomingKey : JsString) (s : InMemoryCache V) :
    InMemoryCache V :=
  let name := c.bucketFor incomingKey
  if (s.buckets name).has incomingKey then s
  else
    let s := Loop.repeatWhile (evictAtQuota c name) (s.buckets name).size s
    Loop.repeatWhile (evictAtBound c) (totalSize c s) s

/-- Make room for a key and write its entry. -/
def store (c : CacheConfig) (key : JsString) (entry : Entry V) (carriesGuarantee : Bool)
    (s : InMemoryCache V) : InMemoryCache V :=
  update (c.bucketFor key) (fun b => b.write key entry carriesGuarantee) (evictIfNeeded c key s)

inductive Answer (V : Type) where
  | value (value : Option (CacheValue V))
  | count (x : JsNumber)
  | flag (b : Bool)
  | values (values : OrderedMap JsString (CacheValue V))
  | done
  | error (message : JsString)
  deriving DecidableEq

/-- The message of the error for a time to live that is out of range. -/
def assertTtl (op : JsString) (ttlMs : Option JsNumber) : Option JsString :=
  match ttlMs with
  | none => none
  | some x =>
    if x.isFinite = false ∨ x.le (.ofInt 0) = true then
      some ("InMemoryCache." ++ op ++
        ": ttlMs must be a positive finite number, got " ++ x.text)
    else none

def nonNumericMessage (key type : JsString) : JsString :=
  "InMemoryCache.incr: key '" ++ key ++ "' holds a non-numeric value (" ++ type ++
    ")"

def get (c : CacheConfig) (key : JsString) (now bumpAt : JsNumber) (s : InMemoryCache V) :
    InMemoryCache V × Answer V :=
  let name := c.bucketFor key
  match (s.buckets name).lookup key with
  | none => (s, .value none)
  | some entry =>
    if entry.expiresAt.le now then (s.update name fun b => b.remove key, .value none)
    else (s.update name fun b => b.bump c key entry bumpAt, .value (some entry.value))

/-- Write a value with the lifetime it is given or the one that is configured. -/
def put (c : CacheConfig) (key : JsString) (value : CacheValue V) (ttlMs : Option JsNumber)
    (now : JsNumber) (s : InMemoryCache V) : InMemoryCache V :=
  let expiry := c.expiryFor now ttlMs
  let carriesGuarantee := (s.buckets (c.bucketFor key)).inheritsGuarantee key now expiry.1
  store c key ⟨value, expiry.1, expiry.2⟩ carriesGuarantee s

def set (c : CacheConfig) (key : JsString) (value : CacheValue V) (ttlMs : Option JsNumber)
    (now : JsNumber) (s : InMemoryCache V) : InMemoryCache V × Answer V :=
  match assertTtl "set" ttlMs with
  | some message => (s, .error message)
  | none => (put c key value ttlMs now s, .done)

/-- Claims and counters do not expire unless they are told to. -/
def claimExpiry (now : JsNumber) (ttlMs : Option JsNumber) : JsNumber :=
  match ttlMs with
  | none => .infinity false
  | some ttlMs => now.add ttlMs

/-- Write a claim or a fresh counter. -/
def claim (c : CacheConfig) (key : JsString) (value : CacheValue V) (ttlMs : Option JsNumber)
    (now : JsNumber) (s : InMemoryCache V) : InMemoryCache V :=
  let expiresAt := claimExpiry now ttlMs
  store c key ⟨value, expiresAt, none⟩ expiresAt.isFinite s

/-- The entry of a counter, with its new value, is adopted if it expires, then bumped. -/
def advance (c : CacheConfig) (key : JsString) (entry : Entry V) (bumpAt : JsNumber)
    (b : Bucket V) : Bucket V :=
  (if entry.expiresAt.isFinite then b.adoptAsGuaranteed key entry else b).bump c key entry bumpAt

def incr (c : CacheConfig) (key : JsString) (ttlMs : Option JsNumber) (now bumpAt : JsNumber)
    (s : InMemoryCache V) : InMemoryCache V × Answer V :=
  match assertTtl "incr" ttlMs with
  | some message => (s, .error message)
  | none =>
    let name := c.bucketFor key
    let fresh := (claim c key (.number (.ofInt 1)) ttlMs now s, Answer.count (.ofInt 1))
    match (s.buckets name).lookup key with
    | none => fresh
    | some entry =>
      if entry.expiresAt.le now then fresh
      else
        match entry.value with
        | .other type _ => (s, .error (nonNumericMessage key type))
        | .number x =>
          let next := x.add (.ofInt 1)
          (s.update name (advance c key { entry with value := .number next } bumpAt),
            .count next)

def setIfAbsent (c : CacheConfig) (key : JsString) (value : CacheValue V)
    (ttlMs : Option JsNumber) (now : JsNumber) (s : InMemoryCache V) :
    InMemoryCache V × Answer V :=
  match assertTtl "setIfAbsent" ttlMs with
  | some message => (s, .error message)
  | none =>
    match (s.buckets (c.bucketFor key)).lookup key with
    | none => (claim c key value ttlMs now s, .flag true)
    | some entry =>
      if now.lt entry.expiresAt then (s, .flag false)
      else (claim c key value ttlMs now s, .flag true)

def delete (c : CacheConfig) (keys : List JsString) (s : InMemoryCache V) :
    InMemoryCache V × Answer V :=
  (keys.foldl (fun s key => s.update (c.bucketFor key) fun b => b.remove key) s, .done)

/-- One round of `mget`: a key, with the reading of the clock that its extension takes. -/
def mgetKey (c : CacheConfig) (now : JsNumber)
    (s : InMemoryCache V × OrderedMap JsString (CacheValue V)) (key : JsString × JsNumber) :
    InMemoryCache V × OrderedMap JsString (CacheValue V) :=
  let name := c.bucketFor key.1
  match (s.1.buckets name).lookup key.1 with
  | none => s
  | some entry =>
    if entry.expiresAt.le now then (s.1.update name fun b => b.remove key.1, s.2)
    else (s.1.update name fun b => b.bump c key.1 entry key.2, s.2.set key.1 entry.value)

def mget (c : CacheConfig) (keys : List (JsString × JsNumber)) (now : JsNumber)
    (s : InMemoryCache V) : InMemoryCache V × Answer V :=
  let result := keys.foldl (mgetKey c now) (s, .empty)
  (result.1, .values result.2)

def mset (c : CacheConfig) (entries : OrderedMap JsString (CacheValue V))
    (ttlMs : Option JsNumber) (now : JsNumber) (s : InMemoryCache V) :
    InMemoryCache V × Answer V :=
  match assertTtl "mset" ttlMs with
  | some message => (s, .error message)
  | none => (entries.entries.foldl (fun s p => put c p.1 p.2 ttlMs now s) s, .done)

def sweepExpired (now : JsNumber) (s : InMemoryCache V) : InMemoryCache V :=
  { s with buckets := fun name => (s.buckets name).sweepExpired now }

/-- The operations, with the readings of the clock. -/
inductive Operation (V : Type) where
  | get (key : JsString) (now bumpAt : JsNumber)
  | set (key : JsString) (value : CacheValue V) (ttlMs : Option JsNumber) (now : JsNumber)
  | incr (key : JsString) (ttlMs : Option JsNumber) (now bumpAt : JsNumber)
  | setIfAbsent (key : JsString) (value : CacheValue V) (ttlMs : Option JsNumber) (now : JsNumber)
  | delete (keys : List JsString)
  | mget (keys : List (JsString × JsNumber)) (now : JsNumber)
  | mset (entries : OrderedMap JsString (CacheValue V)) (ttlMs : Option JsNumber) (now : JsNumber)
  | sweep (now : JsNumber)
  deriving DecidableEq

def perform (c : CacheConfig) (s : InMemoryCache V) : Operation V → InMemoryCache V × Answer V
  | .get key now bumpAt => s.get c key now bumpAt
  | .set key value ttlMs now => s.set c key value ttlMs now
  | .incr key ttlMs now bumpAt => s.incr c key ttlMs now bumpAt
  | .setIfAbsent key value ttlMs now => s.setIfAbsent c key value ttlMs now
  | .delete keys => s.delete c keys
  | .mget keys now => s.mget c keys now
  | .mset entries ttlMs now => s.mset c entries ttlMs now
  | .sweep now => (s.sweepExpired now, .done)

def step (c : CacheConfig) (s : InMemoryCache V) (op : Operation V) : InMemoryCache V :=
  (s.perform c op).1

end InMemoryCache

end ActorTs.Cache
