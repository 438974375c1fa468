import ActorTs.Library.Json

/-!
# Configuration values

A tree is what a parse, a resolution or code can hold. A substitution and a
concatenation are objects too, told apart by a member that marks them, so whatever
can give an object that member can make one: the tests below read the marker and
nothing else. `host` is a value that only code can put into a tree.

A key that is already set is written by `deepMerge` for objects, by `overrideKeepingPrevious` else.
-/

namespace ActorTs.Config

/-- What made an object. -/
inductive Prototype where
  | plain
  | ofClass (name : JsString)
  deriving DecidableEq

inductive ConfigValue where
  | undefined
  | host (type text : JsString)
  | null
  | bool (b : Bool)
  | num (x : JsNumber)
  | str (s : JsString)
  | list (items : List ConfigValue)
  | object (prototype : Prototype) (members : List (JsString × ConfigValue))

/-- The own properties of an object. -/
abbrev ConfigObject := List (JsString × ConfigValue)

/-- A path that has been cut into its keys. -/
abbrev Path := List JsString

def forbiddenKeys : List JsString := ["__proto__", "constructor", "prototype"]

def isForbiddenConfigKey (key : JsString) : Bool := decide (key ∈ forbiddenKeys)

/-- The value of an own property; one that is `undefined` reads as none. -/
def ownValue (object : ConfigObject) (key : JsString) : Option ConfigValue :=
  match OrderedMap.lookup key object with
  | some .undefined => none
  | found => found

namespace ConfigValue

/-- The members of an object, also of one that stands for something else. -/
def members? : ConfigValue → Option ConfigObject
  | object _ members => some members
  | _ => none

/-- The member reads as `true`. -/
def isMarkedBy (marker : JsString) (value : ConfigValue) : Bool :=
  match value.members?.bind fun members => ownValue members marker with
  | some (bool true) => true
  | _ => false

def isSubstitution : ConfigValue → Bool := isMarkedBy "__substitution"

def isConcatenation : ConfigValue → Bool := isMarkedBy "__concatenation"

def isUnresolved (value : ConfigValue) : Bool := value.isSubstitution || value.isConcatenation

/-- The members of a plain object: an object that stands for nothing else. -/
def plain? (value : ConfigValue) : Option ConfigObject :=
  if value.isUnresolved then none else value.members?

def isPlainObject (value : ConfigValue) : Bool := value.plain?.isSome

/-- What a condition makes of a value. -/
def truthy : ConfigValue → Bool
  | undefined => false
  | host type text => !decide (type = "bigint" ∧ text = "0")
  | null => false
  | bool b => b
  | num .nan => false
  | num (.infinity _) => true
  | num (.finite x) => decide (x.significand ≠ 0)
  | str s => decide (s ≠ [])
  | list _ => true
  | object _ _ => true

/-- The text a simple value is joined into a string as. -/
def text? : ConfigValue → Option JsString
  | undefined => some "undefined"
  | host _ text => some text
  | null => some "null"
  | bool b => some (if b then "true" else "false")
  | num .nan => some "NaN"
  | num (.infinity negative) => some (if negative then "-Infinity" else "Infinity")
  | num (.finite x) => some (JsonText.numberText (.finite x))
  | str s => some s
  | list _ => none
  | object _ _ => none

mutual

def ofJson : Json → ConfigValue
  | .null => null
  | .bool b => bool b
  | .num x => num x
  | .str s => str s
  | .arr items => list (ofJsonItems items)
  | .obj members => object .plain (ofJsonMembers members)

def ofJsonItems : List Json → List ConfigValue
  | [] => []
  | x :: xs => ofJson x :: ofJsonItems xs

def ofJsonMembers : List (JsString × Json) → ConfigObject
  | [] => []
  | (key, x) :: rest => (key, ofJson x) :: ofJsonMembers rest

end

end ConfigValue

open ConfigValue

/-- The flag of a substitution or of a concatenation, as a condition reads it. -/
def isOptional (members : ConfigObject) : Bool :=
  ((ownValue members "optional").map truthy).getD false

mutual

/-- What is left at a key when `incoming` is written over what it held. -/
def overrideKeepingPrevious (existing : Option ConfigValue) : ConfigValue → ConfigValue
  | .object prototype members =>
    match existing with
    | none => .object prototype members
    | some value =>
      if (ConfigValue.object prototype members).isUnresolved && isOptional members then
        .object .plain (keepPrevious value members)
      else .object prototype members
  | incoming => incoming

/-- The members with `existing` at the tail of the chain of replaced values. -/
def keepPrevious (existing : ConfigValue) : ConfigObject → ConfigObject
  | [] => [("previous", existing)]
  | (key, value) :: rest =>
    if key = "previous" then
      (key, match value with
        | .undefined => existing
        | previous => overrideKeepingPrevious (some existing) previous) :: rest
    else (key, value) :: keepPrevious existing rest

end

/-- The copy a merge starts from. -/
def copyOfBase (base : ConfigObject) : ConfigObject :=
  base.filter fun member => !isForbiddenConfigKey member.1

mutual

/-- Write the entries of an overlay into `out`, one after the other. -/
def mergeEntries (out : ConfigObject) : ConfigObject → ConfigObject
  | [] => out
  | (key, value) :: rest =>
    if isForbiddenConfigKey key then mergeEntries out rest
    else mergeEntries (OrderedMap.bind key (mergeValue (ownValue out key) value) out) rest

/-- What is left at a key when `value` is merged into what it held. -/
def mergeValue (existing : Option ConfigValue) : ConfigValue → ConfigValue
  | .object prototype members =>
    match existing.bind plain? with
    | some base =>
      if (ConfigValue.object prototype members).isPlainObject then
        .object .plain (mergeEntries (copyOfBase base) members)
      else overrideKeepingPrevious existing (.object prototype members)
    | none => overrideKeepingPrevious existing (.object prototype members)
  | value => value

end

def deepMerge (base overlay : ConfigObject) : ConfigObject :=
  mergeEntries (copyOfBase base) overlay

end ActorTs.Config
