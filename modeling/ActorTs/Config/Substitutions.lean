import ActorTs.Config.HoconParser
import ActorTs.Config.Parts
import ActorTs.Library.Demand

/-!
# Substitution resolution

One resolution of one parsed tree. A field is named by its path; `resolveField` asks for it, and the
machine of `Demand` answers: it remembers resolved fields and keeps the open ones, which is how a
cycle is found.

`undefined` stands for what resolved to nothing, here as no value at all.
-/

namespace ActorTs.Config

open ConfigValue

/-- A value, unless it is `undefined`. -/
def defined? : ConfigValue → Option ConfigValue
  | .undefined => none
  | value => some value

/-- The value behind the own properties of plain objects. -/
def readData (value : ConfigValue) : Path → Option ConfigValue
  | [] => defined? value
  | segment :: rest =>
    if isForbiddenConfigKey segment then none
    else
      match value.plain?.bind (OrderedMap.lookup segment) with
      | none => none
      | some child => readData child rest

mutual

/-- The paths of the leaves; what is no plain object is its own leaf. -/
def leafPaths : ConfigValue → List Path
  | .object prototype members =>
    if (ConfigValue.object prototype members).isPlainObject then leafPathsOf members else [[]]
  | _ => [[]]

def leafPathsOf : ConfigObject → List Path
  | [] => []
  | (key, child) :: rest =>
    (if isForbiddenConfigKey key then [] else (leafPaths child).map (key :: ·)) ++ leafPathsOf rest

end

mutual

def withoutForbiddenKeys : ConfigValue → ConfigValue
  | .list items => .list (itemsWithout items)
  | .object _ members => .object .plain (membersWithout members)
  | value => value

def itemsWithout : List ConfigValue → List ConfigValue
  | [] => []
  | item :: items => withoutForbiddenKeys item :: itemsWithout items

def membersWithout : ConfigObject → ConfigObject
  | [] => []
  | (key, entry) :: rest =>
    if isForbiddenConfigKey key then membersWithout rest
    else (key, withoutForbiddenKeys entry) :: membersWithout rest

end

/-- Leaf path, relative to a value, to the variables behind the leaf. -/
abbrev Provenance := OrderedMap Path (Finset JsString)

namespace Provenance

/-- The variables behind any leaf. -/
def names (provenance : Provenance) : Finset JsString :=
  provenance.values.foldr (· ∪ ·) ∅

def ofNames (names : Finset JsString) : Provenance :=
  if names = ∅ then .empty else OrderedMap.empty.set [] names

def add (provenance : Provenance) (leaf : Path) (names : Finset JsString) : Provenance :=
  provenance.set leaf ((provenance.get? leaf).getD ∅ ∪ names)

/-- The entries of a member of an object. -/
def setBelow (key : JsString) (into from' : Provenance) : Provenance :=
  from'.entries.foldl (fun into entry => into.set (key :: entry.1) entry.2) into

end Provenance

structure Resolved where
  value : Option ConfigValue
  provenance : Provenance

def nothing : Resolved := ⟨none, .empty⟩

def within (resolved : Resolved) (rest : Path) : Resolved :=
  match resolved.value.bind (readData · rest) with
  | none => nothing
  | some value =>
    ⟨some value, resolved.provenance.entries.foldl (fun into entry =>
      if entry.1.take rest.length = rest then Provenance.add into (entry.1.drop rest.length) entry.2
      else if rest.take entry.1.length = entry.1 then Provenance.add into [] entry.2
      else into) .empty⟩

def everyLeafFrom (value : ConfigValue) (name : JsString) : Provenance :=
  (leafPaths value).foldl (fun into leaf => into.set leaf {name}) .empty

/-- The own entries of a record of variables. -/
abbrev EnvironmentSource := JsString → Option JsString

structure ResolveLayerOptions where
  environment : List EnvironmentSource
  fallback : Option ConfigObject
  fallbackVariables : Option (Path → Finset JsString)
  toUpperCase : JsString → JsString

inductive EnvironmentAnswer where
  | variable (name raw : JsString)
  | emptyVariable
  | absent

/-- What the sources hold under the two names of a path, in the order they are asked. -/
def ResolveLayerOptions.answers (options : ResolveLayerOptions) (path : JsString) :
    List (JsString × JsString) :=
  [path, options.toUpperCase (path.map fun u => if u = 0x2E then 0x5F else u)].flatMap fun name =>
    options.environment.filterMap fun source => (source name).map (name, ·)

def lookupEnvironment (options : ResolveLayerOptions) (path : JsString) : EnvironmentAnswer :=
  match (options.answers path).find? fun answer => decide (answer.2 ≠ []) with
  | some answer => .variable answer.1 answer.2
  | none => if options.answers path = [] then .absent else .emptyVariable

def environmentValueOf (raw : JsString) : ConfigValue :=
  match Json.parse raw with
  | some json => withoutForbiddenKeys (.ofJson json)
  | none => .str raw

def lookupFallback (options : ResolveLayerOptions) (target : Path) : Resolved :=
  match options.fallback.bind fun fallback => readData (.object .plain fallback) target with
  | none => nothing
  | some value =>
    match options.fallbackVariables with
    | none => ⟨some value, .empty⟩
    | some variablesOf =>
      ⟨some value, (leafPaths value).foldl (fun into leaf =>
        if variablesOf (target ++ leaf) = ∅ then into
        else into.set leaf (variablesOf (target ++ leaf))) .empty⟩

/-- A part of a resolution: it may ask for the resolved value of a field, and it fails
with the message of an error. -/
abbrev Resolution := Demand Path JsString Resolved Resolved

/-- The resolved value of the field at a path of the tree. -/
def resolveField (path : Path) : Resolution := .ask path .done

/-- The resolved value of `node`, which lies at a path; an addressable one is the tree's
own value there. -/
abbrev Resolve := ConfigValue → Path → Bool → Resolution

/-- A substitution as the resolver reads it, whatever object it is. -/
structure Reference where
  path : Option JsString
  optional : Bool
  previous : Option ConfigValue

def referenceOf (members : ConfigObject) : Reference where
  path :=
    match ownValue members "path" with
    | some (.str path) => some path
    | _ => none
  optional := isOptional members
  previous := ownValue members "previous"

/-- A piece of a concatenation: a text, or what is read as a substitution. -/
def pieceOf : ConfigValue → JsString ⊕ Reference
  | .str text => .inl text
  | .object _ members => .inr (referenceOf members)
  | _ => .inr ⟨none, false, none⟩

/-- The pieces of a concatenation; the pieces of a string are its characters. -/
def piecesOf (members : ConfigObject) : Option (List (JsString ⊕ Reference)) :=
  match ownValue members "pieces" with
  | some (.list pieces) => some (pieces.map pieceOf)
  | some (.str text) => some [.inl text]
  | _ => none

inductive EnvironmentReading where
  | value
  | text
  deriving DecidableEq

section Lookup

/-- The descent in the tree, with the way behind and the way ahead of `node`. -/
def lookupFrom (node : ConfigValue) (before : Path) : Path → Resolution
  | [] => resolveField before
  | segment :: rest =>
    if isForbiddenConfigKey segment then pure nothing
    else if node.isUnresolved then do
      let resolved ← resolveField before
      return within resolved (segment :: rest)
    else
      match node.plain?.bind (OrderedMap.lookup segment) with
      | none => pure nothing
      | some child => lookupFrom child (before ++ [segment]) rest

def lookupTree (root : ConfigObject) (target : Path) : Resolution :=
  lookupFrom (.object .plain root) [] target

end Lookup

section Resolver

variable (root : ConfigObject) (options : ResolveLayerOptions) (resolve : Resolve)

/-- What an assignment replaced lies at the same path, and no path leads into it. -/
def resolvePrevious (previous : Option ConfigValue) (path : Path) : Resolution :=
  match previous with
  | none => pure nothing
  | some previous => resolve previous path false

/-- The variable that answers, or what the assignment replaced. -/
def resolveOutside (reference : Reference) (name : JsString) (path : Path)
    (reading : EnvironmentReading) : Resolution :=
  match lookupEnvironment options name with
  | .variable source raw =>
    let value := if reading = .text then .str raw else environmentValueOf raw
    pure ⟨some value, everyLeafFrom value source⟩
  | answer =>
    if reference.optional then resolvePrevious resolve reference.previous path
    else
      .fail ("Unresolved substitution: $\x7b" ++ name ++ "\x7d" ++
        match answer with
        | .emptyVariable =>
          " — the environment variable that would answer it is set but empty, " ++
            "which counts as not set"
        | _ => [])

/-- The tree's answer; a field that names itself skips it. -/
def lookupOther (target path : Path) : Resolution :=
  if target = path then pure nothing else lookupTree root target

/-- The tree, then the layers beneath, then the rest. -/
def resolveSubstitution (reference : Reference) (path : Path) (reading : EnvironmentReading) :
    Resolution :=
  match reference.path with
  | none => .fail "TypeError: the path of a substitution is not a string"
  | some name => do
      let target := name.splitOn 0x2E
      let fromTree ← lookupOther root target path
      if fromTree.value.isSome then pure fromTree
      else if (lookupFallback options target).value.isSome then pure (lookupFallback options target)
      else resolveOutside options resolve reference name path reading

/-- What has been joined so far, whether a piece answered, and the variables behind it. -/
structure Joined where
  text : JsString
  answered : Bool
  names : Finset JsString

def joinPieces (path : Path) (joined : Joined) :
    List (JsString ⊕ Reference) → Demand Path JsString Resolved Joined
  | [] => pure joined
  | .inl text :: pieces => joinPieces path { joined with text := joined.text ++ text } pieces
  | .inr reference :: pieces => do
      let resolved ← resolveSubstitution root options resolve reference path .text
      match resolved.value with
      | none => joinPieces path joined pieces
      | some value =>
        match value.text? with
        | none =>
          .fail ("Cannot join $\x7b" ++ reference.path.getD [] ++
            "\x7d into a string at " ++ dotted path ++ ": it resolves to " ++
            (if value.members?.isSome then "an object" else "a list").toJs)
        | some text =>
          joinPieces path ⟨joined.text ++ text, true,
            joined.names ∪ resolved.provenance.names⟩ pieces

def resolveConcatenation (members : ConfigObject) (path : Path) : Resolution :=
  match piecesOf members with
  | none => .fail "TypeError: the pieces of a concatenation are not iterable"
  | some pieces => do
      let joined ← joinPieces root options resolve path ⟨[], false, ∅⟩ pieces
      if joined.answered || !isOptional members then
        pure ⟨some (.str joined.text), .ofNames joined.names⟩
      else resolvePrevious resolve (ownValue members "previous") path

def resolveItems (path : Path) (out : List ConfigValue) (names : Finset JsString) :
    List ConfigValue → Demand Path JsString Resolved (List ConfigValue × Finset JsString)
  | [] => pure (out, names)
  | item :: items => do
      let resolved ← resolve item path false
      match resolved.value with
      | none => resolveItems path out names items
      | some value =>
        resolveItems path (out ++ [value]) (names ∪ resolved.provenance.names) items

def resolveList (items : List ConfigValue) (path : Path) : Resolution := do
  let (out, names) ← resolveItems resolve path [] ∅ items
  return ⟨some (.list out), .ofNames names⟩

/-- A member: a field of the tree, or a value that no path leads to. -/
def resolveMember (child : ConfigValue) (path : Path) (addressable : Bool) : Resolution :=
  if addressable then resolveField path else resolve child path false

def resolveMembers (path : Path) (addressable : Bool) (out : ConfigObject)
    (provenance : Provenance) :
    ConfigObject → Demand Path JsString Resolved (ConfigObject × Provenance)
  | [] => pure (out, provenance)
  | (key, child) :: rest =>
    if isForbiddenConfigKey key then resolveMembers path addressable out provenance rest
    else do
      let resolved ← resolveMember resolve child (path ++ [key]) addressable
      match resolved.value with
      | none => resolveMembers path addressable out provenance rest
      | some value =>
        resolveMembers path addressable (OrderedMap.bind key value out)
          (Provenance.setBelow key provenance resolved.provenance) rest

def resolveObject (object : ConfigObject) (path : Path) (addressable : Bool) : Resolution := do
  let (out, provenance) ← resolveMembers resolve path addressable [] .empty object
  return ⟨some (.object .plain out), provenance⟩

/-- One step of the walk, with the walk of the parts. -/
def resolveStep : Resolve := fun node path addressable =>
  match node with
  | .undefined => pure nothing
  | .object prototype members =>
    if (ConfigValue.object prototype members).isSubstitution then
      resolveSubstitution root options resolve (referenceOf members) path .value
    else if (ConfigValue.object prototype members).isConcatenation then
      resolveConcatenation root options resolve members path
    else resolveObject resolve members path addressable
  | .list items => resolveList resolve items path
  | primitive => pure ⟨some primitive, .empty⟩

/-- The walk of values that are nested at most so deep; none is nested less than once,
see `resolveNode_eq`. -/
def resolveWithin : ℕ → Resolve
  | 0 => fun _ _ _ => pure nothing
  | depth + 1 => resolveStep root options (resolveWithin depth)

end Resolver

def resolveNode (root : ConfigObject) (options : ResolveLayerOptions) : Resolve :=
  fun node => resolveWithin root options node.height node

/-- The value a tree holds at a path, whatever the objects on the way stand for. -/
def valueAt (node : ConfigValue) : Path → Option ConfigValue
  | [] => some node
  | key :: path => (node.members?.bind (OrderedMap.lookup key)).bind (valueAt · path)

mutual

/-- The paths a tree holds a value at. -/
def fieldPaths : ConfigValue → List Path
  | .object _ members => [] :: fieldPathsOf members
  | _ => [[]]

def fieldPathsOf : ConfigObject → List Path
  | [] => []
  | (key, value) :: rest => (fieldPaths value).map (key :: ·) ++ fieldPathsOf rest

end

/-- The resolution of the field at a path: of the tree's own value there. -/
def fieldBody (root : ConfigObject) (options : ResolveLayerOptions) (path : Path) : Resolution :=
  match valueAt (.object .plain root) path with
  | none => pure nothing
  | some node => resolveNode root options node path true

def cycleError (entries : List Path) : JsString :=
  "Substitution cycle: ".toJs ++ (" -> ".toJs).intercalate (entries.map dotted)

def resolveRoot (root : ConfigObject) (options : ResolveLayerOptions) : Resolution :=
  resolveObject (resolveNode root options) root [] true

/-- A resolved tree, and the variables behind each of its leaves. -/
structure ResolvedLayer where
  tree : ConfigObject
  variablesByPath : Provenance

def resolveLayer (tree : ConfigObject) (options : ResolveLayerOptions) :
    Except (Demand.Fault JsString) ResolvedLayer := do
  let fields := fieldPaths (.object .plain tree)
  let (resolved, _) ← Demand.serve
    (Demand.field (fieldBody tree options) cycleError fields.length []) (resolveRoot tree options) []
  return ⟨(resolved.value.bind members?).getD [], resolved.provenance⟩

end ActorTs.Config
