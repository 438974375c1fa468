import ActorTs.Config.Substitutions

/-!
# Building configurations

The tree of a `Config` comes from a parse, from a plain object that code hands over, from
a merge, or from a copy. `cloneTree` copies plain objects, and the items of a list; what
it finds there that is neither is taken over as it is.
-/

namespace ActorTs.Config

open ConfigValue

def hasPlainPrototype : ConfigValue → Bool
  | .object .plain _ => true
  | _ => false

def constructorNameOf : ConfigValue → JsString
  | .object (.ofClass name) _ => if name = [] then "an anonymous class" else name
  | _ => "Object"

/-- Refuse an instance of a class, at a path below the top of what code handed over. -/
def refuseNestedInstance (value : ConfigValue) (path : Option Path) : Except JsString Unit :=
  match path with
  | none => .ok ()
  | some path =>
    if value.members? = none ∨ value.isUnresolved ∨ hasPlainPrototype value then .ok ()
    else
      .error ("Config.fromObject found an instance of " ++ constructorNameOf value ++
        " at " ++ dotted path ++ ": " ++
        "the own fields of a class instance are not a configuration tree.  Give that key " ++
        "a plain object or a plain value, or build a Config from the block and merge it.")

mutual

def cloneTree (path : Option Path) : ConfigObject → Except JsString ConfigObject
  | [] => .ok []
  | (key, value) :: rest =>
    if isForbiddenConfigKey key then cloneTree path rest
    else
      let copied :=
        match value with
        | .list items => ConfigValue.list <$> cloneItems (path.map (· ++ [key])) items
        | value => cloneItem (path.map (· ++ [key])) value
      do
        let copy ← copied
        let copies ← cloneTree path rest
        return (key, copy) :: copies

/-- A plain object is copied; a list that is itself an item is not. -/
def cloneItem (path : Option Path) : ConfigValue → Except JsString ConfigValue
  | .object prototype members => do
      refuseNestedInstance (.object prototype members) path
      if (ConfigValue.object prototype members).isPlainObject then
        ConfigValue.object .plain <$> cloneTree path members
      else .ok (.object prototype members)
  | value => .ok value

def cloneItems (path : Option Path) : List ConfigValue → Except JsString (List ConfigValue)
  | [] => .ok []
  | item :: items => do
      let copy ← cloneItem path item
      let copies ← cloneItems path items
      return copy :: copies

end

/-- What code can hand over: a configuration, one that another copy of the package built,
or any other value. -/
inductive Handed where
  | config (tree : ConfigObject)
  | configOfAnotherCopy
  | value (value : ConfigValue)

/-- The own fields of a configuration, which a spread of one carries. -/
def configFields : List JsString :=
  ["tree", "layers", "carriedSecretPaths", "ownVariables"]

def isSpreadConfig (object : ConfigObject) : Bool :=
  configFields.all fun field => decide (field ∈ object.map Prod.fst)

def typeOf : ConfigValue → JsString
  | .undefined => "undefined"
  | .host type _ => type
  | .bool _ => "boolean"
  | .num _ => "number"
  | .str _ => "string"
  | _ => "object"

def fromObject : Handed → Except JsString ConfigObject
  | .config tree => .ok tree
  | .configOfAnotherCopy =>
    .error ("A Config built by another copy of actor-ts was passed in " ++
      "(ActorSystemOptions.withConfig, LoadOptions.overrides or Config.fromObject) — two " ++
      "copies of the package in one dependency tree, or one module reached through two " ++
      "specifiers.  Its layers and the secret paths it withholds belong to the copy that " ++
      "built it, so it cannot be read here.  Resolve a single copy of actor-ts, or build " ++
      "the Config with the copy that creates the system.")
  | .value .undefined => .ok []
  | .value .null => .ok []
  | .value value =>
    match value.plain? with
    | none => .error ("Config.fromObject expects a plain object, got " ++ typeOf value)
    | some members =>
      if hasPlainPrototype value = false then
        .error ("Config.fromObject expects a plain object or a Config, got an instance of " ++
          constructorNameOf value ++ ": " ++
          "the own fields of a class instance are not a configuration tree")
      else if isSpreadConfig members then
        .error ("A spread of a Config (\x7b ...config \x7d) was passed in " ++
          "(ActorSystemOptions.withConfig, LoadOptions.overrides or Config.fromObject).  " ++
          "A spread copies the instance's private fields, not its configuration, so it " ++
          "would be read as if no configuration had been given.  Pass the Config itself, " ++
          "or a plain object of configuration keys.")
      else cloneTree (some []) members

/-- Layer `overlay` on top. -/
def merge (tree overlay : ConfigObject) : ConfigObject := deepMerge tree overlay

/-- The same with the other one underneath. -/
def withFallback (tree other : ConfigObject) : ConfigObject := deepMerge other tree

def toJSON (tree : ConfigObject) : Except JsString ConfigObject := cloneTree none tree

mutual

/-- Strip what optional substitutions left undefined. -/
def stripUndefined : ConfigObject → ConfigObject
  | [] => []
  | (key, value) :: rest =>
    match value with
    | .undefined => stripUndefined rest
    | value =>
      if isForbiddenConfigKey key then stripUndefined rest
      else (key, stripEntry value) :: stripUndefined rest

def stripEntry : ConfigValue → ConfigValue
  | .object prototype members =>
    if (ConfigValue.object prototype members).isPlainObject then
      .object .plain (stripUndefined members)
    else .object prototype members
  | .list items => .list (items.filter fun item => (defined? item).isSome)
  | value => value

end

end ActorTs.Config
