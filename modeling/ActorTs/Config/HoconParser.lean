import ActorTs.Config.ConfigValue

/-!
# The parser

A function reads the text from the position on and gives back what is left of it. A refusal keeps
the length of the text behind the position, which is enough to name the line and the column. The
functions that call each other count their calls; `exhausted` is what a count that is too small
gives, and no text gets there.
-/

namespace ActorTs.Config

/-- Why a parse stopped. -/
inductive Halt where
  | exhausted
  | refused (message : JsString) (unread : ℤ)
  deriving DecidableEq

def refuse {α : Type} (message : JsString) (text : JsString) : Except Halt α :=
  .error (.refused message text.length)

def isBlank (u : UInt16) : Bool := decide (u = 0x20 ∨ u = 0x09)

/-- `[A-Za-z0-9_\-]` -/
def isKeyUnit (u : UInt16) : Bool :=
  decide ((0x41 ≤ u ∧ u ≤ 0x5A) ∨ (0x61 ≤ u ∧ u ≤ 0x7A) ∨ (0x30 ≤ u ∧ u ≤ 0x39) ∨
    u = 0x5F ∨ u = 0x2D)

/-- The units that trimming takes off: white space and line ends. -/
def isTrimmed (u : UInt16) : Bool :=
  decide ((0x09 ≤ u ∧ u ≤ 0x0D) ∨ u = 0x20 ∨ u = 0xA0 ∨ u = 0x1680 ∨ (0x2000 ≤ u ∧ u ≤ 0x200A) ∨
    u = 0x2028 ∨ u = 0x2029 ∨ u = 0x202F ∨ u = 0x205F ∨ u = 0x3000 ∨ u = 0xFEFF)

def trimEnd (s : JsString) : JsString := (s.reverse.dropWhile isTrimmed).reverse

def trim (s : JsString) : JsString := trimEnd (s.dropWhile isTrimmed)

mutual

/-- Skip the units of a kind and every comment. -/
def skipText (skips : UInt16 → Bool) : JsString → JsString
  | [] => []
  | c :: rest =>
    if skips c then skipText skips rest
    else if c = 0x23 ∨ (c = 0x2F ∧ rest.head? = some 0x2F) then skipComment skips rest
    else c :: rest

/-- A comment ends in front of its line break. -/
def skipComment (skips : UInt16 → Bool) : JsString → JsString
  | [] => []
  | c :: rest =>
    if c = 0x0A then if skips c then skipText skips rest else c :: rest
    else skipComment skips rest

end

def skipInsignificant : JsString → JsString :=
  skipText fun u => decide (u = 0x20 ∨ u = 0x09 ∨ u = 0x0D ∨ u = 0x0A)

/-- Line breaks are not skipped here. -/
def skipInsignificantInline : JsString → JsString :=
  skipText fun u => decide (u = 0x20 ∨ u = 0x09 ∨ u = 0x0D)

def skipSeparator : JsString → JsString :=
  skipText fun u => decide (u = 0x2C ∨ u = 0x0A ∨ u = 0x20 ∨ u = 0x09 ∨ u = 0x0D)

/-- The quoted part of a key, passed over up to its end. -/
def scanQuoted : JsString → Option JsString
  | [] => none
  | c :: rest =>
    if c = 0x22 then some rest
    else if c = 0x0A then none
    else if c = 0x5C then
      match rest with
      | [] => none
      | _ :: rest => scanQuoted rest
    else scanQuoted rest

/-- One segment of a key path, passed over. -/
def scanSegment (text : JsString) : Option JsString :=
  let text := text.dropWhile isBlank
  match text with
  | [] => none
  | c :: rest =>
    if c = 0x22 then scanQuoted rest
    else if isKeyUnit c then some (text.dropWhile isKeyUnit)
    else none

/-- The segments behind a dot, passed over. There are no more of them than the text
has units. -/
def scanSegments : ℕ → JsString → Option JsString
  | 0, text => some text
  | _ + 1, [] => some []
  | fuel + 1, c :: rest =>
    if c = 0x2E then (scanSegment rest).bind (scanSegments fuel) else some (c :: rest)

/-- What can stand between a key and its value, or starts the value. -/
def startsAssignment (text : JsString) : Bool :=
  match text.dropWhile isBlank with
  | [] => false
  | c :: rest =>
    decide (c = 0x3D ∨ c = 0x3A ∨ c = 0x7B ∨ (c = 0x2B ∧ rest.head? = some 0x3D))

/-- The text behind an `include` that is a directive. -/
def startsIncludeTarget (text : JsString) : Bool :=
  decide ((text.head?.map isBlank).getD false ∧ (text.dropWhile isBlank).head? = some 0x22)

def startsField (text : JsString) : Bool :=
  match scanSegment text with
  | none => false
  | some rest =>
    if text.take (text.length - rest.length) = "include" ∧ startsIncludeTarget rest then true
    else
      match scanSegments rest.length rest with
      | none => false
      | some rest => startsAssignment rest

/-- Whether the assignment ends without a value, and the text behind the white space. -/
def assignsNoValue (braced : Bool) (text : JsString) : Bool × JsString :=
  let text := skipInsignificantInline text
  match text with
  | [] => (true, text)
  | c :: _ =>
    if c = 0x2C ∨ c = 0x7D then (true, text)
    else if c ≠ 0x0A then (false, text)
    else
      let next := skipInsignificant text
      (next.isEmpty || (braced && next.head? = some 0x7D) || startsField next, text)

def endsSimpleValue : JsString → Bool
  | [] => true
  | c :: rest =>
    decide (c = 0x0A ∨ c = 0x0D ∨ c = 0x2C ∨ c = 0x7D ∨ c = 0x5D ∨ c = 0x23 ∨
      (c = 0x2F ∧ rest.head? = some 0x2F))

/-- The string whose opening quote has been read. -/
def parseQuotedBody : JsString → Except Halt (JsString × JsString)
  | [] => refuse "Unterminated string literal" []
  | c :: rest =>
    if c = 0x22 then .ok ([], rest)
    else if c = 0x5C then
      match rest with
      | [] => .error (.refused "Invalid escape sequence: \\undefined" (-1))
      | esc :: rest =>
        if esc = 0x75 then
          match rest with
          | a :: b :: c :: d :: rest' =>
            match JsonText.hex4Value? a b c d with
            | some u => (parseQuotedBody rest').map (Prod.map (u :: ·) id)
            | none => refuse ("Invalid \\u escape: " ++ [a, b, c, d]) (a :: b :: c :: d :: rest')
          | short => refuse ("Invalid \\u escape: " ++ short) short
        else
          match JsonText.unescape? esc with
          | some u => (parseQuotedBody rest).map (Prod.map (u :: ·) id)
          | none => refuse ("Invalid escape sequence: \\" ++ [esc]) rest
    else if c = 0x0A then refuse "Unterminated string literal (newline)" (c :: rest)
    else (parseQuotedBody rest).map (Prod.map (c :: ·) id)

def parseBareKeySegment (text : JsString) : Except Halt (JsString × JsString) :=
  match text.takeWhile isKeyUnit with
  | [] => refuse "Expected a key" text
  | segment => .ok (segment, text.dropWhile isKeyUnit)

/-- A segment, in quotes or not, before it is checked. -/
def parseAnyKeySegment (text : JsString) : Except Halt (JsString × JsString) :=
  if text.head? = some 0x22 then parseQuotedBody text.tail else parseBareKeySegment text

def parseKeySegment (text : JsString) : Except Halt (JsString × JsString) := do
  let (segment, rest) ← parseAnyKeySegment (skipInsignificantInline text)
  if isForbiddenConfigKey segment then
    refuse ("Refusing \"" ++ segment ++
      "\" as a config key — it would reach the object prototype") rest
  else .ok (segment, rest)

/-- The segments behind a dot, no more than the text has units. -/
def parseKeySegments : ℕ → JsString → Except Halt (Path × JsString)
  | 0, text => .ok ([], text)
  | _ + 1, [] => .ok ([], [])
  | fuel + 1, c :: rest =>
    if c = 0x2E then do
      let (segment, rest) ← parseKeySegment rest
      let (segments, rest) ← parseKeySegments fuel rest
      return (segment :: segments, rest)
    else .ok ([], c :: rest)

def parseKeyPath (text : JsString) : Except Halt (Path × JsString) := do
  let (segment, rest) ← parseKeySegment text
  let (segments, rest) ← parseKeySegments rest.length rest
  return (segment :: segments, rest)

/-- The value of a text like `-1.5e3`; the digits may be missing on one side of the
point. -/
def numberOf? (raw : JsString) : Option JsNumber := do
  let (negative, text) :=
    match raw with
    | [] => (false, raw)
    | c :: rest => if c = 0x2D then (true, rest) else if c = 0x2B then (false, rest) else (false, raw)
  let int := text.takeWhile JsonText.isDigit
  let rest := text.dropWhile JsonText.isDigit
  let (fraction, rest) :=
    match rest with
    | [] => ([], rest)
    | c :: behind =>
      if c = 0x2E then (behind.takeWhile JsonText.isDigit, behind.dropWhile JsonText.isDigit)
      else ([], rest)
  let (exponent, rest) ← JsonText.parseExponent rest
  if int = [] ∧ fraction = [] ∨ rest ≠ [] then none
  else
    return .ofDecimal negative (JsonText.digitsValue (int ++ fraction)) (exponent - fraction.length)

def literalOf (raw : JsString) : ConfigValue :=
  if raw = "true" then .bool true
  else if raw = "false" then .bool false
  else if raw = "null" then .null
  else
    match numberOf? raw with
    | some (.finite x) => .num (.finite x)
    | _ => .str raw

/-- A substitution as the text writes it. -/
structure Substitution where
  path : JsString
  optional : Bool
  deriving DecidableEq

def Substitution.toValue (s : Substitution) : ConfigValue :=
  .object .plain [("__substitution", .bool true), ("path", .str s.path),
    ("optional", .bool s.optional)]

inductive Piece where
  | text (text : JsString) (unquoted : Bool)
  | substitution (s : Substitution)
  deriving DecidableEq

def Piece.isSubstitution : Piece → Bool
  | text _ _ => false
  | substitution _ => true

/-- The substitution whose `${` has been read. -/
def parseSubstitution (text : JsString) : Except Halt (Substitution × JsString) :=
  let optional := decide (text.head? = some 0x3F)
  let text := if optional then text.tail else text
  let path := trim (text.takeWhile (· ≠ 0x7D))
  match text.dropWhile (· ≠ 0x7D) with
  | [] => refuse "Expected '\x7d'" []
  | _ :: rest =>
    if path = [] then refuse "Empty substitution path" rest
    else if (path.splitOn 0x2E).any isForbiddenConfigKey then
      refuse ("Refusing the substitution $\x7b" ++ path ++
        "\x7d — it would read through the object prototype") rest
    else .ok (⟨path, optional⟩, rest)

/-- An unquoted run, with the unit in front of it in the run. -/
def unquotedRun (before : Option UInt16) : JsString → Except Halt (JsString × JsString)
  | [] => .ok ([], [])
  | c :: rest =>
    if c = 0x0A ∨ c = 0x2C ∨ c = 0x7D ∨ c = 0x5D ∨ c = 0x23 ∨
        (c = 0x24 ∧ rest.head? = some 0x7B) then
      .ok ([], c :: rest)
    else if c = 0x2F ∧ rest.head? = some 0x2F then
      if before = some 0x3A then
        refuse ("A URL in an unquoted value reads as a comment from its \"//\" on — " ++
          "put it in quotes") (c :: rest)
      else .ok ([], c :: rest)
    else (unquotedRun (some c) rest).map (Prod.map (c :: ·) id)

def parseUnquotedRun (text : JsString) : Except Halt (JsString × JsString) := do
  let (run, rest) ← unquotedRun none text
  if trim run = [] then refuse "Expected a value" rest else .ok (run, rest)

def parsePiece (text : JsString) : Except Halt (Piece × JsString) :=
  if text.head? = some 0x22 then
    if text.take 3 = [0x22, 0x22, 0x22] then
      refuse "Triple-quoted strings are not supported (#537)" text
    else (parseQuotedBody text.tail).map (Prod.map (.text · false) id)
  else if text.take 2 = [0x24, 0x7B] then
    (parseSubstitution (text.drop 2)).map (Prod.map .substitution id)
  else (parseUnquotedRun text).map (Prod.map (.text · true) id)

/-- How a refusal names what stands in front of an object or a list. -/
def Piece.describe : Piece → JsString
  | text _ _ => "a string"
  | substitution _ => "a substitution"

def parsePieces : ℕ → JsString → Except Halt (List Piece × JsString)
  | 0, _ => .error .exhausted
  | fuel + 1, text => do
      let (piece, rest) ← parsePiece text
      let gap := rest.takeWhile isBlank
      let next := rest.dropWhile isBlank
      if endsSimpleValue next then .ok ([piece], rest)
      else if next.head? = some 0x7B ∨ next.head? = some 0x5B then
        refuse ("Concatenating " ++ piece.describe ++ " with " ++
          (if next.head? = some 0x7B then "an object" else "a list").toJs ++ " is not supported (#537)") next
      else if gap ≠ [] ∧ startsField next then .ok ([piece], rest)
      else do
        let (pieces, rest) ← parsePieces fuel next
        return (piece :: ((if gap = [] then [] else [.text gap false]) ++ pieces), rest)

/-- The last piece, without the white space behind an unquoted run. -/
def Piece.trimEnd : Piece → Piece
  | text s unquoted => text (if unquoted then Config.trimEnd s else s) unquoted
  | substitution s => substitution s

/-- A piece of a concatenation: the text pieces between two substitutions are one. -/
def foldPieces : List Piece → List (JsString ⊕ Substitution)
  | [] => []
  | .substitution s :: pieces => .inr s :: foldPieces pieces
  | .text s _ :: pieces =>
    match foldPieces pieces with
    | .inl s' :: folded => .inl (s ++ s') :: folded
    | folded => .inl s :: folded

def pieceValue : JsString ⊕ Substitution → ConfigValue
  | .inl s => .str s
  | .inr s => s.toValue

def isOptionalPiece : JsString ⊕ Substitution → Bool
  | .inl s => decide (trim s = [])
  | .inr s => s.optional

def concatenation (folded : List (JsString ⊕ Substitution)) : ConfigValue :=
  .object .plain [("__concatenation", .bool true),
    ("pieces", .list ((folded.filter fun piece => piece ≠ .inl []).map pieceValue)),
    ("optional", .bool (folded.all isOptionalPiece))]

def Piece.text? : Piece → JsString
  | text s _ => s
  | substitution _ => []

def valueOfPieces (pieces : List Piece) : ConfigValue :=
  match pieces with
  | [.substitution s] => s.toValue
  | [.text s true] => literalOf (trim s)
  | [.text s false] => .str s
  | pieces =>
    let trimmed := pieces.modifyLast Piece.trimEnd
    if trimmed.any Piece.isSubstitution then concatenation (foldPieces trimmed)
    else .str (trimmed.flatMap Piece.text?)

def parseSimpleValue (text : JsString) : Except Halt (ConfigValue × JsString) :=
  (parsePieces (text.length + 1) text).map (Prod.map valueOfPieces id)

/-- Write `value` at a path, with objects on the way to it. -/
def mergeKeyPath (into : ConfigObject) : Path → ConfigValue → ConfigObject
  | [], _ => into
  | [key], value => OrderedMap.bind key (mergeValue (ownValue into key) value) into
  | key :: path, value =>
    let child := ((ownValue into key).bind ConfigValue.plain?).getD []
    OrderedMap.bind key (.object .plain (mergeKeyPath child path value)) into

def refuseConcatenationAfter (value : ConfigValue) (what : JsString) (text : JsString) :
    Except Halt (ConfigValue × JsString) :=
  let next := text.dropWhile isBlank
  if !endsSimpleValue next && !(decide (next.length < text.length) && startsField next) then
    refuse ("Concatenating " ++ what ++ " with another value is not supported (#537)") next
  else .ok (value, text)

/-- The first quoted run on the line of an `include`. -/
def peekIncludeTarget (text : JsString) : Option JsString :=
  match (text.takeWhile (· ≠ 0x0A)).dropWhile (· ≠ 0x22) with
  | [] => none
  | _ :: rest =>
    let target := rest.takeWhile (· ≠ 0x22)
    if rest.length ≤ target.length ∨ target = [] ∨ 200 < target.length then none
    else some target

def includeNotSupported (text : JsString) : JsString :=
  let target := peekIncludeTarget text
  let directive :=
    match target with
    | none => "`include`"
    | some target => "`include " ++ JsonText.quote target ++ "`"
  let base :=
    match target with
    | none => "\"base.conf\""
    | some target =>
      if "://" <:+: target then "\"base.conf\"" else JsonText.quote target
  directive ++
    " is not supported — actor-ts resolves no include targets, so a config " ++
    "source can never name another file or URL to pull into the process. Merge the " ++
    "sources in code instead: Config.parseFile(" ++ base ++ ").merge(Config.parseFile" ++
    "(\"application.conf\")). Substitutions resolve per source, so a value the base " ++
    "file refers to must live in that file or in the environment. Pasting the " ++
    "included content in here works too."

/-- A path as a message writes it. -/
def dotted (path : Path) : JsString := [0x2E].intercalate path

/-- The closing brace behind the entries of an object. -/
def expectBrace {α : Type} (result : α) (text : JsString) : Except Halt (α × JsString) :=
  if text.head? = some 0x7D then .ok (result, text.tail) else refuse "Expected '\x7d'" text

mutual

/-- The entries up to the closing brace or to the end, written into `out`. -/
def parseFields : ℕ → Bool → ConfigObject → JsString → Except Halt (ConfigObject × JsString)
  | 0, _, _, _ => .error .exhausted
  | fuel + 1, braced, out, text =>
    let text := skipInsignificant text
    if text = [] then
      if braced then refuse "Expected '\x7d' before end of input" text else .ok (out, text)
    else if braced ∧ text.head? = some 0x7D then .ok (out, text)
    else do
      let (keyPath, rest) ← parseKeyPath text
      let rest := skipInsignificantInline rest
      if rest.head? = some 0x3D ∨ rest.head? = some 0x3A then
        if (assignsNoValue braced rest.tail).1 then
          parseFields fuel braced out (skipSeparator (assignsNoValue braced rest.tail).2)
        else do
          let (value, rest) ← parseValue fuel (assignsNoValue braced rest.tail).2
          parseFields fuel braced (mergeKeyPath out keyPath value) (skipSeparator rest)
      else if rest.head? = some 0x7B then do
        let (value, rest) ← parseValue fuel rest
        parseFields fuel braced (mergeKeyPath out keyPath value) (skipSeparator rest)
      else if keyPath = ["include"] then refuse (includeNotSupported rest) rest
      else refuse ("Expected '=' or ':' after key \"" ++ dotted keyPath ++ "\"") rest

def parseValue : ℕ → JsString → Except Halt (ConfigValue × JsString)
  | 0, _ => .error .exhausted
  | fuel + 1, text =>
    let text := skipInsignificant text
    if text = [] then refuse "Unexpected end of input in value" text
    else if text.head? = some 0x7B then do
      let (members, rest) ← parseFields fuel true [] text.tail
      let (members, rest) ← expectBrace members rest
      refuseConcatenationAfter (.object .plain members) "an object" rest
    else if text.head? = some 0x5B then do
      let (items, rest) ← parseItems fuel text.tail
      refuseConcatenationAfter (.list items) "a list" rest
    else parseSimpleValue text

/-- The items up to the closing bracket. -/
def parseItems : ℕ → JsString → Except Halt (List ConfigValue × JsString)
  | 0, _ => .error .exhausted
  | fuel + 1, text =>
    let text := skipInsignificant text
    if text.head? = some 0x5D then .ok ([], text.tail)
    else do
      let (item, rest) ← parseValue fuel text
      let (items, rest) ← parseItems fuel (skipSeparator rest)
      return (item :: items, rest)

end

/-- The calls that a text of a length can lead to. -/
def parseFuel (text : JsString) : ℕ := 2 * text.length + 2

def parseRootObject (src : JsString) : Except Halt (ConfigObject × JsString) :=
  let text := skipInsignificant src
  if text.head? = some 0x7B then do
    let (result, rest) ← parseFields (parseFuel src) true [] text.tail
    expectBrace result rest
  else parseFields (parseFuel src) false [] text

def parseRoot (src : JsString) : Except Halt ConfigObject := do
  let (result, rest) ← parseRootObject src
  let rest := skipInsignificant rest
  if rest = [] then return result
  else refuse ("Unexpected trailing content: " ++ JsonText.quote (rest.take 30)) rest

def parseHocon (source : JsString) : Except Halt ConfigObject := parseRoot source

/-- The text of the error that a parse of `src` throws. -/
def Halt.errorText (src : JsString) : Halt → JsString
  | exhausted => []
  | refused message unread =>
    let pos := (src.length - unread).toNat
    let before := src.take pos
    let line := before.count 0x0A + 1
    let lineStart := before.length - (before.reverse.takeWhile (· ≠ 0x0A)).length
    "HOCON parse error at line " ++ JsonText.decimal line ++ ", col " ++
      JsonText.decimal (pos - lineStart + 1) ++ ": " ++ message

end ActorTs.Config
