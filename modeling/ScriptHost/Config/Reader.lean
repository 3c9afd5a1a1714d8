/-
Reading a configuration document. The reader takes one character after the other; between two
characters it knows what it expects next and which brackets are open, and the settings read so far
stand in the configuration that it will return. Settings come as an object or as a list in the order
of the fields; members with unknown names are skipped by looser rules.
-/
import ScriptHost.Config.Basic
import ScriptHost.Config.Number

namespace ScriptHost.Config

/-! ## Fields -/

inductive Field where
  | debugger
  | loadstat
  | port
  | channel
  | waitSource
  | contextReset
  deriving Repr, DecidableEq

def Field.name : Field → String
  | .debugger => "debugger"
  | .loadstat => "loadstat"
  | .port => "port"
  | .channel => "channel"
  | .waitSource => "wait_source"
  | .contextReset => "context_reset"

def Field.expected : Field → Expected
  | .debugger => .debugger
  | .loadstat => .flag
  | .port => .port
  | .channel => .text
  | .waitSource => .flag
  | .contextReset => .flag

inductive Group where
  | config
  | debugger
  deriving Repr, DecidableEq

/-- The fields of a group, in their order in a list. -/
def Group.fields : Group → List Field
  | .config => [.debugger, .loadstat]
  | .debugger => [.port, .channel, .waitSource, .contextReset]

def Group.field? (g : Group) (name : String) : Option Field :=
  g.fields.find? fun f => f.name = name

/-! ## Strings -/

/-- What a backslash has left open in a string. -/
inductive Escape where
  | closed
  | backslash
  /-- The characters after the mark of a code unit, behind a high surrogate if there is one. -/
  | unit (chars : List Char) (high : Option Nat)
  /-- A high surrogate has to be followed by a backslash and then by the mark of a code unit. -/
  | high (value : Nat)
  | highBackslash (value : Nat)

/-- A string that is being read; its characters stand in reverse order. -/
structure StringState where
  chars : List Char
  escape : Escape

namespace StringState

def start : StringState := ⟨[], .closed⟩

def push (s : StringState) (c : Char) : StringState := ⟨c :: s.chars, .closed⟩

def escapedChar? : Char → Option Char
  | '"' => some '"'
  | '\\' => some '\\'
  | '/' => some '/'
  | 'b' => some '\x08'
  | 'f' => some '\x0c'
  | 'n' => some '\n'
  | 'r' => some '\r'
  | 't' => some '\t'
  | _ => none

def hexDigit? (c : Char) : Option Nat :=
  if c.isDigit then some (c.toNat - '0'.toNat)
  else if 'a' ≤ c && c ≤ 'f' then some (c.toNat - 'a'.toNat + 10)
  else if 'A' ≤ c && c ≤ 'F' then some (c.toNat - 'A'.toNat + 10)
  else none

/-- The value of four hexadecimal digits. -/
def unit? (chars : List Char) : Option Nat :=
  if chars.length = 4 then
    chars.foldlM (fun n c => (hexDigit? c).map fun d => n * 16 + d) 0
  else none

def byteCount (chars : List Char) : Nat := chars.foldr (fun c n => c.utf8Size + n) 0

def isHigh (unit : Nat) : Bool := 0xD800 ≤ unit && unit < 0xDC00

def isLow (unit : Nat) : Bool := 0xDC00 ≤ unit && unit < 0xE000

/-- Takes a code unit. Strict strings pair their surrogates, skipped ones need not. -/
def takeUnit (s : StringState) (strict : Bool) (high : Option Nat) (unit : Nat) :
    Except ReadError StringState :=
  if !strict then .ok { s with escape := .closed }
  else
    match high with
    | some h =>
      if isLow unit then .ok (s.push (Char.ofNat (0x10000 + (h - 0xD800) * 0x400 + (unit - 0xDC00))))
      else .error .loneSurrogate
    | none =>
      if isLow unit then .error .loneSurrogate
      else if isHigh unit then .ok { s with escape := .high unit }
      else .ok (s.push (Char.ofNat unit))

/-- One character further; `none` when it closes the string. The four bytes behind the mark of a code
unit are taken before they are looked at. -/
def step (s : StringState) (strict : Bool) (c : Char) : Except ReadError (Option StringState) :=
  match s.escape with
  | .closed =>
    if c = '"' then .ok none
    else if c = '\\' then .ok (some { s with escape := .backslash })
    else if c.toNat < 0x20 then .error .controlCharacter
    else .ok (some (s.push c))
  | .backslash =>
    if c = 'u' then .ok (some { s with escape := .unit [] none })
    else
      match escapedChar? c with
      | some plain => .ok (some (s.push plain))
      | none => .error .invalidEscape
  | .unit chars high =>
    let chars := chars ++ [c]
    if byteCount chars < 4 then .ok (some { s with escape := .unit chars high })
    else
      match unit? chars with
      | some unit => (s.takeUnit strict high unit).map some
      | none => .error .invalidEscape
  | .high value =>
    if c = '\\' then .ok (some { s with escape := .highBackslash value }) else .error .cutSurrogate
  | .highBackslash value =>
    if c = 'u' then .ok (some { s with escape := .unit [] (some value) }) else .error .cutSurrogate

def text (s : StringState) : String := String.ofList s.chars.reverse

end StringState

/-! ## The reader -/

inductive Target where
  | document
  | field (f : Field)
  | skipped
  deriving DecidableEq

def Target.expected : Target → Expected
  | .document => .config
  | .field f => f.expected
  | .skipped => .config

inductive Shape where
  | list
  | object
  deriving DecidableEq

/-- An open bracket: one around settings, with the fields that it has had, or one that is skipped. -/
inductive Bracket where
  | settings (group : Group) (shape : Shape) (seen : List Field)
  | skipped (shape : Shape)

def Bracket.shape : Bracket → Shape
  | .settings _ shape _ => shape
  | .skipped shape => shape

/-- Strings in skipped brackets are read by looser rules. -/
def Bracket.strict : Bracket → Bool
  | .settings _ _ _ => true
  | .skipped _ => false

inductive Point where
  | value (target : Target)
  /-- The rest of a word, never empty, and what the word means. -/
  | word (next : Char) (rest : List Char) (meaning : Scalar) (target : Target)
  /-- A number; its characters so far stand in reverse order. -/
  | number (reached : NumberPoint) (chars : List Char) (target : Target)
  | string (state : StringState) (target : Target)
  | key (state : StringState)
  | colon (target : Target)
  /-- Behind an opening bracket. -/
  | opened
  /-- Behind a value. -/
  | after
  /-- Behind a comma. -/
  | comma
  /-- Behind a comma that follows the last field of a list. -/
  | lastComma

structure Reader where
  config : Config
  /-- The settings of a debugger object that is open. -/
  settings : DebuggerSettings
  /-- The open brackets, the innermost first. -/
  brackets : List Bracket
  point : Point

namespace Reader

def start : Reader := ⟨Config.default, DebuggerSettings.default, [], .value .document⟩

def isSpace (c : Char) : Bool := c = ' ' || c = '\n' || c = '\t' || c = '\r'

/-! ### Values -/

def store (r : Reader) (f : Field) (value : Scalar) : Except ReadError Reader :=
  match f, value with
  | .debugger, .null => .ok { r with config := { r.config with debugger := none } }
  | .loadstat, .bool b => .ok { r with config := { r.config with loadstat := b } }
  | .port, .integer n =>
    if 0 ≤ n && n < 65536 then
      .ok { r with settings := { r.settings with port := n.toNat.toUInt16 } }
    else .error (.portOutOfRange n)
  | .channel, .text text => .ok { r with settings := { r.settings with channel := text } }
  | .waitSource, .bool b => .ok { r with settings := { r.settings with waitSource := b } }
  | .contextReset, .bool b => .ok { r with settings := { r.settings with contextReset := b } }
  | _, _ => .error (.wrongType (.scalar value) f.expected)

def complete (r : Reader) (target : Target) (value : Scalar) : Except ReadError Reader :=
  match target with
  | .document => .error (.wrongType (.scalar value) target.expected)
  | .field f => (r.store f value).map fun r => { r with point := .after }
  | .skipped => .ok { r with point := .after }

/-- Takes a complete number. Skipped ones are not evaluated. -/
def completeNumber (r : Reader) (target : Target) (chars : List Char) : Except ReadError Reader :=
  if target = .skipped then .ok { r with point := .after }
  else do
    let value ← readNumber chars.reverse
    r.complete target value

def openSettings (r : Reader) (group : Group) (shape : Shape) : Reader :=
  { r with brackets := .settings group shape [] :: r.brackets, point := .opened }

def openBracket (r : Reader) (target : Target) (shape : Shape) : Except ReadError Reader :=
  let found : Found := match shape with
    | .list => .list
    | .object => .object
  match target with
  | .document => .ok (r.openSettings .config shape)
  | .field .debugger =>
    .ok { r.openSettings .debugger shape with settings := DebuggerSettings.default }
  | .field f => .error (.wrongType found f.expected)
  | .skipped => .ok { r with brackets := .skipped shape :: r.brackets, point := .opened }

def startValue (r : Reader) (target : Target) (c : Char) : Except ReadError Reader :=
  match NumberPoint.start? c with
  | some p => .ok { r with point := .number p [c] target }
  | none =>
    match c with
    | '"' => .ok { r with point := .string .start target }
    | 'n' => .ok { r with point := .word 'u' ['l', 'l'] .null target }
    | 't' => .ok { r with point := .word 'r' ['u', 'e'] (.bool true) target }
    | 'f' => .ok { r with point := .word 'a' ['l', 's', 'e'] (.bool false) target }
    | '[' => r.openBracket target .list
    | '\x7b' => r.openBracket target .object
    | _ => .error .expectedValue

/-! ### Members -/

/-- Takes a complete key, and finds what its value is read for. A field may come once. -/
def completeKey (r : Reader) (name : String) : Except ReadError Reader :=
  match r.brackets with
  | .settings group shape seen :: outer =>
    match group.field? name with
    | some f =>
      if f ∈ seen then .error (.duplicateField name)
      else .ok { r with
        brackets := .settings group shape (seen ++ [f]) :: outer, point := .colon (.field f) }
    | none => .ok { r with point := .colon .skipped }
  | _ => .ok { r with point := .colon .skipped }

def startElement (r : Reader) (c : Char) : Except ReadError Reader :=
  match r.brackets with
  | .settings group shape seen :: outer =>
    match group.fields[seen.length]? with
    | some f =>
      let r := { r with brackets := .settings group shape (seen ++ [f]) :: outer }
      r.startValue (.field f) c
    | none => .error .trailingCharacters
  | _ => r.startValue .skipped c

/-- Closes the innermost bracket. The settings of a debugger go into the configuration. -/
def close (r : Reader) : Reader :=
  match r.brackets with
  | .settings .debugger _ _ :: outer =>
    { r with
      config := { r.config with debugger := some r.settings }, brackets := outer, point := .after }
  | _ :: outer => { r with brackets := outer, point := .after }
  | [] => { r with point := .after }

def full : Bracket → Bool
  | .settings group .list seen => seen.length = group.fields.length
  | _ => false

def stepOpened (r : Reader) (c : Char) : Except ReadError Reader :=
  match r.brackets with
  | [] => .error .trailingCharacters
  | bracket :: _ =>
    match bracket.shape with
    | .list => if c = ']' then .ok r.close else r.startElement c
    | .object =>
      if c = '\x7d' then .ok r.close
      else if c = '"' then .ok { r with point := .key .start }
      else .error .keyNotString

def stepAfter (r : Reader) (c : Char) : Except ReadError Reader :=
  match r.brackets with
  | [] => .error .trailingCharacters
  | bracket :: _ =>
    match bracket.shape with
    | .list =>
      if c = ']' then .ok r.close
      else if c = ',' then .ok { r with point := if full bracket then .lastComma else .comma }
      else .error (if full bracket then .trailingCharacters else .expectedListEnd)
    | .object =>
      if c = '\x7d' then .ok r.close
      else if c = ',' then .ok { r with point := .comma }
      else .error .expectedObjectEnd

def stepComma (r : Reader) (c : Char) : Except ReadError Reader :=
  match r.brackets with
  | [] => .error .trailingCharacters
  | bracket :: _ =>
    match bracket.shape with
    | .list => if bracket.strict && c = ']' then .error .trailingComma else r.startElement c
    | .object =>
      if c = '"' then .ok { r with point := .key .start }
      else if bracket.strict && c = '\x7d' then .error .trailingComma
      else .error .keyNotString

/-- Whether the string or key that is being read has to be well formed in all respects. -/
def strictKey (r : Reader) : Bool :=
  match r.brackets with
  | bracket :: _ => bracket.strict
  | [] => true

/-! ### Characters -/

def step (r : Reader) (c : Char) : Except ReadError Reader :=
  match r.point with
  | .value target => if isSpace c then .ok r else r.startValue target c
  | .word next rest meaning target =>
    if c ≠ next then .error .expectedWord
    else
      match rest with
      | [] => r.complete target meaning
      | next :: rest => .ok { r with point := .word next rest meaning target }
  | .number p chars target => do
    match ← p.next c with
    | some p => return { r with point := .number p (c :: chars) target }
    | none =>
      let r ← r.completeNumber target chars
      if isSpace c then return r else r.stepAfter c
  | .string s target => do
    match ← s.step (target ≠ .skipped) c with
    | some s => return { r with point := .string s target }
    | none => r.complete target (.text s.text)
  | .key s => do
    match ← s.step r.strictKey c with
    | some s => return { r with point := .key s }
    | none => r.completeKey s.text
  | .colon target =>
    if isSpace c then .ok r
    else if c = ':' then .ok { r with point := .value target }
    else .error .expectedColon
  | .opened => if isSpace c then .ok r else r.stepOpened c
  | .after => if isSpace c then .ok r else r.stepAfter c
  | .comma => if isSpace c then .ok r else r.stepComma c
  | .lastComma =>
    if isSpace c then .ok r
    else .error (if c = ']' then .trailingComma else .trailingCharacters)

def finishAfter (r : Reader) : Except ReadError Config :=
  match r.brackets with
  | [] => .ok r.config
  | bracket :: _ =>
    match bracket.shape with
    | .list => .error .endOfList
    | .object => .error .endOfObject

def finish (r : Reader) : Except ReadError Config :=
  match r.point with
  | .value _ => .error .endOfValue
  | .word _ _ _ _ => .error .endOfValue
  | .number p chars target =>
    if p.complete then (r.completeNumber target chars).bind finishAfter
    else .error (if target = .skipped then .invalidNumber else .endOfValue)
  | .string _ _ => .error .endOfString
  | .key _ => .error .endOfString
  | .colon _ => .error .endOfObject
  | .opened => r.finishAfter
  | .after => r.finishAfter
  | .comma =>
    match r.brackets with
    | .skipped .object :: _ => .error .endOfObject
    | _ => .error .endOfValue
  | .lastComma => .error .trailingCharacters

end Reader

def read (text : List Char) : Except ReadError Config := do
  let r ← text.foldlM Reader.step .start
  r.finish

def ofJson (document : String) : Except ReadError Config := read document.toList

end ScriptHost.Config
