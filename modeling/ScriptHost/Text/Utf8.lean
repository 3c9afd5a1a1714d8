/-
UTF-8. Bytes are cut into pieces: characters, and runs that no well-formed text holds. A broken
run is the longest start of a well-formed sequence that is found, or one byte where none starts.
Strict reading reports the first broken run; lenient reading puts one replacement character in the
place of each.
-/

namespace ScriptHost

abbrev Bytes := List UInt8

namespace Text

/-! ## Sequences -/

structure ByteRange where
  least : UInt8
  greatest : UInt8

def ByteRange.contains (range : ByteRange) (byte : UInt8) : Bool :=
  range.least ≤ byte && byte ≤ range.greatest

/-- The bytes that may follow in a sequence when nothing narrower is known. -/
def continuation : ByteRange := ⟨0x80, 0xBF⟩

/-- A sequence that has begun: the value read so far, how many bytes that took, and the bytes that
have to follow. -/
structure Sequence where
  value : Nat
  length : Nat
  next : ByteRange
  later : List ByteRange

/-- What a byte begins: nothing, a character of its own, or a longer sequence. Overlong forms,
surrogates and values above the last code point are excluded by the range of the second byte. -/
inductive Lead where
  | broken
  | single (c : Char)
  | sequence (s : Sequence)

def lead (byte : UInt8) : Lead :=
  let b := byte.toNat
  if b < 0x80 then .single (Char.ofNat b)
  else if b < 0xC2 then .broken
  else if b < 0xE0 then .sequence ⟨b - 0xC0, 1, continuation, []⟩
  else if b = 0xE0 then .sequence ⟨0, 1, ⟨0xA0, 0xBF⟩, [continuation]⟩
  else if b = 0xED then .sequence ⟨0xD, 1, ⟨0x80, 0x9F⟩, [continuation]⟩
  else if b < 0xF0 then .sequence ⟨b - 0xE0, 1, continuation, [continuation]⟩
  else if b = 0xF0 then .sequence ⟨0, 1, ⟨0x90, 0xBF⟩, [continuation, continuation]⟩
  else if b < 0xF4 then .sequence ⟨b - 0xF0, 1, continuation, [continuation, continuation]⟩
  else if b = 0xF4 then .sequence ⟨4, 1, ⟨0x80, 0x8F⟩, [continuation, continuation]⟩
  else .broken

/-! ## Pieces -/

inductive Piece where
  | char (c : Char)
  /-- A start of a sequence of this many bytes, followed by a byte that cannot continue it. -/
  | broken (length : Nat)
  /-- A start of a sequence of this many bytes, cut off by the end. -/
  | cutOff (length : Nat)

/-- The pieces that a byte completes where no sequence has begun, and the sequence it begins. -/
def begin (byte : UInt8) : List Piece × Option Sequence :=
  match lead byte with
  | .broken => ([.broken 1], none)
  | .single c => ([.char c], none)
  | .sequence s => ([], some s)

/-- The pieces that a byte completes, and the sequence that has begun behind it. A byte that cannot
continue a sequence breaks it and is taken as a lead byte. -/
def advance (pending : Option Sequence) (byte : UInt8) : List Piece × Option Sequence :=
  match pending with
  | none => begin byte
  | some s =>
    if s.next.contains byte then
      let value := s.value * 64 + (byte.toNat - 0x80)
      match s.later with
      | [] => ([.char (Char.ofNat value)], none)
      | next :: later => ([], some ⟨value, s.length + 1, next, later⟩)
    else
      let (done, sequence) := begin byte
      (.broken s.length :: done, sequence)

/-- The pieces of the bytes, when the sequence `pending` has begun before them. -/
def piecesFrom (pending : Option Sequence) : Bytes → List Piece
  | [] =>
    match pending with
    | none => []
    | some s => [.cutOff s.length]
  | byte :: bytes =>
    let (done, next) := advance pending byte
    done ++ piecesFrom next bytes

def pieces (bytes : Bytes) : List Piece := piecesFrom none bytes

/-! ## Reading and writing -/

/-- Why a byte string is no text: the place of its first broken run. -/
inductive Utf8Error where
  | broken (length start : Nat)
  | cutOff (start : Nat)
  deriving Repr, DecidableEq

def Utf8Error.message : Utf8Error → String
  | .broken length start => s!"invalid utf-8 sequence of {length} bytes from index {start}"
  | .cutOff start => s!"incomplete utf-8 byte sequence from index {start}"

/-- The characters of the pieces, the first of which starts at byte `start`. -/
def charsOf (start : Nat) : List Piece → Except Utf8Error (List Char)
  | [] => .ok []
  | .char c :: rest => (charsOf (start + c.utf8Size) rest).map (c :: ·)
  | .broken length :: _ => .error (.broken length start)
  | .cutOff _ :: _ => .error (.cutOff start)

/-- Strict reading. -/
def decode (bytes : Bytes) : Except Utf8Error String :=
  (charsOf 0 (pieces bytes)).map String.ofList

/-- The character that stands for what cannot be read. -/
def replacement : Char := '\ufffd'

def Piece.orReplacement : Piece → Char
  | .char c => c
  | .broken _ => replacement
  | .cutOff _ => replacement

/-- Lenient reading. -/
def decodeLossy (bytes : Bytes) : String :=
  String.ofList ((pieces bytes).map Piece.orReplacement)

def encode (text : String) : Bytes :=
  text.toList.flatMap String.utf8EncodeChar

end Text

end ScriptHost
