import EditableTemplate.Text.Quoted

/-!
# UTF-8

`Utf8.decode` reads bytes as a strict UTF-8 text and names the first fault. A first byte says how
many bytes follow and, so that every character has one form and no surrogate has any, in which
range the second lies; the others lie in `80` to `BF`. `Utf8.readText` also gives every line end the
form of a single newline character. Halves of surrogate pairs have no bytes (`Utf8.refusal`).
-/

namespace EditableTemplate.Utf8

/-- Why a sequence of bytes is no character. -/
inductive Reason
  /-- The byte can not be the first of a character. -/
  | invalidStart
  /-- The byte after the sequence does not continue it. -/
  | invalidContinuation
  /-- The bytes end within a character. -/
  | unexpectedEnd
  deriving DecidableEq, Repr

/-- A sequence of bytes that is no character. -/
structure Fault where
  /-- The offset of its first byte. -/
  position : Nat
  /-- The number of its bytes. -/
  length : Nat
  /-- Its first byte. -/
  first : UInt8
  /-- What is wrong with it. -/
  reason : Reason
  deriving DecidableEq, Repr

/-- A character of which some bytes are still to come. -/
structure Partial where
  /-- The offset of its first byte. -/
  position : Nat
  /-- Its first byte. -/
  first : UInt8
  /-- The number of bytes read. -/
  read : Nat
  /-- The number of bytes to come. -/
  owed : Nat
  /-- The least value that the next byte may have. -/
  low : Nat
  /-- The greatest value that the next byte may have. -/
  high : Nat
  /-- The bits of the code point read so far. -/
  bits : Nat
  deriving DecidableEq, Repr

/-- What a byte starts: a character of its own, the first part of a longer one, or nothing. -/
inductive Start
  /-- The byte is a character. -/
  | single (c : Char)
  /-- More bytes follow. -/
  | more (pending : Partial)
  /-- No character starts so. -/
  | invalid

/-- What the byte at a position starts. -/
def start (position : Nat) (byte : UInt8) : Start :=
  let n := byte.toNat
  let more (owed low high bits : Nat) : Start := .more ⟨position, byte, 1, owed, low, high, bits⟩
  if n < 0x80 then .single (Char.ofNat n)
  else if n < 0xC2 then .invalid
  else if n < 0xE0 then more 1 0x80 0xBF (n - 0xC0)
  else if n = 0xE0 then more 2 0xA0 0xBF 0
  else if n = 0xED then more 2 0x80 0x9F 0xD
  else if n < 0xF0 then more 2 0x80 0xBF (n - 0xE0)
  else if n = 0xF0 then more 3 0x90 0xBF 0
  else if n < 0xF4 then more 3 0x80 0xBF (n - 0xF0)
  else if n = 0xF4 then more 3 0x80 0x8F 4
  else .invalid

/-- The fault of a character that breaks off. -/
def Partial.broken (pending : Partial) (reason : Reason) : Fault :=
  ⟨pending.position, pending.read, pending.first, reason⟩

/-- The character after one more byte. -/
def Partial.extend (pending : Partial) (byte : UInt8) : Partial :=
  { pending with
    read := pending.read + 1
    owed := pending.owed - 1
    low := 0x80
    high := 0xBF
    bits := pending.bits * 64 + (byte.toNat - 0x80) }

/-- Reads the bytes from a position on, within a character if one is pending. -/
def decodeFrom (position : Nat) : Option Partial → List UInt8 → Except Fault (List Char)
  | none, [] => .ok []
  | some pending, [] => .error (pending.broken .unexpectedEnd)
  | none, byte :: rest =>
    match start position byte with
    | .single c => (decodeFrom (position + 1) none rest).map (c :: ·)
    | .more pending => decodeFrom (position + 1) (some pending) rest
    | .invalid => .error ⟨position, 1, byte, .invalidStart⟩
  | some pending, byte :: rest =>
    if pending.low ≤ byte.toNat ∧ byte.toNat ≤ pending.high then
      let extended := pending.extend byte
      if extended.owed = 0 then
        (decodeFrom (position + 1) none rest).map (Char.ofNat extended.bits :: ·)
      else decodeFrom (position + 1) (some extended) rest
    else .error (pending.broken .invalidContinuation)

/-- The text that the bytes encode, or the first sequence that is no character. -/
def decode (bytes : List UInt8) : Except Fault (List Char) :=
  decodeFrom 0 none bytes

/-- What is wrong, in words. -/
def Reason.message : Reason → String
  | .invalidStart => "invalid start byte"
  | .invalidContinuation => "invalid continuation byte"
  | .unexpectedEnd => "unexpected end of data"

/-- The fault in words: a single byte by its value, several by their positions. -/
def Fault.message (fault : Fault) : String :=
  let digits := String.ofList
    [Nat.digitChar (fault.first.toNat / 16), Nat.digitChar (fault.first.toNat % 16)]
  let last := fault.position + fault.length - 1
  let subject :=
    if fault.length = 1 then s!"byte 0x{digits} in position {fault.position}"
    else s!"bytes in position {fault.position}-{last}"
  s!"'utf-8' codec can't decode {subject}: {fault.reason.message}"

/-- Every line end (carriage return, newline, or the first before the second) as one newline. -/
def unifyNewlines : List Char → List Char
  | [] => []
  | '\r' :: '\n' :: rest => '\n' :: unifyNewlines rest
  | '\r' :: rest => '\n' :: unifyNewlines rest
  | c :: rest => c :: unifyNewlines rest

/-- The text that the bytes encode, its line ends unified. -/
def readText (bytes : List UInt8) : Except Fault String :=
  (decode bytes).map fun text => String.ofList (unifyNewlines text)

/-- The bytes of a text. -/
def encode (text : String) : List UInt8 :=
  text.toUTF8.toList

/-- Why halves of surrogate pairs have no bytes, in words: a single one by its number, several by
their positions. -/
def refusal (run : SurrogateRun) : String :=
  let number := String.ofList (Text.hexDigits 4 run.first.value)
  let last := run.position + run.length - 1
  let subject :=
    if run.length = 1 then s!"character '\\u{number}' in position {run.position}"
    else s!"characters in position {run.position}-{last}"
  s!"'utf-8' codec can't encode {subject}: surrogates not allowed"

end EditableTemplate.Utf8
