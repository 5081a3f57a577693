import LexKit.Byte

/-!
# UTF-8

Encoding of text and decoding of arbitrary bytes. Decoding reads one byte at a time and keeps,
between two bytes, how much of a character is still missing. Bytes that form no character are
grouped into *maximal subparts*: the longest run that begins some character, or else a single byte.
Each subpart gives one ill-formed unit.
-/

set_option autoImplicit false

namespace LexKit.Utf8

def encode (text : String) : Bytes :=
  text.toList.flatMap String.utf8EncodeChar

/-- Where decoding stands between two bytes. `within value missing low high` is inside a character:
`value` collects its bits so far, `missing` continuation bytes are due, and the next must lie
between `low` and `high`. -/
inductive Progress where
  | between
  | within (value : Nat) (missing : Nat) (low high : UInt8)
deriving DecidableEq, Repr

/-- A decoded unit: a character, or `none` for an ill-formed maximal subpart. -/
abbrev Unit := Option Char

/-- Reads a byte that stands where a character may begin. The narrower ranges after E0, ED, F0 and
F4 exclude overlong forms, surrogates and codes past the last character. -/
def begin (byte : UInt8) : List Unit × Progress :=
  if byte < 0x80 then ([some (Char.ofNat byte.toNat)], .between)
  else if byte < 0xC2 then ([none], .between)
  else if byte < 0xE0 then ([], .within (byte.toNat - 0xC0) 1 0x80 0xBF)
  else if byte == 0xE0 then ([], .within 0 2 0xA0 0xBF)
  else if byte == 0xED then ([], .within 0xD 2 0x80 0x9F)
  else if byte < 0xF0 then ([], .within (byte.toNat - 0xE0) 2 0x80 0xBF)
  else if byte == 0xF0 then ([], .within 0 3 0x90 0xBF)
  else if byte < 0xF4 then ([], .within (byte.toNat - 0xF0) 3 0x80 0xBF)
  else if byte == 0xF4 then ([], .within 4 3 0x80 0x8F)
  else ([none], .between)

/-- Reads one byte: the units it completes and the progress after it. A byte that cannot continue
the current character closes it as ill-formed and is read again as a first byte. -/
def step : Progress → UInt8 → List Unit × Progress
  | .between, byte => begin byte
  | .within value missing low high, byte =>
      if low ≤ byte ∧ byte ≤ high then
        let extended := value * 64 + (byte.toNat - 0x80)
        if missing ≤ 1 then ([some (Char.ofNat extended)], .between)
        else ([], .within extended (missing - 1) 0x80 0xBF)
      else
        let (units, progress) := begin byte
        (none :: units, progress)

def finish : Progress → List Unit
  | .between => []
  | .within .. => [none]

/-- The units of `bytes` read from `progress`, in front of which `done` was read (last
unit first). -/
def unitsFrom (done : List Unit) (progress : Progress) : Bytes → List Unit
  | [] => (finish progress).reverse ++ done |>.reverse
  | byte :: rest =>
      let (units, next) := step progress byte
      unitsFrom (units.reverse ++ done) next rest

def units (bytes : Bytes) : List Unit :=
  unitsFrom [] .between bytes

/-- Stands for each ill-formed subpart in a lossy decoding. -/
def replacement : Char := '\uFFFD'

/-- Decodes with one replacement character per ill-formed subpart. -/
def decodeLossy (bytes : Bytes) : List Char :=
  (units bytes).map (·.getD replacement)

def decode? (bytes : Bytes) : Option String :=
  if (units bytes).all Option.isSome then
    some (String.ofList ((units bytes).filterMap id))
  else
    none

/-- Decodes bytes below 0x80 as themselves and every other byte as a replacement character. -/
def decodeAscii (bytes : Bytes) : List Char :=
  bytes.map fun byte => if byte < 0x80 then Char.ofNat byte.toNat else replacement

end LexKit.Utf8
