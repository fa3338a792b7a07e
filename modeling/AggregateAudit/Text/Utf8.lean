/-!
# Bytes as text

The names that a system keeps are bytes, and bytes need not be text.  Reading them as
text goes on where it can: bytes that begin a character which does not go on are set
apart as one stretch, and reading starts again with the byte behind them.  So every row
of bytes is a row of characters and broken stretches, and a row of bytes that is text has
no broken one.

Reading is a machine that takes one byte after the other.  Between two bytes it knows the
character that has begun, if one has, and within which bounds the next byte goes on with
it.
-/

namespace AggregateAudit
namespace Utf8

/-- A stretch of bytes. -/
inductive Stretch where
  | char (c : Char)
  /-- Bytes that begin a character, or one that begins none. -/
  | broken (bytes : List UInt8)
  deriving DecidableEq

/-- A character that has begun. -/
structure Begun where
  /-- Its bytes so far. -/
  bytes : List UInt8
  /-- The number that they stand for. -/
  value : Nat
  /-- How many bytes are missing behind the next one. -/
  missing : Nat
  /-- The least byte that goes on with it. -/
  low : Nat := 0x80
  /-- The greatest byte that goes on with it. -/
  high : Nat := 0xBF
  deriving DecidableEq

/-- Takes the first byte of a character: what is complete with it, and what has
begun. -/
def start (b : UInt8) : List Stretch × Option Begun :=
  let n := b.toNat
  if n < 0x80 then ([.char (Char.ofNat n)], none)
  else if 0xC2 ≤ n && n ≤ 0xDF then ([], some ⟨[b], n % 32, 0, 0x80, 0xBF⟩)
  else if 0xE0 ≤ n && n ≤ 0xEF then
    ([], some ⟨[b], n % 16, 1, if n = 0xE0 then 0xA0 else 0x80, if n = 0xED then 0x9F else 0xBF⟩)
  else if 0xF0 ≤ n && n ≤ 0xF4 then
    ([], some ⟨[b], n % 8, 2, if n = 0xF0 then 0x90 else 0x80, if n = 0xF4 then 0x8F else 0xBF⟩)
  else ([.broken [b]], none)

/-- Takes a byte behind a character that has begun. -/
def Begun.next (s : Begun) (b : UInt8) : List Stretch × Option Begun :=
  let n := b.toNat
  if s.low ≤ n && n ≤ s.high then
    let value := s.value * 64 + n % 64
    match s.missing with
    | 0 => ([.char (Char.ofNat value)], none)
    | missing + 1 => ([], some ⟨s.bytes ++ [b], value, missing, 0x80, 0xBF⟩)
  else
    let (stretches, begun) := start b
    (.broken s.bytes :: stretches, begun)

/-- Takes a byte. -/
def step : Option Begun → UInt8 → List Stretch × Option Begun
  | none, b => start b
  | some s, b => s.next b

/-- The stretches of a row of bytes behind a character that has begun. -/
def stretchesFrom : Option Begun → List UInt8 → List Stretch
  | none, [] => []
  | some s, [] => [.broken s.bytes]
  | state, b :: bytes => (step state b).1 ++ stretchesFrom (step state b).2 bytes

/-- The stretches of a row of bytes. -/
def stretches (bytes : List UInt8) : List Stretch := stretchesFrom none bytes

/-- What is shown of a broken stretch. -/
def replacement : Char := Char.ofNat 0xFFFD

/-- A stretch as it is shown. -/
def Stretch.shown : Stretch → Char
  | char c => c
  | broken _ => replacement

/-- Bytes as they are shown: each broken stretch as one replacement. -/
def lossy (bytes : List UInt8) : String := String.ofList ((stretches bytes).map Stretch.shown)

/-- The bytes of a text. -/
def encode (s : String) : List UInt8 := s.toUTF8.data.toList

/-- The text that bytes are, if they are one. -/
def decode? (bytes : List UInt8) : Option String := String.fromUTF8? ⟨bytes.toArray⟩

end Utf8
end AggregateAudit
