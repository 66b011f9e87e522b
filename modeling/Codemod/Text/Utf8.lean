/-
Bytes as text. Where bytes are not UTF-8, the fault says how many of them start no character, or that
the bytes end inside one.
-/
namespace Codemod.Text

/-- The first place where bytes are not UTF-8. -/
structure Utf8Fault where
  offset : Nat
  /-- How many bytes are wrong together; nothing if the bytes end too early. -/
  length : Option Nat
  deriving DecidableEq, Repr

namespace Utf8Fault

def message (f : Utf8Fault) : String :=
  match f.length with
  | some n => s!"invalid utf-8 sequence of {n} bytes from index {f.offset}"
  | none => s!"incomplete utf-8 byte sequence from index {f.offset}"

end Utf8Fault

namespace Utf8

/-- The bytes that may follow a first byte: bounds for the second one, and how many come after it. -/
def shape? (first : UInt8) : Option (UInt8 × UInt8 × Nat) :=
  if 0xC2 ≤ first && first ≤ 0xDF then some (0x80, 0xBF, 0)
  else if first == 0xE0 then some (0xA0, 0xBF, 1)
  else if first == 0xED then some (0x80, 0x9F, 1)
  else if 0xE1 ≤ first && first ≤ 0xEF then some (0x80, 0xBF, 1)
  else if first == 0xF0 then some (0x90, 0xBF, 2)
  else if 0xF1 ≤ first && first ≤ 0xF3 then some (0x80, 0xBF, 2)
  else if first == 0xF4 then some (0x80, 0x8F, 2)
  else none

/-- Reads the bytes of a character behind those that have been seen: how many it has and what is
left, or how many bytes are wrong together. -/
def readRest : Nat → Nat → List UInt8 → Except (Option Nat) (Nat × List UInt8)
  | 0, seen, bytes => .ok (seen, bytes)
  | _ + 1, _, [] => .error none
  | count + 1, seen, b :: bytes =>
    if 0x80 ≤ b && b ≤ 0xBF then readRest count (seen + 1) bytes else .error (some seen)

/-- Reads one character from its first byte on. -/
def readChar (first : UInt8) (bytes : List UInt8) : Except (Option Nat) (Nat × List UInt8) :=
  if first < 0x80 then .ok (1, bytes)
  else match shape? first with
    | none => .error (some 1)
    | some (low, high, count) =>
      match bytes with
      | [] => .error none
      | second :: bytes =>
        if low ≤ second && second ≤ high then readRest count 2 bytes else .error (some 1)

/-- Looks for the first fault; the fuel bounds the number of characters. -/
def fault? : Nat → Nat → List UInt8 → Option Utf8Fault
  | 0, _, _ => none
  | _ + 1, _, [] => none
  | fuel + 1, offset, b :: bytes =>
    match readChar b bytes with
    | .ok (size, rest) => fault? fuel (offset + size) rest
    | .error length => some ⟨offset, length⟩

def decode (bytes : ByteArray) : Except Utf8Fault String :=
  match String.fromUTF8? bytes with
  | some s => .ok s
  | none =>
    let l := bytes.data.toList
    .error ((fault? (l.length + 1) 0 l).getD ⟨0, none⟩)

end Utf8

end Codemod.Text
