import PathRights.Text.Quoted

/-!
Reading bytes as UTF-8. Every sequence of bytes is either the encoding of one text or has a first
place where it stops to be one; the fault names that place, the bytes that were read there and the
reason.
-/

namespace PathRights.Text

/-- Why bytes are not UTF-8. -/
inductive Utf8Reason where
  /-- No character starts with this byte. -/
  | invalidStart
  /-- The character that was begun does not go on with the next byte. -/
  | invalidContinuation
  /-- The bytes end inside a character. -/
  | unexpectedEnd
deriving DecidableEq, Repr

/-- A place where bytes stop to be UTF-8: the `count` bytes from `position` on begin with `byte`
and are no character. -/
structure Utf8Fault where
  reason : Utf8Reason
  position : Nat
  count : Nat
  byte : UInt8
deriving DecidableEq, Repr

/-- The reason in words. -/
def Utf8Reason.message : Utf8Reason → Text
  | .invalidStart => "invalid start byte"
  | .invalidContinuation => "invalid continuation byte"
  | .unexpectedEnd => "unexpected end of data"

/-- The fault in words: one byte is shown, several are only counted. -/
def Utf8Fault.message (fault : Utf8Fault) : Text :=
  "'utf-8' codec can't decode " ++
    (if fault.count = 1 then
      "byte 0x" ++ hex 2 fault.byte.toNat ++ " in position " ++ ofNat fault.position
    else
      "bytes in position " ++ ofNat fault.position ++ "-" ++
        ofNat (fault.position + fault.count - 1)) ++
    ": " ++ fault.reason.message

/-- The byte continues a character. -/
def isTail (b : UInt8) : Bool := 0x80 ≤ b && b ≤ 0xBF

/-- The bytes that may follow a first byte: the least and the greatest second byte, and how many
bytes the character has. A first byte below 0x80 is a character by itself. -/
def leadOf (b : UInt8) : Option (UInt8 × UInt8 × Nat) :=
  if b < 0x80 then some (0x80, 0xBF, 1)
  else if b < 0xC2 then none
  else if b < 0xE0 then some (0x80, 0xBF, 2)
  else if b == 0xE0 then some (0xA0, 0xBF, 3)
  else if b == 0xED then some (0x80, 0x9F, 3)
  else if b < 0xF0 then some (0x80, 0xBF, 3)
  else if b == 0xF0 then some (0x90, 0xBF, 4)
  else if b < 0xF4 then some (0x80, 0xBF, 4)
  else if b == 0xF4 then some (0x80, 0x8F, 4)
  else none

/-- The low six bits of a byte that continues a character. -/
def tailBits (b : UInt8) : Nat := b.toNat % 64

/-- How many of the next bytes, `wanted` at most, continue a character. -/
def goodTails : Nat → List UInt8 → Nat
  | wanted + 1, b :: rest => if isTail b then goodTails wanted rest + 1 else 0
  | _, _ => 0

/-- What stands at the start of bytes: a character of `size` bytes, or the reason why there is none
and the number of bytes that were good. -/
inductive Utf8Step where
  | char (c : Char) (size : Nat)
  | fault (reason : Utf8Reason) (count : Nat)

/-- Reads one character after its first byte `b`. -/
def decodeStep (b : UInt8) (rest : List UInt8) : Utf8Step :=
  match leadOf b with
  | none => .fault .invalidStart 1
  | some (low, high, size) =>
    if size = 1 then .char (Char.ofNat b.toNat) 1
    else
      match rest with
      | [] => .fault .unexpectedEnd 1
      | second :: more =>
        if second < low || high < second then .fault .invalidContinuation 1
        else
          let good := goodTails (size - 2) more
          if good = size - 2 then
            let head := b.toNat % Nat.pow 2 (7 - size)
            let tails := second :: more.take (size - 2)
            .char (Char.ofNat (tails.foldl (fun n t => n * 64 + tailBits t) head)) size
          else if good = more.length then .fault .unexpectedEnd (good + 2)
          else .fault .invalidContinuation (good + 2)

/-- Reads the bytes from `position` on; the next `skip` of them belong to a character that was read
already. A fault at the end of the bytes is placed at the start of the unfinished character alone,
as that character is looked at by itself once no more bytes come. -/
def decodeFrom (position : Nat) : Nat → List UInt8 → Except Utf8Fault Text
  | _, [] => .ok []
  | skip + 1, _ :: rest => decodeFrom (position + 1) skip rest
  | 0, b :: rest =>
    match decodeStep b rest with
    | .char c size => (decodeFrom (position + 1) (size - 1) rest).map (c :: ·)
    | .fault .unexpectedEnd count => .error ⟨.unexpectedEnd, 0, count, b⟩
    | .fault reason count => .error ⟨reason, position, count, b⟩

/-- The text that the bytes encode. -/
def ofUtf8 (bytes : List UInt8) : Except Utf8Fault Text := decodeFrom 0 0 bytes

/-- The number of bytes of the text. -/
def utf8Length : Text → Nat
  | [] => 0
  | c :: rest => c.utf8Size + utf8Length rest

/-- The bytes of the text. -/
def toUtf8 (text : Text) : List UInt8 := (String.ofList text).toUTF8.toList

example : (ofUtf8 [0x61, 0xC3, 0xA9]).toOption = some "aé".toList := by decide +kernel
example : (ofUtf8 [0xE2, 0x82, 0x28]).toOption = none := by decide +kernel

end PathRights.Text
