/-!
# Bytes as text, whatever they are

`Lossy.decode` reads bytes as UTF-8 and puts U+FFFD for what is none.  One replacement stands for a
longest run of bytes that could begin a character: a lead byte with the following bytes that fit it,
or a single byte that begins nothing.
-/

namespace SchemaEnums.Lossy

/-- A character that has begun: the value so far, how many bytes are missing, and between which
bounds the next of them has to be. -/
structure Begun where
  value : Nat
  missing : Nat
  low : UInt8
  high : UInt8

/-- What a lead byte begins.  The bounds of the second byte keep out overlong forms, surrogates and
values above U+10FFFF. -/
def Begun.ofLead? (b : UInt8) : Option Begun :=
  if 0xC2 ≤ b && b ≤ 0xDF then some ⟨b.toNat - 0xC0, 1, 0x80, 0xBF⟩
  else if b = 0xE0 then some ⟨0, 2, 0xA0, 0xBF⟩
  else if b = 0xED then some ⟨0xD, 2, 0x80, 0x9F⟩
  else if 0xE1 ≤ b && b ≤ 0xEF then some ⟨b.toNat - 0xE0, 2, 0x80, 0xBF⟩
  else if b = 0xF0 then some ⟨0, 3, 0x90, 0xBF⟩
  else if 0xF1 ≤ b && b ≤ 0xF3 then some ⟨b.toNat - 0xF0, 3, 0x80, 0xBF⟩
  else if b = 0xF4 then some ⟨4, 3, 0x80, 0x8F⟩
  else none

/-- What stands for bytes that are no character. -/
def replacement : Char := '\ufffd'

/-- Reads bytes, the first of which may belong to a character that has begun. -/
def decodeFrom (begun : Option Begun) : List UInt8 → List Char
  | [] =>
    match begun with
    | none => []
    | some _ => [replacement]
  | b :: rest =>
    match begun with
    | some char =>
      if char.low ≤ b && b ≤ char.high then
        let value := char.value * 64 + (b.toNat - 0x80)
        if char.missing = 1 then .ofNat value :: decodeFrom none rest
        else decodeFrom (some ⟨value, char.missing - 1, 0x80, 0xBF⟩) rest
      else replacement :: start b (fun begun => decodeFrom begun rest)
    | none => start b (fun begun => decodeFrom begun rest)
where
  /-- A byte at which a character has to begin; `next` reads the bytes behind it. -/
  start (b : UInt8) (next : Option Begun → List Char) : List Char :=
    if b < 0x80 then .ofNat b.toNat :: next none
    else
      match Begun.ofLead? b with
      | some begun => next (some begun)
      | none => replacement :: next none

/-- The text that bytes stand for. -/
def decode (bytes : List UInt8) : String :=
  .ofList (decodeFrom none bytes)

end SchemaEnums.Lossy
