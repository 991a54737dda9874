import DeclBridge.Text.Basic

/-!
The encoding UTF-8. Reading reports the first bytes that are not well formed, and why.
-/

namespace DeclBridge.Text

abbrev Bytes := List UInt8

def encodeUtf8 (text : Text) : Bytes :=
  text.flatMap String.utf8EncodeChar

/-- Bytes that cannot be read: the offset of the first, their number, and the reason. -/
structure Utf8Fault where
  offset : Nat
  length : Nat
  byte : UInt8
  reason : Text
deriving DecidableEq, Repr

def invalidStart : Text := "invalid start byte".toList

def invalidContinuation : Text := "invalid continuation byte".toList

def unexpectedEnd : Text := "unexpected end of data".toList

/-- The bounds of the second byte after a first one, which rule out overlong forms, surrogates and
numbers beyond the last code point. -/
def secondByteBounds (first : Nat) : Nat × Nat :=
  if first = 0xe0 then (0xa0, 0xbf)
  else if first = 0xed then (0x80, 0x9f)
  else if first = 0xf0 then (0x90, 0xbf)
  else if first = 0xf4 then (0x80, 0x8f)
  else (0x80, 0xbf)

/-- How many bytes a first byte announces, and its share of the code point. -/
def sequenceStart? (first : Nat) : Option (Nat × Nat) :=
  if 0xc2 ≤ first && first ≤ 0xdf then some (2, first - 0xc0)
  else if 0xe0 ≤ first && first ≤ 0xef then some (3, first - 0xe0)
  else if 0xf0 ≤ first && first ≤ 0xf4 then some (4, first - 0xf0)
  else none

/-- Reads so many continuation bytes. The first of them has bounds of its own. Otherwise tells how
many were good, and whether it is only that the bytes end. -/
def continuation (needed good : Nat) (bounds : Nat × Nat) (point : Nat) (rest : Bytes) :
    Except (Nat × Bool) Nat :=
  match needed, rest with
  | 0, _ => .ok point
  | _ + 1, [] => .error (good, true)
  | needed + 1, byte :: rest =>
    if bounds.1 ≤ byte.toNat && byte.toNat ≤ bounds.2 then
      continuation needed (good + 1) (0x80, 0xbf) (64 * point + (byte.toNat - 0x80)) rest
    else .error (good, false)

/-- The character at the start of some bytes and how many it takes. -/
def firstChar (offset : Nat) (first : UInt8) (rest : Bytes) : Except Utf8Fault (Char × Nat) :=
  let point := first.toNat
  if point < 0x80 then .ok (Char.ofNat point, 1)
  else
    match sequenceStart? point with
    | none => .error ⟨offset, 1, first, invalidStart⟩
    | some (length, share) =>
      match continuation (length - 1) 0 (secondByteBounds point) share rest with
      | .ok point => .ok (Char.ofNat point, length)
      | .error (good, ended) =>
        .error ⟨offset, good + 1, first, if ended then unexpectedEnd else invalidContinuation⟩

/-- Reads on at an offset, where `skip` bytes belong to the character before. -/
def decodeUtf8From (offset skip : Nat) : Bytes → Except Utf8Fault Text
  | [] => .ok []
  | byte :: rest =>
    match skip with
    | skip + 1 => decodeUtf8From (offset + 1) skip rest
    | 0 => do
      let (c, length) ← firstChar offset byte rest
      let more ← decodeUtf8From (offset + 1) (length - 1) rest
      pure (c :: more)

def decodeUtf8 (bytes : Bytes) : Except Utf8Fault Text :=
  decodeUtf8From 0 0 bytes

def hexDigits (byte : UInt8) : Text :=
  [Nat.digitChar (byte.toNat / 16), Nat.digitChar (byte.toNat % 16)]

def Utf8Fault.message (fault : Utf8Fault) : Text :=
  let place :=
    if fault.length = 1 then
      "byte 0x".toList ++ hexDigits fault.byte ++ " in position ".toList ++ ofNat fault.offset
    else
      "bytes in position ".toList ++ ofNat fault.offset ++ '-' ::
        ofNat (fault.offset + fault.length - 1)
  "'utf-8' codec can't decode ".toList ++ place ++ ": ".toList ++ fault.reason

/-- Every line break of the two other conventions becomes a line feed. -/
def unifyLineFeeds : Text → Text
  | [] => []
  | '\r' :: '\n' :: rest => '\n' :: unifyLineFeeds rest
  | c :: rest => (if c = '\r' then '\n' else c) :: unifyLineFeeds rest

end DeclBridge.Text
