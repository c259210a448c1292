/-!
# Reading and writing UTF-8

`decode` takes bytes apart into characters and stretches that belong to no character; a broken
stretch is as long as a character's beginning could be read, and at least one byte. From it come
the strict reading, which refuses any broken stretch, and the lossy one, which shows a replacement
character for each.

A place in a text is also named by an offset, the number of bytes in front of it. A text can be
sliced at an offset only where a character begins or the text ends.
-/

namespace RebasePlan.Text

/-- A piece of a byte sequence read as UTF-8. -/
inductive Piece where
  /-- A well-formed character. -/
  | character (c : Char)
  /-- Bytes that begin no character, or only the beginning of one. -/
  | broken (bytes : List UInt8)
  deriving DecidableEq, Repr

/-- The bytes that continue a character. -/
def isContinuation (b : UInt8) : Bool := 0x80 ≤ b && b ≤ 0xBF

/-- Whether `b` may follow the lead byte `a`: no overlong forms, no surrogates, nothing above the
    last code point. -/
def mayFollow (a b : UInt8) : Bool :=
  if a == 0xE0 then 0xA0 ≤ b && b ≤ 0xBF
  else if a == 0xED then 0x80 ≤ b && b ≤ 0x9F
  else if a == 0xF0 then 0x90 ≤ b && b ≤ 0xBF
  else if a == 0xF4 then 0x80 ≤ b && b ≤ 0x8F
  else isContinuation b

/-- The lead bytes of characters of two, three and four bytes. -/
def leadsTwo (a : UInt8) : Bool := 0xC2 ≤ a && a ≤ 0xDF
@[inherit_doc leadsTwo]
def leadsThree (a : UInt8) : Bool := 0xE0 ≤ a && a ≤ 0xEF
@[inherit_doc leadsTwo]
def leadsFour (a : UInt8) : Bool := 0xF0 ≤ a && a ≤ 0xF4

/-- The payload of a continuation byte. -/
def low6 (b : UInt8) : Nat := b.toNat % 64

/-- Takes bytes apart into characters and broken stretches. -/
def decode : List UInt8 → List Piece
  | [] => []
  | a :: rest =>
    if a < 0x80 then .character (Char.ofNat a.toNat) :: decode rest
    else if leadsTwo a || leadsThree a || leadsFour a then
      match rest with
      | [] => [.broken [a]]
      | b :: rest₂ =>
        if !mayFollow a b then .broken [a] :: decode (b :: rest₂)
        else if leadsTwo a then
          .character (Char.ofNat (a.toNat % 32 * 64 + low6 b)) :: decode rest₂
        else
          match rest₂ with
          | [] => [.broken [a, b]]
          | c :: rest₃ =>
            if !isContinuation c then .broken [a, b] :: decode (c :: rest₃)
            else if leadsThree a then
              .character (Char.ofNat ((a.toNat % 16 * 64 + low6 b) * 64 + low6 c)) :: decode rest₃
            else
              match rest₃ with
              | [] => [.broken [a, b, c]]
              | d :: rest₄ =>
                if !isContinuation d then .broken [a, b, c] :: decode (d :: rest₄)
                else
                  .character
                    (Char.ofNat (((a.toNat % 8 * 64 + low6 b) * 64 + low6 c) * 64 + low6 d)) ::
                    decode rest₄
    else .broken [a] :: decode rest

/-- The character that stands for bytes that cannot be read. -/
def replacement : Char := '\uFFFD'

/-- The text of a piece, with the replacement character for a broken stretch. -/
def Piece.shown : Piece → Char
  | .character c => c
  | .broken _ => replacement

/-- Reads bytes as text, one replacement character for each broken stretch. -/
def lossy (bytes : List UInt8) : String := String.ofList ((decode bytes).map Piece.shown)

/-- The characters of pieces that are all well formed. -/
def Piece.characters? : List Piece → Option (List Char)
  | [] => some []
  | .character c :: rest => (Piece.characters? rest).map (c :: ·)
  | .broken _ :: _ => none

/-- Reads bytes as text, if they are well formed throughout. -/
def strict (bytes : List UInt8) : Option String :=
  (Piece.characters? (decode bytes)).map String.ofList

/-- The bytes of a text. -/
def encode (s : String) : List UInt8 := s.toList.flatMap String.utf8EncodeChar

/-! ## Offsets and slices -/

/-- The bytes of characters. -/
def bytesOf (cs : List Char) : List UInt8 := cs.flatMap String.utf8EncodeChar

/-- How many bytes stand in front of the first place where a pattern begins. -/
def offset? (pattern : List UInt8) : List UInt8 → Option Nat
  | [] => if pattern.isEmpty then some 0 else none
  | b :: bytes =>
    if pattern.isPrefixOf (b :: bytes) then some 0 else (offset? pattern bytes).map (· + 1)

/-- Whether the bytes of a text can be cut at an offset: at either end, or where a character
    begins. -/
def isBoundary (bytes : List UInt8) (offset : Nat) : Bool :=
  offset == 0 || match bytes[offset]? with
    | some b => !isContinuation b
    | none => offset == bytes.length

/-- Why a text cannot be sliced. -/
inductive SliceError where
  /-- The offset lies inside a character, or behind the end. -/
  | noBoundary (offset : Nat)
  deriving DecidableEq, Repr

/-- The text in front of an offset. -/
def sliceTo (s : String) (offset : Nat) : Except SliceError String :=
  if isBoundary (encode s) offset then .ok (lossy ((encode s).take offset))
  else .error (.noBoundary offset)

/-- The text from an offset on. -/
def sliceFrom (s : String) (offset : Nat) : Except SliceError String :=
  if isBoundary (encode s) offset then .ok (lossy ((encode s).drop offset))
  else .error (.noBoundary offset)

end RebasePlan.Text
