/-!
# Reading bytes as UTF-8

Every longest piece of bytes that begins a character but does not finish one,
and every other byte out of place, spells no character. Where a text is needed
all the same, a replacement character stands in its place.
-/

set_option autoImplicit false

namespace PageLookup.Text

def encode (text : String) : List UInt8 := text.toList.flatMap String.utf8EncodeChar

inductive Piece where
  | char (c : Char)
  | broken (bytes : List UInt8)

/-- A character begun: the bits and the bytes so far, the latest first, how many are missing, and
the bounds of the next byte. -/
structure Begun where
  bits : Nat
  bytes : List UInt8
  missing : Nat
  least : Nat
  greatest : Nat

/-- The bounds after the first byte leave out forms longer than needed, the
surrogates, and numbers beyond the last character. -/
def Begun.ofLead? (b : UInt8) : Option Begun :=
  let n := b.toNat
  if 0xc2 ≤ n ∧ n ≤ 0xdf then some ⟨n - 0xc0, [b], 1, 0x80, 0xbf⟩
  else if n = 0xe0 then some ⟨0, [b], 2, 0xa0, 0xbf⟩
  else if n = 0xed then some ⟨0xd, [b], 2, 0x80, 0x9f⟩
  else if 0xe1 ≤ n ∧ n ≤ 0xef then some ⟨n - 0xe0, [b], 2, 0x80, 0xbf⟩
  else if n = 0xf0 then some ⟨0, [b], 3, 0x90, 0xbf⟩
  else if 0xf1 ≤ n ∧ n ≤ 0xf3 then some ⟨n - 0xf0, [b], 3, 0x80, 0xbf⟩
  else if n = 0xf4 then some ⟨4, [b], 3, 0x80, 0x8f⟩
  else none

def lead (b : UInt8) : List Piece × Option Begun :=
  if b.toNat < 0x80 then ([.char (Char.ofNat b.toNat)], none)
  else
    match Begun.ofLead? b with
    | some g => ([], some g)
    | none => ([.broken [b]], none)

def piecesAfter : Option Begun → List UInt8 → List Piece
  | none, [] => []
  | some g, [] => [.broken g.bytes.reverse]
  | none, b :: rest =>
    let (pieces, begun) := lead b
    pieces ++ piecesAfter begun rest
  | some g, b :: rest =>
    let n := b.toNat
    if g.least ≤ n ∧ n ≤ g.greatest then
      let bits := g.bits*0x40 + (n - 0x80)
      if g.missing = 1 then .char (Char.ofNat bits) :: piecesAfter none rest
      else piecesAfter (some ⟨bits, b :: g.bytes, g.missing - 1, 0x80, 0xbf⟩) rest
    else
      let (pieces, begun) := lead b
      .broken g.bytes.reverse :: pieces ++ piecesAfter begun rest

def pieces (bytes : List UInt8) : List Piece := piecesAfter none bytes

def Piece.shown : Piece → Char
  | .char c => c
  | .broken _ => '\ufffd'

def decode (bytes : List UInt8) : String := String.ofList ((pieces bytes).map Piece.shown)

def byteOrderMark : List UInt8 := [0xef, 0xbb, 0xbf]

/-- The text of a file: one mark of the byte order at its start does not count. -/
def decodeFile (bytes : List UInt8) : String :=
  decode (if byteOrderMark.isPrefixOf bytes then bytes.drop byteOrderMark.length else bytes)

end PageLookup.Text
