import PageLookup.Text.Printable
import PageLookup.Text.Utf8

/-!
# Quoted text in messages

A text is shown between double quotes. Quote and backslash take a backslash,
four control characters have a letter of their own, and every other character
that does not print is shown by its number in lower-case hexadecimal digits.
Bytes that spell no character are shown one by one in upper-case digits.
-/

set_option autoImplicit false

namespace PageLookup.Text

def hex (n : Nat) : List Char := Nat.toDigits 16 n

def quotedChar (c : Char) : List Char :=
  match c with
  | '"' => ['\\', '"']
  | '\\' => ['\\', '\\']
  | '\x00' => ['\\', '0']
  | '\t' => ['\\', 't']
  | '\n' => ['\\', 'n']
  | '\r' => ['\\', 'r']
  | c => if isPrintable c then [c] else ['\\', 'u', '\x7b'] ++ hex c.toNat ++ ['\x7d']

def quoted (text : String) : String :=
  String.ofList ('"' :: text.toList.flatMap quotedChar ++ ['"'])

def quotedByte (b : UInt8) : List Char := ['\\', 'x'] ++ (hex b.toNat).map Char.toUpper

def quotedPiece : Piece → List Char
  | .char c => quotedChar c
  | .broken bytes => bytes.flatMap quotedByte

def quotedBytes (bytes : List UInt8) : String :=
  String.ofList ('"' :: (pieces bytes).flatMap quotedPiece ++ ['"'])

end PageLookup.Text
