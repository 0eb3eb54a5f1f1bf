import Coercion.Number.Binary64
import Coercion.Number.Word

/-!
# MessagePack documents

A compact binary form of documents.  Texts, arrays and maps have the shortest header that holds their size; counters
are always written as 32-bit words, and averages as doubles.
-/

namespace Coercion

/-- A value of a binary document. -/
inductive MessagePack where
  | nil
  | word (n : UInt32)
  | double (x : Binary64)
  | text (s : String)
  | array (items : List MessagePack)
  | map (fields : List (String × MessagePack))

namespace MessagePack

/-- The `width` lowest bytes of a number, the highest first. -/
def bigEndian (width n : Nat) : List UInt8 :=
  (List.range width).reverse.map fun i => UInt8.ofNat (n / Number.power 256 i)

/-- The header of an array or a map: a short form below sixteen, then two widths. -/
def collectionHeader (short medium long : UInt8) (n : Nat) : List UInt8 :=
  if n < 16 then [short + UInt8.ofNat n]
  else if n < 65536 then medium :: bigEndian 2 n
  else long :: bigEndian 4 n

/-- A text: its length in bytes, then its bytes. -/
def textBytes (s : String) : List UInt8 :=
  let n := s.utf8ByteSize
  let header :=
    if n < 32 then [0xa0 + UInt8.ofNat n]
    else if n < 256 then [0xd9, UInt8.ofNat n]
    else if n < 65536 then 0xda :: bigEndian 2 n
    else 0xdb :: bigEndian 4 n
  header ++ s.toUTF8.toList

mutual

/-- The bytes of a value. -/
def bytes : MessagePack → List UInt8
  | nil => [0xc0]
  | word n => 0xce :: bigEndian 4 n.toNat
  | double x => 0xcb :: bigEndian 8 x.bits
  | text s => textBytes s
  | array items => collectionHeader 0x90 0xdc 0xdd items.length ++ itemBytes items
  | map fields => collectionHeader 0x80 0xde 0xdf fields.length ++ fieldBytes fields

/-- The bytes of items in a row. -/
def itemBytes : List MessagePack → List UInt8
  | [] => []
  | v :: rest => v.bytes ++ itemBytes rest

/-- The bytes of fields in a row, each name before its value. -/
def fieldBytes : List (String × MessagePack) → List UInt8
  | [] => []
  | (k, v) :: rest => textBytes k ++ v.bytes ++ fieldBytes rest

end

end MessagePack

end Coercion
