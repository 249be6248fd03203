/-!
The hash of a text. The bytes of the text are read in words, the least significant byte first, and
folded into two states; texts of up to sixteen bytes are read from both ends, where the two readings
may overlap. The result is a product with a fixed factor, its best bits rotated to the low end.
-/

namespace MeteredScript.Text

namespace Hash

def factor : UInt64 := 0xf1357aea2e62a9c5

/-- The states before anything is read. -/
def seeds : UInt64 × UInt64 := (0x243f6a8885a308d3, 0x13198a2e03707344)

/-- What the second word of each pair is mixed with. -/
def pad : UInt64 := 0xa4093822299f31d0

/-- The two halves of a full product, folded into one word. -/
def foldedProduct (x y : UInt64) : UInt64 :=
  let product := x.toNat * y.toNat
  UInt64.ofNat product ^^^ UInt64.ofNat (product / 0x10000000000000000)

/-- The word of up to `width` bytes from a position on. -/
def wordAt (bytes : List UInt8) (start width : Nat) : UInt64 :=
  ((bytes.drop start).take width).foldr (fun byte rest => 256 * rest + byte.toUInt64) 0

/-- Reads a pair of words. -/
def absorb (bytes : List UInt8) : UInt64 × UInt64 → Nat → UInt64 × UInt64
  | (s, t), pair =>
    (t, foldedProduct (s ^^^ wordAt bytes (16 * pair) 8) (pad ^^^ wordAt bytes (16 * pair + 8) 8))

/-- The states after all bytes. Of more than sixteen, the last sixteen are read apart. -/
def states (bytes : List UInt8) : UInt64 × UInt64 :=
  let n := bytes.length
  let (s, t) := (List.range ((n - 1) / 16)).foldl (absorb bytes) seeds
  if 16 < n then (s ^^^ wordAt bytes (n - 16) 8, t ^^^ wordAt bytes (n - 8) 8)
  else if 8 ≤ n then (s ^^^ wordAt bytes 0 8, t ^^^ wordAt bytes (n - 8) 8)
  else if 4 ≤ n then (s ^^^ wordAt bytes 0 4, t ^^^ wordAt bytes (n - 4) 4)
  else if 0 < n then
    (s ^^^ wordAt bytes 0 1, t ^^^ (wordAt bytes (n - 1) 1 <<< 8 ||| wordAt bytes (n / 2) 1))
  else (s, t)

def ofBytes (bytes : List UInt8) : UInt64 :=
  let (s, t) := states bytes
  foldedProduct s t ^^^ UInt64.ofNat bytes.length

def rotateLeft (x : UInt64) (bits : UInt64) : UInt64 := x <<< bits ||| x >>> (64 - bits)

end Hash

/-- The hash of a text, of its bytes and the byte that ends every text. -/
def hash (text : String) : UInt64 :=
  let bytes := Hash.ofBytes text.toByteArray.data.toList
  Hash.rotateLeft ((bytes * Hash.factor + 0xff) * Hash.factor) 26

end MeteredScript.Text
