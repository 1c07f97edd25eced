import RowIndex.Bytes.Hex
import RowIndex.Hash.Xxh3
import RowIndex.Int128

/-!
# Token — partitioners, tokens, and keys with their tokens

A partitioner places every partition key at a token of its own key space.  Tokens of one partitioner
are totally ordered, and the least of them is a sentinel that stands for no bound.  A `Key` is a
partition key together with its token; keys are ordered by token first, then by their bytes, which
is the order in which a table is scanned.
-/

namespace RowIndex

/-- How partition keys are placed. -/
inductive Partitioner where
  /-- Signed hashes of 64 bits. -/
  | murmur3
  /-- Hashes of 127 bits. -/
  | random
  /-- The key itself. -/
  | byteOrdered
  deriving DecidableEq, Repr

/-- A place in the key space of a partitioner. -/
inductive Token where
  | murmur3 (hash : Int64)
  | random (hash : Int128)
  | byteOrdered (bytes : Bytes)
  deriving DecidableEq

namespace Partitioner

/-- The name of a partitioner. -/
def name : Partitioner → String
  | murmur3 => "murmur3"
  | random => "random"
  | byteOrdered => "byte_ordered"

/-- Place in the order of partitioners. -/
def rank : Partitioner → Nat
  | murmur3 => 0
  | random => 1
  | byteOrdered => 2

/-- The sentinel below all other tokens. -/
def minimum : Partitioner → Token
  | murmur3 => .murmur3 Int64.minValue
  | random => .random .negOne
  | byteOrdered => .byteOrdered []

/-- The token of a partition key.  A hash that would be the sentinel becomes the greatest token. -/
def token : Partitioner → Bytes → Token
  | murmur3, key =>
    let hash := (Xxh3.hash64 key).toInt64
    .murmur3 (if hash = Int64.minValue then Int64.maxValue else hash)
  | random, key =>
    let (high, low) := Xxh3.hash128 key
    .random (.ofNat ((high.toNat * 2 ^ 64 + low.toNat) / 2))
  | byteOrdered, key => .byteOrdered key

end Partitioner

namespace Token

/-- The partitioner whose token it is. -/
def partitioner : Token → Partitioner
  | murmur3 _ => .murmur3
  | random _ => .random
  | byteOrdered _ => .byteOrdered

/-- Whether the token is its partitioner's sentinel. -/
def isMinimum (t : Token) : Bool := t = t.partitioner.minimum

/-- A token in words. -/
def display : Token → String
  | murmur3 hash => toString hash.toInt
  | random hash => toString hash.val
  | byteOrdered bytes => Hex.encode bytes

/-- The order of tokens: by partitioner, then within its key space. -/
def order : Token → Token → Ordering
  | murmur3 a, murmur3 b => compare a b
  | random a, random b => compare a b
  | byteOrdered a, byteOrdered b => compare a b
  | a, b => compare a.partitioner.rank b.partitioner.rank

instance : Ord Token := ⟨order⟩
instance : LT Token := ltOfOrd
instance : LE Token := leOfOrd
instance : ToString Token := ⟨display⟩

end Token

/-- A partition key with its token. -/
structure Key where
  /-- The token. -/
  token : Token
  /-- The bytes of the key. -/
  bytes : Bytes
  deriving DecidableEq

/-- A partition key placed by a partitioner. -/
def Partitioner.place (p : Partitioner) (bytes : Bytes) : Key := ⟨p.token bytes, bytes⟩

namespace Key

/-- The order of keys: by token, then by bytes. -/
def order (a b : Key) : Ordering :=
  (compare a.token b.token).then (compare a.bytes b.bytes)

instance : Ord Key := ⟨order⟩

/-- A key in words. -/
def display (k : Key) : String :=
  "DecoratedKey(" ++ k.token.display ++ ", " ++ Hex.encode k.bytes ++ ")"

instance : ToString Key := ⟨display⟩

end Key

end RowIndex
