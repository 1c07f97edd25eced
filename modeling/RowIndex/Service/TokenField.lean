import RowIndex.Error
import RowIndex.Query
import RowIndex.Schema
import RowIndex.TokenRange

/-!
# Service/TokenField — tokens as values of an index field

Every partitioner encodes its tokens so that the order of field values is the order of tokens:
64-bit hashes as themselves, 127-bit hashes as 32 hexadecimal digits, and keys as hexadecimal text.
Ranges of tokens become ranges of the field.
-/

namespace RowIndex.Partitioner

/-- The declaration of the token field. -/
def tokenSpec (p : Partitioner) : FieldSpec where
  name := tokenField
  kind :=
    match p with
    | murmur3 => .long
    | random | byteOrdered => .keyword
  sortable := true

/-- A number as 32 hexadecimal digits, or more if it needs them. -/
def hex32 (n : Nat) : String :=
  let digits := Nat.toDigits 16 n
  String.ofList (List.replicate (32 - digits.length) '0' ++ digits)

/-- The field value of a token; negative hashes and tokens of other partitioners have none. -/
def encode (p : Partitioner) (t : Token) : Except Error FieldValue :=
  match p, t with
  | murmur3, .murmur3 hash => .ok (.long hash)
  | random, .random hash =>
    if 0 ≤ hash.val then .ok (.keyword (hex32 hash.val.toNat))
    else .error (.typeMismatch tokenField t.display)
  | byteOrdered, .byteOrdered bytes => .ok (.keyword (Hex.encode bytes))
  | _, _ => .error (.typeMismatch tokenField t.display)

/-- The field that holds the token of a key. -/
def tokenFieldOf (p : Partitioner) (key : Key) : Except Error Field :=
  (p.encode key.token).map fun value => ⟨tokenField, value⟩

/-- Rows at exactly one token. -/
def exactQuery (p : Partitioner) (t : Token) : Except Error Query :=
  (p.encode t).map fun value => .range tokenField (.included value) (.included value)

/-- The bound of the token field for a bound of a range. -/
def tokenBound (p : Partitioner) (bound : Option Token) (inclusive : Bool) :
    Except Error (Bound FieldValue) :=
  match TokenRange.proper bound with
  | none => .ok .unbounded
  | some t => (p.encode t).map fun value => if inclusive then .included value else .excluded value

/-- The condition that a row lies in a range; none if it always holds. -/
def rangeFilter (p : Partitioner) (r : TokenRange) : Except Error (Option Query) := do
  let low ← p.tokenBound r.lower r.includeLower
  let high ← p.tokenBound r.upper r.includeUpper
  return if Bound.bothOpen low high then none else some (.range tokenField low high)

/-- The order of rows by token. -/
def tokenOrder (_ : Partitioner) : SortOrder := ⟨[⟨tokenField, false⟩]⟩

end RowIndex.Partitioner
