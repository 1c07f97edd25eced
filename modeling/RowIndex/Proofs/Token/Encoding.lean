import RowIndex.Proofs.Bytes.HexOrder
import RowIndex.Proofs.Field.ValueOrder
import RowIndex.Proofs.Outcomes
import RowIndex.Proofs.Token.Order

/-!
# Proofs/Token/Encoding — the token field is in the order of tokens

Every token of a key has a field value (`encode_token`), and field values are in the order of their
tokens (`compare?_encode`), so that tokens are told apart by their field values
(`encode_orderEmbedding`).  The condition that a range becomes therefore selects exactly the
documents whose token lies in the range (`rangeFilter_selects`).
-/

namespace RowIndex.Partitioner

/-! ## Field values of tokens -/

/-- Hashes of 127 bits are natural numbers. -/
theorem token_random (bytes : Bytes) : ∃ n : Nat, random.token bytes = .random (.ofNat n) := by
  rw [token]
  exact ⟨_, rfl⟩

/-- **Every token of a key has a field value.** -/
theorem encode_token (p : Partitioner) (bytes : Bytes) : ∃ v, p.encode (p.token bytes) = .ok v := by
  cases p with
  | murmur3 => exact ⟨_, rfl⟩
  | random =>
    obtain ⟨n, hn⟩ := token_random bytes
    have hnonneg : 0 ≤ (Int128.ofNat n).val := Int.natCast_nonneg _
    exact ⟨_, by rw [hn, encode, if_pos hnonneg]⟩
  | byteOrdered => exact ⟨_, rfl⟩

/-- The tokens that have a field value: those of the partitioner, except negative hashes. -/
theorem encode_eq_ok_iff {p : Partitioner} {t : Token} {v : FieldValue} :
    p.encode t = .ok v ↔
      (∃ hash, p = murmur3 ∧ t = .murmur3 hash ∧ v = .long hash) ∨
      (∃ hash, p = random ∧ t = .random hash ∧ 0 ≤ hash.val ∧
        v = .keyword (hex32 hash.val.toNat)) ∨
      (∃ bytes, p = byteOrdered ∧ t = .byteOrdered bytes ∧ v = .keyword (Hex.encode bytes)) := by
  cases p <;> cases t
  case random.random hash => by_cases h : 0 ≤ hash.val <;> simp [encode, h, eq_comm (a := v)]
  all_goals simp [encode, eq_comm (a := v)]

/-- A field value of the token field is of the declared kind. -/
theorem kind_of_encode {p : Partitioner} {t : Token} {v : FieldValue} (h : p.encode t = .ok v) :
    v.kind = p.tokenSpec.kind := by
  rcases encode_eq_ok_iff.mp h with ⟨hash, rfl, -, rfl⟩ | ⟨hash, rfl, -, -, rfl⟩ |
    ⟨bytes, rfl, -, rfl⟩ <;> rfl

/-- The token field is matched as a whole. -/
theorem kind_tokenSpec_ne_text (p : Partitioner) : p.tokenSpec.kind ≠ .text := by
  cases p <;> nofun

/-- **Field values are in the order of their tokens.** -/
theorem compare?_encode {p : Partitioner} {s t : Token} {v w : FieldValue}
    (hs : p.encode s = .ok v) (ht : p.encode t = .ok w) :
    v.compare? w = some (compare s t) := by
  rcases encode_eq_ok_iff.mp hs with ⟨a, rfl, rfl, rfl⟩ | ⟨a, rfl, rfl, ha, rfl⟩ |
    ⟨a, rfl, rfl, rfl⟩
  · obtain ⟨b, -, rfl, rfl⟩ : ∃ b, murmur3 = murmur3 ∧ t = .murmur3 b ∧ w = .long b := by
      simpa [encode_eq_ok_iff] using ht
    rfl
  · obtain ⟨b, -, rfl, hb, rfl⟩ : ∃ b, random = random ∧ t = .random b ∧ 0 ≤ b.val ∧
        w = .keyword (hex32 b.val.toNat) := by
      simpa [encode_eq_ok_iff] using ht
    have hlt (c : Int128) : c.val.toNat < 2 ^ 128 := by have := c.val_lt; omega
    have horder : compare a.val.toNat b.val.toNat = compare a.val b.val := by
      simp only [compare, compareOfLessAndEq]
      congr 1
      · exact propext (by omega)
      · congr 1
        exact propext (by omega)
    change some (compare (hex32 a.val.toNat) (hex32 b.val.toNat)) = some (compare a.val b.val)
    rw [compare_hex32 (hlt a) (hlt b), horder]
  · obtain ⟨b, -, rfl, rfl⟩ : ∃ b, byteOrdered = byteOrdered ∧ t = .byteOrdered b ∧
        w = .keyword (Hex.encode b) := by
      simpa [encode_eq_ok_iff] using ht
    exact congrArg some (Hex.compare_encode a b)

/-- Only the empty key is placed at a sentinel, where keys are their own tokens: a hash that would
be the sentinel of its partitioner is replaced, and a hash of 127 bits is never negative. -/
theorem isMinimum_token_iff {p : Partitioner} {bytes : Bytes} :
    (p.token bytes).isMinimum = true ↔ p = byteOrdered ∧ bytes = [] := by
  cases p with
  | murmur3 =>
    have hmax : Int64.maxValue ≠ Int64.minValue := by decide
    simp only [token, Token.isMinimum, Token.partitioner, minimum, decide_eq_true_eq,
      Token.murmur3.injEq, reduceCtorEq, false_and, iff_false]
    split <;> assumption
  | random =>
    obtain ⟨n, hn⟩ := token_random bytes
    have hnonneg : 0 ≤ (Int128.ofNat n).val := Int.natCast_nonneg _
    have hne : Int128.ofNat n ≠ Int128.negOne := by
      intro h
      rw [h] at hnonneg
      contradiction
    simp [hn, Token.isMinimum, Token.partitioner, minimum, hne]
  | byteOrdered => simp [token, Token.isMinimum, Token.partitioner, minimum]

/-- **Field values tell tokens apart, and keep their order.**  The tokens of a partitioner that have
a field value are all hashes of 64 bits, as they are; all hashes of 127 bits that are not negative,
by exactly 32 digits; and all keys, by two digits for each byte.  Two field values compare as their
tokens do, and are the same only for the same token.  Every key is placed at a token with a field
value, and at a sentinel only if it is empty and its own token. -/
theorem encode_orderEmbedding (p : Partitioner) :
    (∀ t v, p.encode t = .ok v ↔
      (∃ hash, p = murmur3 ∧ t = .murmur3 hash ∧ v = .long hash) ∨
      (∃ hash, p = random ∧ t = .random hash ∧ 0 ≤ hash.val ∧
        v = .keyword (String.ofList (Hex.lastDigits 32 hash.val.toNat))) ∨
      ∃ bytes, p = byteOrdered ∧ t = .byteOrdered bytes ∧ v = .keyword (Hex.encode bytes)) ∧
    (∀ s t v w, p.encode s = .ok v → p.encode t = .ok w →
      v.compare? w = some (compare s t) ∧ (v = w ↔ s = t)) ∧
    ∀ bytes, (∃ v, p.encode (p.token bytes) = .ok v) ∧
      ((p.token bytes).isMinimum = true ↔ p = byteOrdered ∧ bytes = []) := by
  refine ⟨fun t v => ?_, fun s t v w hs ht => ⟨compare?_encode hs ht, ?_⟩,
    fun bytes => ⟨encode_token p bytes, isMinimum_token_iff⟩⟩
  · have hdigits (hash : Int128) :
        hex32 hash.val.toNat = String.ofList (Hex.lastDigits 32 hash.val.toNat) :=
      hex32_eq (by have := hash.val_lt; omega)
    simp only [encode_eq_ok_iff, hdigits]
  · rw [← FieldValue.compare?_eq_some_eq_iff, compare?_encode hs ht, Option.some.injEq,
      Std.LawfulEqOrd.compare_eq_iff_eq]

/-- A hash of 127 bits is below the next one, which has one digit more, and a key below the keys
that it begins; the empty key is placed at a sentinel. -/
theorem encode_orderEmbedding_of_neighbours :
    let hash (n : Nat) : Token := .random (.ofNat n)
    random.encode (hash 255) = .ok (.keyword "000000000000000000000000000000ff") ∧
      random.encode (hash 256) = .ok (.keyword "00000000000000000000000000000100") ∧
      compare (hash 255) (hash 256) = .lt ∧
      (FieldValue.keyword "000000000000000000000000000000ff").compare?
        (.keyword "00000000000000000000000000000100") = some .lt ∧
      (FieldValue.keyword "0a").compare? (.keyword "0a00") = some .lt ∧
      (byteOrdered.token []).isMinimum = true := by
  intro hash
  have h255 : random.encode (hash 255) = .ok (.keyword "000000000000000000000000000000ff") := by
    decide +kernel
  have h256 : random.encode (hash 256) = .ok (.keyword "00000000000000000000000000000100") := by
    decide +kernel
  have hless : compare (hash 255) (hash 256) = .lt := by decide +kernel
  obtain ⟨-, hhashes, -⟩ := encode_orderEmbedding random
  obtain ⟨-, hkeys, htokens⟩ := encode_orderEmbedding byteOrdered
  refine ⟨h255, h256, hless, ?_, ?_, (htokens []).2.mpr ⟨rfl, rfl⟩⟩
  · rw [(hhashes _ _ _ _ h255 h256).1, hless]
  · exact (hkeys (.byteOrdered [10]) (.byteOrdered [10, 0]) _ _ (by decide) (by decide)).1

/-! ## Ranges -/

/-- A bound of the token field is open, or the field value of a proper bound of the range. -/
theorem tokenBound_eq_ok_iff {p : Partitioner} {bound : Option Token} {inclusive : Bool}
    {b : Bound FieldValue} :
    p.tokenBound bound inclusive = .ok b ↔
      (TokenRange.proper bound = none ∧ b = .unbounded) ∨
      ∃ t v, TokenRange.proper bound = some t ∧ p.encode t = .ok v ∧
        b = if inclusive then .included v else .excluded v := by
  rw [tokenBound]
  cases TokenRange.proper bound with
  | none => simp [eq_comm (a := b)]
  | some t => simp [map_eq_ok_iff, eq_comm (a := b)]

/-- Reaching the lower bound of the field is reaching the lower bound of the range. -/
theorem admitsAbove_tokenBound {p : Partitioner} {bound : Option Token} {inclusive : Bool}
    {b : Bound FieldValue} (hb : p.tokenBound bound inclusive = .ok b) {t : Token} {v : FieldValue}
    (hv : p.encode t = .ok v) :
    b.admitsAbove v =
      match TokenRange.proper bound with
      | none => true
      | some low => if inclusive then (compare t low).isGE else (compare t low).isGT := by
  rcases tokenBound_eq_ok_iff.mp hb with ⟨hopen, rfl⟩ | ⟨low, w, hlow, hw, rfl⟩
  · rw [hopen]
    rfl
  · rw [hlow]
    cases inclusive <;> simp only [Bound.admitsAbove, compare?_encode hv hw, if_true, if_false,
      Bool.false_eq_true] <;> cases compare t low <;> rfl

/-- Staying within the upper bound of the field is staying within the upper bound of the range. -/
theorem admitsBelow_tokenBound {p : Partitioner} {bound : Option Token} {inclusive : Bool}
    {b : Bound FieldValue} (hb : p.tokenBound bound inclusive = .ok b) {t : Token} {v : FieldValue}
    (hv : p.encode t = .ok v) :
    b.admitsBelow v =
      match TokenRange.proper bound with
      | none => true
      | some high => if inclusive then (compare t high).isLE else (compare t high).isLT := by
  rcases tokenBound_eq_ok_iff.mp hb with ⟨hopen, rfl⟩ | ⟨high, w, hhigh, hw, rfl⟩
  · rw [hopen]
    rfl
  · rw [hhigh]
    cases inclusive <;> simp only [Bound.admitsBelow, compare?_encode hv hw, if_true, if_false,
      Bool.false_eq_true] <;> cases compare t high <;> rfl

/-- The condition of a range, when its bounds have field values. -/
theorem rangeFilter_eq_ok_iff {p : Partitioner} {r : TokenRange} {f : Option Query} :
    p.rangeFilter r = .ok f ↔
      ∃ low high, p.tokenBound r.lower r.includeLower = .ok low ∧
        p.tokenBound r.upper r.includeUpper = .ok high ∧
        f = if Bound.bothOpen low high then none else some (.range tokenField low high) := by
  simp only [rangeFilter, bind_eq_ok_iff]
  constructor
  · rintro ⟨low, hlow, high, hhigh, h⟩
    exact ⟨low, high, hlow, hhigh, (Except.ok.inj h).symm⟩
  · rintro ⟨low, high, hlow, hhigh, rfl⟩
    exact ⟨low, hlow, high, hhigh, rfl⟩

/-- **The condition of a range selects exactly the documents whose token lies in the range.** -/
theorem rangeFilter_selects {p : Partitioner} {r : TokenRange} {f : Option Query}
    (hf : p.rangeFilter r = .ok f) {t : Token} {v : FieldValue} (hv : p.encode t = .ok v)
    {d : Document} (hd : d.values tokenField = [v]) :
    f.all (fun q => (q.score d).isSome) = r.contains t := by
  obtain ⟨low, high, hlow, hhigh, rfl⟩ := rangeFilter_eq_ok_iff.mp hf
  have hcontains : r.contains t = (low.admitsAbove v && high.admitsBelow v) := by
    rw [admitsAbove_tokenBound hlow hv, admitsBelow_tokenBound hhigh hv]
    rfl
  rw [hcontains]
  split
  · rename_i hopen
    cases low <;> cases high <;> first | rfl | contradiction
  · rw [Option.all_some, Query.score, hd]
    simp only [Query.within, List.any_cons, List.any_nil, Bool.or_false]
    cases low.admitsAbove v && high.admitsBelow v <;> rfl

end RowIndex.Partitioner
