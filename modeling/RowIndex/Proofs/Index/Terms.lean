import RowIndex.Index.Engine
import RowIndex.Proofs.Bytes.Utf8Order
import RowIndex.Proofs.Field.ValueOrder
import RowIndex.Proofs.Index.Bindings

/-!
# Proofs/Index/Terms — the engine compares terms as values compare

    value ──indexTerm──▸ term
      │                    │
    compare?             order

The scanned index compares values, the engine their terms.  The term of a value keeps its place
among the values of its kind (`order_indexTerm`), so it lies between the same bounds
(`isAbove_indexTerm`, `isBelow_indexTerm`).  A document has the term of a value, unless that is too
long, exactly if it has the value (`mem_terms_iff`), and the words of a text are never too long
(`fits_of_mem_analyzeIndexed`).
-/

namespace RowIndex

open Std

/-! ## The order of terms -/

/-- The code of a floating-point number is its place in the total order, counted from the least. -/
theorem Binary.code_eq_rank (x : Double) :
    ((if x.negative then 2 ^ 64 - 1 - x.toBits else 2 ^ 63 + x.toBits : Nat) : Int) =
      x.rank + 2 ^ 63 := by
  have hlt : x.magnitude < 2 ^ 63 := x.magnitude_lt
  have hbound : BinaryFormat.double.bound = 2 ^ 63 := rfl
  rw [toBits, rank, hbound]
  split <;> omega

namespace FieldValue

/-- **Terms of values of one kind are in the order of the values.** -/
theorem order_indexTerm {v w : FieldValue} (h : v.kind = w.kind) :
    v.indexTerm.order w.indexTerm = v.order w := by
  have hcode {m n : Int} {a b : Nat} (ha : (a : Int) = m + 2 ^ 63) (hb : (b : Int) = n + 2 ^ 63) :
      compare a b = compare m n := by
    rcases Int.lt_trichotomy m n with hlt | rfl | hgt
    · rw [Nat.compare_eq_lt.mpr (by omega), compare_eq_lt.mpr hlt]
    · rw [show a = b by omega, ReflOrd.compare_self, ReflOrd.compare_self]
    · rw [Nat.compare_eq_gt.mpr (by omega), compare_eq_gt.mpr hgt]
  cases v <;> cases w <;> try contradiction
  case long.long m n =>
    have hlong (n : Int64) : ((n.toInt + 2 ^ 63).toNat : Int) = n.toInt + 2 ^ 63 := by
      have := n.le_toInt
      omega
    change compare (m.toInt + 2 ^ 63).toNat (n.toInt + 2 ^ 63).toNat = compare m n
    rw [hcode (hlong m) (hlong n)]
    rcases Int.lt_trichotomy m.toInt n.toInt with hlt | heq | hgt
    · rw [compare_eq_lt.mpr hlt, compare_eq_lt.mpr (Int64.lt_iff_toInt_lt.mpr hlt)]
    · rw [Int64.toInt_inj.mp heq, ReflOrd.compare_self, ReflOrd.compare_self]
    · rw [compare_eq_gt.mpr hgt, compare_eq_gt.mpr (Int64.lt_iff_toInt_lt.mpr hgt)]
  case double.double x y => exact hcode x.code_eq_rank y.code_eq_rank
  case keyword.keyword s t => exact Hex.compare_utf8 s t
  case text.text s t => exact Hex.compare_utf8 s t

/-- Values of one kind have different terms. -/
theorem indexTerm_inj {v w : FieldValue} (h : v.kind = w.kind) :
    v.indexTerm = w.indexTerm ↔ v = w := by
  refine ⟨fun heq => ?_, congrArg _⟩
  rw [← order_eq_eq_iff h, ← order_indexTerm h, heq]
  cases w.indexTerm <;> exact ReflOrd.compare_self

/-- A bound as one of terms. -/
def boundTerm : Bound FieldValue → Bound IndexTerm
  | .unbounded => .unbounded
  | .included v => .included v.indexTerm
  | .excluded v => .excluded v.indexTerm

theorem compare?_of_kind {v w : FieldValue} (h : v.kind = w.kind) :
    v.compare? w = some (v.order w) := by
  cases v <;> cases w <;> first | rfl | contradiction

end FieldValue

/-- A bound whose value, if there is one, is of a kind. -/
def Bound.OfKind (kind : FieldKind) : Bound FieldValue → Prop
  | unbounded => True
  | included v | excluded v => v.kind = kind

namespace FieldValue

variable {v : FieldValue} {b : Bound FieldValue}

/-- **A term lies above the bounds that its value lies above.** -/
theorem isAbove_indexTerm (h : b.OfKind v.kind) :
    v.indexTerm.isAbove (boundTerm b) = b.admitsAbove v := by
  cases b with
  | unbounded => rfl
  | included w | excluded w =>
    change _ = _ at h
    simp only [boundTerm, IndexTerm.isAbove, Bound.admitsAbove, order_indexTerm h,
      compare?_of_kind h.symm, ← swap_order w v]
    cases w.order v <;> rfl

/-- **A term lies below the bounds that its value lies below.** -/
theorem isBelow_indexTerm (h : b.OfKind v.kind) :
    v.indexTerm.isBelow (boundTerm b) = b.admitsBelow v := by
  cases b with
  | unbounded => rfl
  | included w | excluded w =>
    change _ = _ at h
    simp only [boundTerm, IndexTerm.isBelow, Bound.admitsBelow, order_indexTerm h.symm,
      compare?_of_kind h.symm]
    cases v.order w <;> rfl

end FieldValue

/-! ## Values and documents that are taken in as a whole -/

/-- A value whose terms the engine takes in: a keyword is short enough, and the words of a text are
so in any case. -/
def FieldValue.Fits : FieldValue → Prop
  | keyword s => (Hex.utf8 s).length ≤ IndexTerm.maxLength
  | long _ | double _ | text _ => True

instance : DecidablePred FieldValue.Fits
  | .keyword s => inferInstanceAs (Decidable ((Hex.utf8 s).length ≤ IndexTerm.maxLength))
  | .long _ | .double _ | .text _ => .isTrue trivial

/-- A document whose terms the engine takes in. -/
def Document.Fits (d : Document) : Prop := ∀ f ∈ d.fields, f.value.Fits

instance : DecidablePred Document.Fits := fun d =>
  inferInstanceAs (Decidable (∀ f ∈ d.fields, f.value.Fits))

theorem Document.Fits.of_mem_values {d : Document} (h : d.Fits) {name : String} {v : FieldValue}
    (hv : v ∈ d.values name) : v.Fits := by
  obtain ⟨f, hf, rfl⟩ := List.mem_map.mp hv
  exact h f (List.mem_filter.mp hf).1

theorem FieldValue.Fits.fits_indexTerm {v : FieldValue} (h : v.Fits) (hkind : v.kind ≠ .text) :
    v.indexTerm.fits = true := by
  cases v with
  | long | double => rfl
  | keyword s => exact decide_eq_true h
  | text => exact (hkind rfl).elim

namespace Text

/-- A character is lower-cased to two characters at most. -/
theorem byteLength_lowerChar_le (c : Char) : byteLength (lowerChar c) ≤ 8 := by
  have hone (c : Char) : byteLength [c] ≤ 8 := by
    have := c.utf8Size_le_four
    simp only [byteLength, List.foldr_cons, List.foldr_nil]
    omega
  rw [lowerChar]
  split
  · exact hone _
  split
  · decide
  split
  · exact hone _
  split
  · exact hone _
  · exact hone _

theorem byteLength_append (s t : List Char) :
    byteLength (s ++ t) = byteLength s + byteLength t := by
  induction s with
  | nil => exact (Nat.zero_add _).symm
  | cons c s ih =>
    change c.utf8Size + byteLength (s ++ t) = c.utf8Size + byteLength s + byteLength t
    rw [ih, Nat.add_assoc]

theorem byteLength_flatMap_lowerChar_le (word : List Char) :
    byteLength (word.flatMap lowerChar) ≤ 8 * byteLength word := by
  induction word with
  | nil => exact Nat.zero_le _
  | cons c word ih =>
    have hpos := c.utf8Size_pos
    have hc := byteLength_lowerChar_le c
    rw [List.flatMap_cons, byteLength_append]
    change _ ≤ 8 * (c.utf8Size + byteLength word)
    omega

/-- **The words of a text are short enough to be taken in.** -/
theorem fits_of_mem_analyzeIndexed {token text : String} (h : token ∈ analyzeIndexed text) :
    IndexTerm.fits (.text (Hex.utf8 token)) = true := by
  obtain ⟨word, hword, rfl⟩ := List.mem_map.mp h
  have hshort := of_decide_eq_true (List.mem_filter.mp hword).2
  have hlower := byteLength_flatMap_lowerChar_le word
  refine decide_eq_true ?_
  rw [Hex.length_utf8_ofList, IndexTerm.maxLength]
  rw [maxTokenLength] at hshort
  omega

end Text

/-! ## Terms of documents -/

namespace BoundField

theorem term_of_kind {f : BoundField} {v : FieldValue} (h : f.kind = v.kind)
    (hkind : f.kind ≠ .text) : f.term v = .ok v.indexTerm := if_pos ⟨h, hkind⟩

theorem bound_of_kind {f : BoundField} {b : Bound FieldValue} (h : b.OfKind f.kind)
    (hkind : f.kind ≠ .text) : f.bound b = .ok (FieldValue.boundTerm b) := by
  cases b with
  | unbounded => rfl
  | included v | excluded v => rw [bound, term_of_kind h.symm hkind]; rfl

end BoundField

namespace FieldSpec

variable {declared : Declarations} {d : Document} {name : String} {spec : FieldSpec}

/-- The tokens of a field that is matched as a whole are the terms of its values. -/
theorem tokens_bound (hd : declared.check d = .ok ()) (hspec : declared.find? name = some spec)
    (hkind : spec.kind ≠ .text) :
    spec.bound.tokens d = (d.values name).map FieldValue.indexTerm := by
  have hname : spec.name = name := (NameMap.find?_eq_some_iff.mp hspec).2
  have hvalues : ∀ v ∈ d.values name, v.kind = spec.kind := fun v hv =>
    Declarations.kind_of_check hd hspec hv
  rw [BoundField.tokens, name_bound, hname, bound, layout]
  cases hk : spec.kind with
  | long | double => rfl
  | text => exact (hkind hk).elim
  | keyword =>
    generalize d.values name = values at hvalues
    change ((values.filterMap FieldValue.asString?).flatMap fun text => [text]).map _ = _
    induction values with
    | nil => rfl
    | cons v rest ih =>
      obtain ⟨hv, hrest⟩ := List.forall_mem_cons.mp hvalues
      cases v with
      | keyword text => exact congrArg (FieldValue.indexTerm (.keyword text) :: ·) (ih hrest)
      | long | double | text => cases hv.trans hk

/-- **A document has the term of a value exactly if it has the value**, and the term is short
enough. -/
theorem mem_terms_iff (hd : declared.check d = .ok ()) (hspec : declared.find? name = some spec)
    (hkind : spec.kind ≠ .text) {v : FieldValue} (hv : v.kind = spec.kind) :
    v.indexTerm ∈ spec.bound.terms d ↔ v ∈ d.values name ∧ v.indexTerm.fits = true := by
  rw [BoundField.terms, List.mem_filter, tokens_bound hd hspec hkind, List.mem_map]
  refine and_congr_left fun _ => ⟨?_, fun h => ⟨v, h, rfl⟩⟩
  rintro ⟨w, hw, heq⟩
  have hkinds : w.kind = v.kind := (Declarations.kind_of_check hd hspec hw).trans hv.symm
  exact (FieldValue.indexTerm_inj hkinds).mp heq ▸ hw

/-- The tokens of a document that fits are its terms. -/
theorem fits_of_mem_tokens (hd : declared.check d = .ok ())
    (hspec : declared.find? name = some spec) (hkind : spec.kind ≠ .text) (hfits : d.Fits)
    {t : IndexTerm} (ht : t ∈ spec.bound.tokens d) : t.fits = true := by
  rw [tokens_bound hd hspec hkind] at ht
  obtain ⟨v, hv, rfl⟩ := List.mem_map.mp ht
  exact (hfits.of_mem_values hv).fits_indexTerm (Declarations.kind_of_check hd hspec hv ▸ hkind)

theorem terms_bound (hd : declared.check d = .ok ()) (hspec : declared.find? name = some spec)
    (hkind : spec.kind ≠ .text) (hfits : d.Fits) :
    spec.bound.terms d = (d.values name).map FieldValue.indexTerm := by
  rw [BoundField.terms, List.filter_eq_self.mpr fun t => fits_of_mem_tokens hd hspec hkind hfits,
    tokens_bound hd hspec hkind]

/-- **The terms of a text field are the words of its texts.** -/
theorem mem_terms_iff_of_text (hkind : spec.kind = .text) {token : String} :
    .text (Hex.utf8 token) ∈ spec.bound.terms d ↔
      token ∈ ((d.values spec.name).filterMap FieldValue.asString?).flatMap
        Text.analyzeIndexed := by
  have htokens : spec.bound.tokens d =
      (((d.values spec.name).filterMap FieldValue.asString?).flatMap Text.analyzeIndexed).map
        fun token => .text (Hex.utf8 token) := by
    rw [BoundField.tokens, name_bound, bound, layout, hkind]
    rfl
  rw [BoundField.terms, htokens, List.filter_eq_self.mpr fun t ht => ?_, List.mem_map]
  · simp only [IndexTerm.text.injEq, Hex.utf8_inj, exists_eq_right]
  · obtain ⟨token, htoken, rfl⟩ := List.mem_map.mp ht
    obtain ⟨text, -, hmem⟩ := List.mem_flatMap.mp htoken
    exact Text.fits_of_mem_analyzeIndexed hmem

end FieldSpec

end RowIndex
