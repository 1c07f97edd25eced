import RowIndex.Proofs.Token.Encoding

/-!
# Proofs/Token/RangeFilter — a range of tokens and its condition mean the same

    bounds ──encode──▸ condition on the token field ──score──▸ documents
       └────────────────────── contains ──────────────────────▸ tokens

A range becomes a condition unless one of its bounds is proper and has no field value; it is then
refused for the type of that bound (`rangeFilter_eq_error`).  The condition selects the documents
whose token the range contains, and the query for one token those of that token
(`rangeFilter_meaning`).
-/

namespace RowIndex.Partitioner

open Std

variable {p : Partitioner} {r : TokenRange}

/-! ## Ranges without a condition -/

/-- A token is refused for its type, and for nothing else. -/
theorem encode_eq_error {t : Token} {e : Error} (h : p.encode t = .error e) :
    e = .typeMismatch tokenField t.display := by
  cases p <;> cases t
  case random.random hash =>
    rw [encode] at h
    split at h
    · contradiction
    · exact (Except.error.inj h).symm
  all_goals first | contradiction | exact (Except.error.inj h).symm

theorem proper_eq_some_iff {bound : Option Token} {t : Token} :
    TokenRange.proper bound = some t ↔ bound = some t ∧ t.isMinimum = false := by
  rw [TokenRange.proper, Option.filter_eq_some_iff, Bool.not_eq_true']

/-- A bound is refused if it is proper and has no field value. -/
theorem tokenBound_eq_error {bound : Option Token} {inclusive : Bool} {e : Error}
    (h : p.tokenBound bound inclusive = .error e) :
    ∃ t, bound = some t ∧ t.isMinimum = false ∧ p.encode t = .error e := by
  rw [tokenBound] at h
  cases hbound : TokenRange.proper bound with
  | none =>
    rw [hbound] at h
    contradiction
  | some t =>
    rw [hbound] at h
    obtain ⟨hsome, hproper⟩ := proper_eq_some_iff.mp hbound
    exact ⟨t, hsome, hproper, map_eq_error_iff.mp h⟩

/-- A proper bound that is accepted has a field value. -/
theorem exists_encode_of_tokenBound {bound : Option Token} {inclusive : Bool}
    {b : Bound FieldValue} (h : p.tokenBound bound inclusive = .ok b) {t : Token}
    (ht : bound = some t) (hproper : t.isMinimum = false) : ∃ v, p.encode t = .ok v := by
  have hbound : TokenRange.proper bound = some t := proper_eq_some_iff.mpr ⟨ht, hproper⟩
  rcases tokenBound_eq_ok_iff.mp h with ⟨hnone, -⟩ | ⟨t', v, hsome, hv, -⟩
  · rw [hbound] at hnone
    contradiction
  · obtain rfl : t = t' := Option.some.inj (hbound.symm.trans hsome)
    exact ⟨v, hv⟩

/-- A range is refused for one of its bounds. -/
theorem rangeFilter_eq_error {e : Error} (h : p.rangeFilter r = .error e) :
    ∃ t, (r.lower = some t ∨ r.upper = some t) ∧ t.isMinimum = false ∧
      p.encode t = .error e := by
  simp only [rangeFilter, bind_eq_error_iff] at h
  rcases h with hlow | ⟨low, -, hhigh | ⟨high, -, h⟩⟩
  · obtain ⟨t, ht, hproper, he⟩ := tokenBound_eq_error hlow
    exact ⟨t, Or.inl ht, hproper, he⟩
  · obtain ⟨t, ht, hproper, he⟩ := tokenBound_eq_error hhigh
    exact ⟨t, Or.inr ht, hproper, he⟩
  · contradiction

/-- The proper bounds of a range that has a condition have field values. -/
theorem exists_encode_of_rangeFilter {f : Option Query} (hf : p.rangeFilter r = .ok f) {t : Token}
    (ht : r.lower = some t ∨ r.upper = some t) (hproper : t.isMinimum = false) :
    ∃ v, p.encode t = .ok v := by
  obtain ⟨low, high, hlow, hhigh, -⟩ := rangeFilter_eq_ok_iff.mp hf
  rcases ht with ht | ht
  · exact exists_encode_of_tokenBound hlow ht hproper
  · exact exists_encode_of_tokenBound hhigh ht hproper

/-- **A range has a condition exactly if its proper bounds have field values.** -/
theorem exists_rangeFilter_iff :
    (∃ f, p.rangeFilter r = .ok f) ↔
      ∀ t, r.lower = some t ∨ r.upper = some t → t.isMinimum = true ∨ ∃ v, p.encode t = .ok v := by
  constructor
  · rintro ⟨f, hf⟩ t ht
    cases hproper : t.isMinimum with
    | true => exact Or.inl rfl
    | false => exact Or.inr (exists_encode_of_rangeFilter hf ht hproper)
  · intro hbounds
    cases hf : p.rangeFilter r with
    | ok f => exact ⟨f, rfl⟩
    | error e =>
      obtain ⟨t, ht, hproper, he⟩ := rangeFilter_eq_error hf
      rcases hbounds t ht with hmin | ⟨v, hv⟩
      · rw [hproper] at hmin
        contradiction
      · rw [hv] at he
        contradiction

/-! ## Rows at one token -/

/-- **The query for one token selects exactly the documents of that token.** -/
theorem exactQuery_selects_iff {s t : Token} {v : FieldValue} (hv : p.encode t = .ok v)
    {d : Document} (hd : d.values tokenField = [v]) :
    (∃ q, p.exactQuery s = .ok q ∧ (q.score d).isSome = true) ↔ s = t := by
  have hselects {w : FieldValue} (hw : p.encode s = .ok w) :
      ((Query.range tokenField (.included w) (.included w)).score d).isSome =
        (compare t s == .eq) := by
    simp only [Query.score, hd, List.any_cons, List.any_nil, Bool.or_false, Query.within,
      Bound.admitsAbove, Bound.admitsBelow, compare?_encode hv hw]
    cases compare t s <;> rfl
  constructor
  · rintro ⟨q, hq, hscore⟩
    obtain ⟨w, hw, rfl⟩ := map_eq_ok_iff.mp hq
    rw [hselects hw, beq_iff_eq] at hscore
    exact (LawfulEqOrd.eq_of_compare hscore).symm
  · rintro rfl
    refine ⟨_, map_eq_ok_iff.mpr ⟨v, hv, rfl⟩, ?_⟩
    rw [hselects hv, ReflOrd.compare_self]
    rfl

/-! ## What a condition means -/

/-- **A range and its condition mean the same.**  The condition exists exactly if every bound that
is given is a sentinel or has a field value; otherwise the range is refused for the type of a bound.
It selects a document of one token exactly if the range contains the token, and the query for one
token selects the document exactly if it is for that token. -/
theorem rangeFilter_meaning (p : Partitioner) (r : TokenRange) :
    ((∃ f, p.rangeFilter r = .ok f) ↔
      ∀ b, r.lower = some b ∨ r.upper = some b → b.isMinimum = true ∨ ∃ v, p.encode b = .ok v) ∧
    (∀ e, p.rangeFilter r = .error e →
      ∃ b, (r.lower = some b ∨ r.upper = some b) ∧ e = .typeMismatch tokenField b.display) ∧
    ∀ t v d, p.encode t = .ok v → Document.values d tokenField = [v] →
      (∀ f, p.rangeFilter r = .ok f →
        (f.all (fun q => (q.score d).isSome) = true ↔ r.contains t = true)) ∧
      ∀ s, (∃ q, p.exactQuery s = .ok q ∧ (q.score d).isSome = true) ↔ s = t := by
  refine ⟨exists_rangeFilter_iff, fun e he => ?_, fun t v d hv hd => ⟨fun f hf => ?_, fun s => ?_⟩⟩
  · obtain ⟨b, hb, -, hencode⟩ := rangeFilter_eq_error he
    exact ⟨b, hb, encode_eq_error hencode⟩
  · rw [rangeFilter_selects hf hv hd]
  · exact exactQuery_selects_iff hv hd

/-- A sentinel of another partitioner leaves its side of a range open, and a hash is written with
as many digits as its neighbours. -/
theorem rangeFilter_meaning_foreign_sentinel :
    let hash (n : Nat) : Token := .random (.ofNat n)
    let r : TokenRange :=
      { lower := some (.murmur3 Int64.minValue), upper := some (hash 256), includeUpper := false }
    let d : Document := ⟨[⟨tokenField, .keyword "000000000000000000000000000000ff"⟩]⟩
    random.encode (hash 255) = .ok (.keyword "000000000000000000000000000000ff") ∧
      r.contains (hash 255) = true ∧
      (∃ f, random.rangeFilter r = .ok f ∧ f.all (fun q => (q.score d).isSome) = true) ∧
      ∀ s, (∃ q, random.exactQuery s = .ok q ∧ (q.score d).isSome = true) ↔ s = hash 255 := by
  intro hash r d
  have hv : random.encode (hash 255) = .ok (.keyword "000000000000000000000000000000ff") := by
    decide +kernel
  have hcontains : r.contains (hash 255) = true := by decide +kernel
  obtain ⟨hexists, -, hselects⟩ := rangeFilter_meaning random r
  have hbounds : ∀ b, r.lower = some b ∨ r.upper = some b →
      b.isMinimum = true ∨ ∃ v, random.encode b = .ok v := by
    rintro b (h | h)
    · obtain rfl := Option.some.inj h
      exact Or.inl (by decide)
    · obtain rfl := Option.some.inj h
      exact Or.inr ⟨.keyword "00000000000000000000000000000100", by decide +kernel⟩
  obtain ⟨f, hf⟩ := hexists.mpr hbounds
  obtain ⟨hrange, hexact⟩ := hselects (hash 255) _ d hv rfl
  exact ⟨hv, hcontains, ⟨f, hf, (hrange f hf).mpr hcontains⟩, hexact⟩

end RowIndex.Partitioner
