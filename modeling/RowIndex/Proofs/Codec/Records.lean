import RowIndex.Codec.Record
import RowIndex.Proofs.Json.Text

/-!
# Proofs/Codec/Records — plain values, lists, records and tagged values are decoded

A value decodes in a room if, given at least that much, its tree is decoded to it (`DecodesIn`).
Integers do in none, a list in one more than its items (`decodesIn_list`), and the records and
tagged values of the other modules in one more than what they hold: the names of a record lead to
its fields (`Record.of?_ofMembers`), and a tag to its content (`Tagged.of?_encode`).
-/

namespace RowIndex.Codec

/-- Given so much room, or more, the tree of a value is decoded to the value. -/
def DecodesIn {α : Type} [Codec α] (n : Nat) (a : α) : Prop :=
  ∀ room, n ≤ room → decode room (encode a) = some a

section

variable {α : Type} [Codec α]

/-- What takes a nesting of its own decodes in one more than what it holds. -/
theorem decodesIn_succ {n : Nat} {a : α}
    (h : ∀ room, n ≤ room → decode (room + 1) (encode a) = some a) : DecodesIn (n + 1) a := by
  rintro (_ | room) hroom
  · exact absurd hroom (Nat.not_succ_le_zero n)
  · exact h room (Nat.le_of_succ_le_succ hroom)

theorem DecodesIn.map_decode {β : Type} {n room : Nat} {a : α} (h : DecodesIn n a)
    (hroom : n ≤ room) (f : α → β) : (decode room (encode a)).map f = some (f a) := by
  rw [h room hroom, Option.map_some]

/-- **A value that decodes in the room there is, is read back from its text.** -/
theorem DecodesIn.read?_write {n : Nat} {a : α} (h : DecodesIn n a) (hn : n ≤ maxNesting) :
    read? (write a) = some a := by
  rw [read?, write, Json.ofText?_toText, Option.bind_some, h maxNesting hn]

end

/-! ## Plain values -/

theorem decodesIn_bool (flag : Bool) : DecodesIn 0 flag := fun _ _ => rfl

theorem decodesIn_string (text : String) : DecodesIn 0 text := fun _ _ => rfl

theorem plain?_ofInt (n : Int) : (Json.Number.ofInt n).plain? = some n := by
  simp only [Json.Number.plain?, Json.Number.isPlain, Json.Number.ofInt, Json.Number.signedWhole,
    List.isEmpty_nil, Option.isNone_none, Bool.and_self, if_true, decide_eq_true_eq]
  split <;> congr 1 <;> omega

theorem integer?_ofInt {n : Int} (hlow : -2 ^ 63 ≤ n) (hhigh : n < 2 ^ 64) :
    (Json.Number.ofInt n).integer? = some n := by
  have hplain : (Json.Number.ofInt n).isPlain = true := rfl
  have hnegative : (Json.Number.ofInt n).negative = decide (n < 0) := rfl
  have hwhole : (Json.Number.ofInt n).whole = n.natAbs := rfl
  have hsigned := plain?_ofInt n
  rw [Json.Number.plain?, if_pos hplain] at hsigned
  rw [Json.Number.integer?, hplain, Bool.true_and, if_pos, hsigned]
  by_cases hn : n < 0
  · simp only [hnegative, hwhole, hn, decide_true, if_true, Bool.and_eq_true, decide_eq_true_eq]
    omega
  · simp only [hnegative, hwhole, hn, decide_false, Bool.false_eq_true, if_false,
      decide_eq_true_eq]
    omega

/-- An integer of at most 64 bits is decoded if it is within the bounds. -/
theorem integerBetween?_ofInt {low high n : Int} (hlow : low ≤ n) (hhigh : n ≤ high)
    (h63 : -2 ^ 63 ≤ low) (h64 : high < 2 ^ 64) :
    integerBetween? low high (.number (.ofInt n)) = some n := by
  rw [integerBetween?, integer?_ofInt (Int.le_trans h63 hlow) (Int.lt_of_le_of_lt hhigh h64)]
  simp [hlow, hhigh]

theorem decodesIn_int32 (n : Int32) : DecodesIn 0 n := fun room _ => by
  have hlow := n.le_toInt
  have hhigh := n.toInt_lt
  change (integerBetween? _ _ (.number (.ofInt n.toInt))).map Int32.ofInt = _
  rw [integerBetween?_ofInt (by omega) (by omega) (by omega) (by omega), Option.map_some,
    Int32.ofInt_toInt]

theorem decodesIn_int64 (n : Int64) : DecodesIn 0 n := fun room _ => by
  have hlow := n.le_toInt
  have hhigh := n.toInt_lt
  change (integerBetween? _ _ (.number (.ofInt n.toInt))).map Int64.ofInt = _
  rw [integerBetween?_ofInt (by omega) (by omega) (by omega) (by omega), Option.map_some,
    Int64.ofInt_toInt]

theorem decodesIn_byte (n : UInt8) : DecodesIn 0 n := fun room _ => by
  have hhigh := n.toNat_lt
  change (integerBetween? _ _ (.number (.ofInt n.toNat))).map (fun i => UInt8.ofNat i.toNat) = _
  rw [integerBetween?_ofInt (by omega) (by omega) (by omega) (by omega), Option.map_some,
    Int.toNat_natCast, UInt8.ofNat_toNat]

theorem decodesIn_int128 (n : Int128) : DecodesIn 0 n := fun room _ => by
  change (Json.Number.plain? _).bind Int128.ofInt? = _
  rw [plain?_ofInt, Option.bind_some, Int128.ofInt?_val]

/-! ## Lists and options -/

section

variable {α : Type} [Codec α]

theorem mapM_decode {n room : Nat} (hroom : n ≤ room) :
    ∀ {items : List α}, (∀ a ∈ items, DecodesIn n a) →
      (items.map encode).mapM (decode room) = some items
  | [], _ => rfl
  | a :: items, h => by
    rw [List.map_cons, List.mapM_cons, h a List.mem_cons_self room hroom,
      mapM_decode hroom fun b hb => h b (List.mem_cons_of_mem a hb)]
    rfl

/-- **A list decodes in one more than its items.** -/
theorem decodesIn_list {n : Nat} {items : List α} (h : ∀ a ∈ items, DecodesIn n a) :
    DecodesIn (n + 1) items :=
  decodesIn_succ fun _ hroom => mapM_decode hroom h

/-- A value that may be missing is told from null, unless it is written as null itself. -/
theorem nullable_encodeOption {n room : Nat} (hroom : n ≤ room) :
    ∀ {a : Option α}, (∀ b ∈ a, DecodesIn n b ∧ encode b ≠ .null) →
      Slot.nullable (decode room) (encodeOption a) = some a
  | none, _ => rfl
  | some a, h => by
    obtain ⟨hdecodes, hnull⟩ := h a rfl
    rw [encodeOption, Slot.nullable, hdecodes room hroom, Option.map_some]
    exact hnull

end

/-! ## Records -/

namespace Record

/-- The record of a list of fields. -/
def ofFields (fields : List (String × Json)) : Record :=
  fun name => ((fields.lookup name).map Slot.given).getD .absent

theorem lookup_map_some (name : String) : ∀ fields : List (String × Json),
    (fields.map fun f => (some f.1, f.2)).lookup (some name) = fields.lookup name
  | [] => rfl
  | (other, value) :: fields => by
    rw [List.map_cons, List.lookup_cons, List.lookup_cons, lookup_map_some name fields]
    rfl

/-- **The record of an object is that of its fields**, if these have the names that are known. -/
theorem of?_ofMembers {names : List String} {fields : List (String × Json)}
    (hnames : fields.map Prod.fst = names) (hdistinct : names.Nodup) :
    of? names (.ofMembers fields) = some (ofFields fields) := by
  have hfound : ((fields.map fun f => (some f.1, f.2)).filterMap Prod.fst).filter names.contains =
      names := by
    rw [List.filterMap_map]
    have : (fields.filterMap (Prod.fst ∘ fun f => (some f.1, f.2))) = names := by
      rw [← hnames, ← List.filterMap_eq_map]
      rfl
    rw [this]
    exact List.filter_eq_self.mpr fun name h => List.contains_iff_mem.mpr h
  rw [Json.ofMembers, of?, ofMembers?, hfound, if_pos ⟨by simp, hdistinct⟩]
  simp only [lookup_map_some]
  rfl

end Record

/-! ## Tags -/

section

variable {α : Type} {all : List α} {name : α → String} {a : α}

/-- A variant without content is found by its name. -/
theorem decodeVariant_ofText (h : all.find? (name · == name a) = some a) (room : Nat) :
    decodeVariant all name room (.ofText (name a)) = some a := by
  rw [decodeVariant, Json.ofText, variantName?, Option.bind_some, h]

end

/-- **A tag and its content are found again**, the content after its tag. -/
theorem Tagged.of?_encode {tagName contentName : String} (h : tagName ≠ contentName) (room : Nat)
    (tag : String) (content : Json) :
    Tagged.of? tagName contentName (room + 1) (Tagged.encode tagName contentName tag content) =
      some { tag, content } := by
  rw [Tagged.encode, Json.ofMembers, of?, ofMembers?]
  simp [h, h.symm, Json.ofText, variantName?]

end RowIndex.Codec
