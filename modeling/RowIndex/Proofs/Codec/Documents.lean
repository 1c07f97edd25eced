import RowIndex.Codec.Document
import RowIndex.Proofs.Codec.Records

/-!
# Proofs/Codec/Documents — field declarations, documents, terms and orders are decoded

As in `Proofs/Codec/Rows`, each type decodes in a room of its own, and documents with a
floating-point value are left out.
-/

namespace RowIndex

open Codec

/-- Whether a value is no floating-point number. -/
def FieldValue.FloatFree : FieldValue → Prop
  | .double _ => False
  | _ => True

/-- Whether no value of a document is a floating-point number. -/
def Document.FloatFree (d : Document) : Prop := ∀ f ∈ d.fields, f.value.FloatFree

/-! ## Fields -/

/-- A kind is found by its tag. -/
theorem FieldKind.find?_tag (k : FieldKind) : all.find? (·.tag == k.tag) = some k := by
  cases k <;> decide

theorem FieldKind.decodesIn (k : FieldKind) : DecodesIn 0 k :=
  fun room _ => decodeVariant_ofText k.find?_tag room

theorem FieldSpec.decodesIn (s : FieldSpec) : DecodesIn 1 s :=
  decodesIn_succ fun room _ => by
    have hname := decodesIn_string s.name room (Nat.zero_le room)
    have hkind := s.kind.decodesIn room (Nat.zero_le room)
    have hstored := decodesIn_bool s.stored room (Nat.zero_le room)
    have hsortable := decodesIn_bool s.sortable room (Nat.zero_le room)
    change (Record.of? _ (.ofMembers [("name", encode s.name), ("kind", encode s.kind),
      ("stored", encode s.stored), ("sortable", encode s.sortable)])).bind _ = _
    rw [Record.of?_ofMembers (by rfl) (by decide), Option.bind_some]
    simp [Record.ofFields, List.lookup_cons, Slot.required, hname, hkind, hstored, hsortable]

theorem FieldValue.ofContent?_content {v : FieldValue} (h : v.FloatFree) (room : Nat) :
    ofContent? v.kind room v.content = some v := by
  have hzero := Nat.zero_le room
  cases v with
  | long n => exact (decodesIn_int64 n).map_decode hzero long
  | double x => exact h.elim
  | keyword text => exact (decodesIn_string text).map_decode hzero keyword
  | text text => exact (decodesIn_string text).map_decode hzero FieldValue.text

/-- **A value decodes beside its tag.** -/
theorem FieldValue.decodesIn {v : FieldValue} (h : v.FloatFree) : DecodesIn 1 v :=
  decodesIn_succ fun room _ => by
    change (Tagged.of? "kind" "value" (room + 1)
      (Tagged.encode "kind" "value" v.kind.tag v.content)).bind _ = _
    rw [Tagged.of?_encode (by decide), Option.bind_some]
    simp only [FieldKind.find?_tag]
    exact ofContent?_content h room

theorem Field.decodesIn {f : Field} (h : f.value.FloatFree) : DecodesIn 2 f :=
  decodesIn_succ fun room hroom => by
    have hname := decodesIn_string f.name room (Nat.zero_le room)
    have hvalue := FieldValue.decodesIn h room hroom
    change (Record.of? _ (.ofMembers [("name", encode f.name), ("value", encode f.value)])).bind _
      = _
    rw [Record.of?_ofMembers (by rfl) (by decide), Option.bind_some]
    simp [Record.ofFields, List.lookup_cons, Slot.required, hname, hvalue]

/-! ## Documents and terms -/

/-- **A document decodes with all its fields.** -/
theorem Document.decodesIn {d : Document} (h : d.FloatFree) : DecodesIn 4 d :=
  decodesIn_succ fun room hroom => by
    have hfields := decodesIn_list (fun f hf => Field.decodesIn (h f hf)) room hroom
    change (Record.of? _ (.ofMembers [("fields", encode d.fields)])).bind _ = _
    rw [Record.of?_ofMembers (by rfl) (by decide), Option.bind_some]
    simp [Record.ofFields, Slot.required, hfields]

theorem Term.decodesIn (t : Term) : DecodesIn 1 t :=
  decodesIn_succ fun room _ => by
    have hfield := decodesIn_string t.field room (Nat.zero_le room)
    have htext := decodesIn_string t.text room (Nat.zero_le room)
    change (Record.of? _ (.ofMembers [("field", encode t.field), ("text", encode t.text)])).bind _
      = _
    rw [Record.of?_ofMembers (by rfl) (by decide), Option.bind_some]
    simp [Record.ofFields, List.lookup_cons, Slot.required, hfield, htext]

/-! ## Orders -/

theorem Criterion.decodesIn (c : Criterion) : DecodesIn 1 c :=
  decodesIn_succ fun room _ => by
    have hfield := decodesIn_string c.field room (Nat.zero_le room)
    have hreverse := decodesIn_bool c.reverse room (Nat.zero_le room)
    change (Record.of? _ (.ofMembers [("field", encode c.field),
      ("reverse", encode c.reverse)])).bind _ = _
    rw [Record.of?_ofMembers (by rfl) (by decide), Option.bind_some]
    simp [Record.ofFields, List.lookup_cons, Slot.required, Slot.withDefault, hfield, hreverse]

theorem SortOrder.decodesIn (s : SortOrder) : DecodesIn 3 s :=
  decodesIn_succ fun room hroom => by
    have hcriteria := decodesIn_list (fun c (_ : c ∈ s.criteria) => c.decodesIn) room hroom
    change (Record.of? _ (.ofMembers [("criteria", encode s.criteria)])).bind _ = _
    rw [Record.of?_ofMembers (by rfl) (by decide), Option.bind_some]
    simp [Record.ofFields, Slot.required, hcriteria]

end RowIndex
