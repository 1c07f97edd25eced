import RowIndex.Codec.Row
import RowIndex.Proofs.Codec.Records

/-!
# Proofs/Codec/Rows — values, keys, mutations and tables are decoded

Each type decodes in a room of its own, one more than the deepest part of its tree.  Floating-point
numbers are left out: a value that is one, and the cells and mutations that hold one, are not
`FloatFree`.
-/

namespace RowIndex

open Codec

/-- Whether a value is no floating-point number. -/
def Value.FloatFree : Value → Prop
  | .float _ | .double _ => False
  | _ => True

/-- Whether the cell is written with no floating-point number. -/
def Cell.FloatFree (c : Cell) : Prop := ∀ v ∈ c.value, v.FloatFree

/-- Whether no cell is written with a floating-point number. -/
def Mutation.FloatFree (m : Mutation) : Prop := ∀ c ∈ m.cells, c.FloatFree

theorem decodesIn_bytes (bytes : Bytes) : DecodesIn 1 bytes :=
  decodesIn_list fun n _ => decodesIn_byte n

/-! ## Values -/

namespace Value

/-- A type is found by its tag. -/
theorem find?_tag (t : CellType) : CellType.all.find? (·.tag == t.tag) = some t := by
  cases t <;> decide

theorem ofContent?_content {v : Value} (h : v.FloatFree) {room : Nat} (hroom : 1 ≤ room) :
    ofContent? v.cellType false room v.content = some v := by
  have hzero := Nat.zero_le room
  cases v with
  | int n => exact (decodesIn_int32 n).map_decode hzero int
  | bigInt n => exact (decodesIn_int64 n).map_decode hzero bigInt
  | varInt n => exact (decodesIn_int128 n).map_decode (Nat.zero_le 0) varInt
  | float x => exact h.elim
  | double x => exact h.elim
  | decimal text => exact (decodesIn_string text).map_decode hzero decimal
  | text text => exact (decodesIn_string text).map_decode hzero Value.text
  | boolean flag => exact (decodesIn_bool flag).map_decode hzero boolean
  | blob bytes => exact (decodesIn_bytes bytes).map_decode hroom blob

/-- **A value decodes below its tag.** -/
theorem decodesIn {v : Value} (h : v.FloatFree) : DecodesIn 2 v :=
  decodesIn_succ fun room hroom => by
    change (Tagged.of? "type" "value" (room + 1)
      (Tagged.encode "type" "value" v.cellType.tag v.content)).bind _ = _
    rw [Tagged.of?_encode (by decide), Option.bind_some]
    simp only [find?_tag]
    exact ofContent?_content h hroom

theorem encode_ne_null (v : Value) : encode v ≠ Json.null := nofun

end Value

/-! ## Keys -/

namespace Token

/-- A partitioner is found by its name. -/
theorem find?_name (p : Partitioner) : Partitioner.all.find? (·.name == p.name) = some p := by
  cases p <;> decide

theorem ofContent?_content (t : Token) {room : Nat} (hroom : 1 ≤ room) :
    ofContent? t.partitioner false room t.content = some t := by
  cases t with
  | murmur3 hash => exact (decodesIn_int64 hash).map_decode (Nat.zero_le room) murmur3
  | random hash => exact (decodesIn_int128 hash).map_decode (Nat.zero_le 0) random
  | byteOrdered bytes => exact (decodesIn_bytes bytes).map_decode hroom byteOrdered

theorem decodesIn (t : Token) : DecodesIn 2 t :=
  decodesIn_succ fun room hroom => by
    change (Tagged.of? "partitioner" "value" (room + 1)
      (Tagged.encode "partitioner" "value" t.partitioner.name t.content)).bind _ = _
    rw [Tagged.of?_encode (by decide), Option.bind_some]
    simp only [find?_name]
    exact t.ofContent?_content hroom

end Token

theorem Key.decodesIn (k : Key) : DecodesIn 3 k :=
  decodesIn_succ fun room hroom => by
    have htoken := k.token.decodesIn room hroom
    have hbytes := decodesIn_bytes k.bytes room (by omega)
    change (Record.of? _ (.ofMembers [("token", encode k.token), ("key", encode k.bytes)])).bind _
      = _
    rw [Record.of?_ofMembers (by rfl) (by decide), Option.bind_some]
    simp [Record.ofFields, List.lookup_cons, Slot.required, htoken, hbytes]

/-! ## Mutations -/

theorem Cell.decodesIn {c : Cell} (h : c.FloatFree) : DecodesIn 3 c :=
  decodesIn_succ fun room hroom => by
    have hname := decodesIn_string c.name room (Nat.zero_le room)
    have hvalue := nullable_encodeOption hroom
      fun v hv => ⟨Value.decodesIn (h v hv), v.encode_ne_null⟩
    have htimestamp := decodesIn_int64 c.timestamp room (Nat.zero_le room)
    change (Record.of? _ (.ofMembers [("name", encode c.name), ("value", encodeOption c.value),
      ("timestamp", encode c.timestamp)])).bind _ = _
    rw [Record.of?_ofMembers (by rfl) (by decide), Option.bind_some]
    simp [Record.ofFields, List.lookup_cons, Slot.required, Slot.optional, hname, hvalue,
      htimestamp]

theorem Deletion.decodesIn (d : Deletion) : DecodesIn 1 d :=
  decodesIn_succ fun room _ => by
    have hmarked := decodesIn_int64 d.markedAt room (Nat.zero_le room)
    change (Record.of? _ (.ofMembers [("marked_for_delete_at", encode d.markedAt)])).bind _ = _
    rw [Record.of?_ofMembers (by rfl) (by decide), Option.bind_some]
    simp [Record.ofFields, Slot.required, hmarked]

theorem Deletion.encode_ne_null (d : Deletion) : encode d ≠ Json.null := nofun

/-- **A mutation decodes with its deletion and all its cells.** -/
theorem Mutation.decodesIn {m : Mutation} (h : m.FloatFree) : DecodesIn 5 m :=
  decodesIn_succ fun room hroom => by
    have hdeletion := nullable_encodeOption (show 1 ≤ room by omega)
      fun d (_ : d ∈ m.deletion) => ⟨d.decodesIn, d.encode_ne_null⟩
    have hcells := decodesIn_list (fun c hc => Cell.decodesIn (h c hc)) room hroom
    change (Record.of? _ (.ofMembers [("deletion", encodeOption m.deletion),
      ("columns", encode m.cells)])).bind _ = _
    rw [Record.of?_ofMembers (by rfl) (by decide), Option.bind_some]
    simp [Record.ofFields, List.lookup_cons, Slot.required, Slot.optional, hdeletion, hcells]

/-! ## Tables -/

theorem decodesIn_cellType (t : CellType) : DecodesIn 0 t :=
  fun room _ => decodeVariant_ofText (Value.find?_tag t) room

theorem Column.decodesIn (c : Column) : DecodesIn 1 c :=
  decodesIn_succ fun room _ => by
    have hname := decodesIn_string c.name room (Nat.zero_le room)
    have htype := decodesIn_cellType c.type room (Nat.zero_le room)
    change (Record.of? _ (.ofMembers [("name", encode c.name), ("type", encode c.type)])).bind _ = _
    rw [Record.of?_ofMembers (by rfl) (by decide), Option.bind_some]
    simp [Record.ofFields, List.lookup_cons, Slot.required, hname, htype]

theorem Table.decodesIn (t : Table) : DecodesIn 3 t :=
  decodesIn_succ fun room hroom => by
    have hname := decodesIn_string t.name room (Nat.zero_le room)
    have hcolumns := decodesIn_list (fun c (_ : c ∈ t.columns) => c.decodesIn) room hroom
    change (Record.of? _ (.ofMembers [("name", encode t.name),
      ("columns", encode t.columns)])).bind _ = _
    rw [Record.of?_ofMembers (by rfl) (by decide), Option.bind_some]
    simp [Record.ofFields, List.lookup_cons, Slot.required, hname, hcolumns]

end RowIndex
