import RowIndex.Codec.Query
import RowIndex.Proofs.Codec.Documents

/-!
# Proofs/Codec/Queries — queries are decoded as deep as there is room

Every clause of a query takes three of the room: its variant, the record below it and the list of
clauses.  By induction over the query, its tree is decoded to it whenever the tree is no deeper than
the room (`ofJson?_toJson`).
-/

namespace RowIndex

open Codec

/-! ## Depth -/

mutual

/-- How deep the arrays and objects of a tree are nested. -/
def Json.depth : Json → Nat
  | .array items => Json.depths items + 1
  | .object members => Json.memberDepths members + 1
  | _ => 0

/-- How deep the arrays and objects of a list of trees are nested. -/
def Json.depths : List Json → Nat
  | [] => 0
  | item :: rest => max (Json.depth item) (Json.depths rest)

/-- How deep the arrays and objects of the members of an object are nested. -/
def Json.memberDepths : List (Option String × Json) → Nat
  | [] => 0
  | (_, value) :: rest => max (Json.depth value) (Json.memberDepths rest)

end

/-- Whether no end of a range is a floating-point number. -/
def Bound.FloatFree : Bound FieldValue → Prop
  | .unbounded => True
  | .included v | .excluded v => v.FloatFree

mutual

/-- Whether a query holds no floating-point number; every factor on a score is one. -/
def Query.FloatFree : Query → Prop
  | .all | .matching _ _ => True
  | .term _ value => value.FloatFree
  | .range _ lower upper => lower.FloatFree ∧ upper.FloatFree
  | .boolean must should mustNot =>
    Query.AllFloatFree must ∧ Query.AllFloatFree should ∧ Query.AllFloatFree mustNot
  | .boost _ _ => False

/-- Whether no query of a list holds a floating-point number. -/
def Query.AllFloatFree : List Query → Prop
  | [] => True
  | q :: rest => Query.FloatFree q ∧ Query.AllFloatFree rest

end

/-! ## Values and bounds -/

theorem Json.depth_le_memberDepths {name : Option String} {value : Json} :
    ∀ {members : List (Option String × Json)}, (name, value) ∈ members →
      value.depth ≤ Json.memberDepths members
  | _ :: _, .head _ => Nat.le_max_left _ _
  | _ :: _, .tail _ h => Nat.le_trans (Json.depth_le_memberDepths h) (Nat.le_max_right _ _)

theorem FieldValue.decode_encode {v : FieldValue} (h : v.FloatFree) {room : Nat}
    (hroom : (encode v).depth ≤ room) : decode room (encode v) = some v :=
  FieldValue.decodesIn h room (Nat.le_trans (Nat.le_add_left 1 _) hroom)

theorem Bound.decode_encode {b : Bound FieldValue} (h : b.FloatFree) {room : Nat}
    (hroom : (encode b).depth ≤ room) : decode room (encode b) = some b := by
  have hgiven {name : String} {v : FieldValue}
      (hroom : (Json.ofMembers [(name, encode v)]).depth ≤ room) :
      ∃ n, room = n + 1 ∧ (encode v).depth ≤ n := by
    simp only [Json.ofMembers, Json.depth, Json.memberDepths, List.map_cons, List.map_nil] at hroom
    exact ⟨room - 1, by omega, by omega⟩
  cases b with
  | unbounded => cases room <;> rfl
  | included v =>
    obtain ⟨n, rfl, hn⟩ := hgiven hroom
    change (decode n (encode v)).map included = _
    rw [FieldValue.decode_encode h hn, Option.map_some]
  | excluded v =>
    obtain ⟨n, rfl, hn⟩ := hgiven hroom
    change (decode n (encode v)).map excluded = _
    rw [FieldValue.decode_encode h hn, Option.map_some]

/-! ## Queries -/

namespace Query

/-- A variant whose fields hold no queries is decoded by its record. -/
theorem ofJson?_leaf {variant : String} (hboolean : variant ≠ "boolean")
    (hboost : variant ≠ "boost") (room : Nat) (fields : List (String × Json)) :
    ofJson? (room + 2) (.ofMembers [(variant, .ofMembers fields)]) =
      ofLeaf? variant room (.ofMembers fields) := by
  simp [Json.ofMembers, ofJson?, variantName?, hboolean, hboost]

/-- The fields of a variant are decoded with what is left of the room for the query. -/
theorem exists_room {variant : String} {fields : List (String × Json)} {room : Nat}
    (h : (Json.ofMembers [(variant, .ofMembers fields)]).depth ≤ room) :
    ∃ n, room = n + 2 ∧ ∀ f ∈ fields, f.2.depth ≤ n := by
  simp only [Json.ofMembers, Json.depth, Json.memberDepths, List.map_cons, List.map_nil] at h
  exact ⟨room - 2, by omega, fun f hf => by
    have := Json.depth_le_memberDepths (List.mem_map_of_mem (f := fun f => (some f.1, f.2)) hf)
    omega⟩

mutual

/-- **A query is decoded if its tree is no deeper than there is room.** -/
theorem ofJson?_toJson : ∀ {q : Query} {room : Nat}, q.FloatFree → (toJson q).depth ≤ room →
    ofJson? room (toJson q) = some q
  | all, room, _, _ => by
    match room with
    | 0 | 1 | 2 | _ + 3 => rfl
  | term field value, _, h, hroom => by
    obtain ⟨room, rfl, hfields⟩ := exists_room hroom
    have hfield := decodesIn_string field room (Nat.zero_le room)
    have hvalue := FieldValue.decode_encode h (hfields ("value", encode value) (by simp))
    rw [toJson, ofJson?_leaf (by decide) (by decide), ofLeaf?,
      Record.of?_ofMembers (by rfl) (by decide)]
    simp [Record.ofFields, List.lookup_cons, Slot.required, hfield, hvalue]
  | range field lower upper, _, h, hroom => by
    obtain ⟨room, rfl, hfields⟩ := exists_room hroom
    have hfield := decodesIn_string field room (Nat.zero_le room)
    have hlower := Bound.decode_encode h.1 (hfields ("lower", encode lower) (by simp))
    have hupper := Bound.decode_encode h.2 (hfields ("upper", encode upper) (by simp))
    rw [toJson, ofJson?_leaf (by decide) (by decide), ofLeaf?,
      Record.of?_ofMembers (by rfl) (by decide)]
    simp [Record.ofFields, List.lookup_cons, Slot.required, hfield, hlower, hupper]
  | matching field text, _, _, hroom => by
    obtain ⟨room, rfl, hfields⟩ := exists_room hroom
    have hfield := decodesIn_string field room (Nat.zero_le room)
    have htext := decodesIn_string text room (Nat.zero_le room)
    rw [toJson, ofJson?_leaf (by decide) (by decide), ofLeaf?,
      Record.of?_ofMembers (by rfl) (by decide)]
    simp [Record.ofFields, List.lookup_cons, Slot.required, hfield, htext]
  | boolean must should mustNot, _, h, hroom => by
    obtain ⟨room, rfl, hfields⟩ := exists_room hroom
    have hmustRoom := hfields ("must", .array (listToJson must)) (by simp)
    have hshouldRoom := hfields ("should", .array (listToJson should)) (by simp)
    have hmustNotRoom := hfields ("must_not", .array (listToJson mustNot)) (by simp)
    rw [Json.depth] at hmustRoom hshouldRoom hmustNotRoom
    obtain ⟨room, rfl⟩ : ∃ n, room = n + 1 := ⟨room - 1, by omega⟩
    have hmust := mapM_ofJson? h.1 (Nat.le_of_succ_le_succ hmustRoom)
    have hshould := mapM_ofJson? h.2.1 (Nat.le_of_succ_le_succ hshouldRoom)
    have hmustNot := mapM_ofJson? h.2.2 (Nat.le_of_succ_le_succ hmustNotRoom)
    rw [toJson, Json.ofMembers, List.map_cons, List.map_nil, ofJson?,
      Record.of?_ofMembers (by rfl) (by decide)]
    simp [Record.ofFields, List.lookup_cons, Slot.required, decodeItems, hmust, hshould, hmustNot]
  | boost _ _, _, h, _ => h.elim

/-- The queries of a list are decoded one by one. -/
theorem mapM_ofJson? : ∀ {queries : List Query} {room : Nat}, AllFloatFree queries →
    Json.depths (listToJson queries) ≤ room →
      (listToJson queries).mapM (ofJson? room) = some queries
  | [], _, _, _ => rfl
  | q :: rest, room, h, hroom => by
    rw [listToJson, Json.depths] at hroom
    have hfirst : ofJson? room (toJson q) = _ := ofJson?_toJson h.1 (by omega)
    have hrest : (listToJson rest).mapM (ofJson? room) = _ := mapM_ofJson? h.2 (by omega)
    rw [listToJson, List.mapM_cons, hfirst, hrest]
    rfl

end

end Query

end RowIndex
