import RowIndex.Proofs.Field.ValueOrder
import RowIndex.Proofs.Index.Bindings
import RowIndex.Proofs.Sorting
import RowIndex.SortOrder

/-!
# Proofs/Index/HitOrder — hits of one index are in a total preorder

Values of different kinds tie, so in general the order of hits is not transitive.  The documents of
an index pass the check of its declarations, and then the first values of a field are of one kind
(`Declarations.kind_eq_of_first?`): every criterion orders them transitively
(`Criterion.isLE_order_trans`), and so do several criteria one after another and the scores at the
end (`SortOrder.transCmp_order`).  Hits tie only if the score is the same and so is the first value
for each criterion (`SortOrder.order_eq_eq_iff`); where the criteria before one tie, those without a
value for it come last (`SortOrder.order_lawful`).
-/

namespace RowIndex

open Std

/-- A hit whose document passes the check of the declarations. -/
abbrev Declarations.CheckedHit (declared : Declarations) : Type :=
  { hit : Hit // declared.check hit.document = .ok () }

variable {declared : Declarations}

/-- In documents that pass the check, the first values of a field are of one kind. -/
theorem Declarations.kind_eq_of_first? {a b : Document} (ha : declared.check a = .ok ())
    (hb : declared.check b = .ok ()) {name : String} {v w : FieldValue}
    (hv : a.first? name = some v) (hw : b.first? name = some w) : v.kind = w.kind := by
  have hmem {d : Document} {u : FieldValue} (h : d.first? name = some u) : u ∈ d.values name :=
    List.mem_of_head? h
  obtain ⟨f, hf, -⟩ := List.mem_map.mp (hmem hv)
  obtain ⟨hfield, hname⟩ := List.mem_filter.mp hf
  obtain ⟨spec, hspec, -⟩ := check_eq_ok_iff.mp ha f hfield
  rw [beq_iff_eq.mp hname] at hspec
  rw [kind_of_check ha hspec (hmem hv), kind_of_check hb hspec (hmem hw)]

namespace Criterion

variable (c : Criterion)

/-- Documents that have values are in the order of the first ones, turned if the criterion is. -/
theorem order_of_first? {a b : Document} {v w : FieldValue} (hv : a.first? c.field = some v)
    (hw : b.first? c.field = some w) :
    c.order a b = if c.reverse then w.order v else v.order w := by
  rw [order, hv, hw, ← FieldValue.swap_order v w]
  rfl

/-- Documents whose values are of one kind are ordered transitively. -/
theorem isLE_order_trans_of_first? {x y z : Document} {u v w : FieldValue}
    (hu : x.first? c.field = some u) (hv : y.first? c.field = some v)
    (hw : z.first? c.field = some w) (huv : u.kind = v.kind) (hvw : v.kind = w.kind)
    (hxy : (c.order x y).isLE = true) (hyz : (c.order y z).isLE = true) :
    (c.order x z).isLE = true := by
  rw [c.order_of_first? hu hv] at hxy
  rw [c.order_of_first? hv hw] at hyz
  rw [c.order_of_first? hu hw]
  cases hreverse : c.reverse with
  | false =>
    rw [hreverse] at hxy hyz
    exact FieldValue.isLE_order_trans huv hvw hxy hyz
  | true =>
    rw [hreverse] at hxy hyz
    exact FieldValue.isLE_order_trans hvw.symm huv.symm hyz hxy

theorem swap_order (a b : Document) : (c.order a b).swap = c.order b a := by
  cases hv : a.first? c.field with
  | none =>
    rw [order, order, hv]
    cases b.first? c.field <;> rfl
  | some v =>
    cases hw : b.first? c.field with
    | none =>
      rw [order, order, hv, hw]
      rfl
    | some w =>
      rw [c.order_of_first? hv hw, c.order_of_first? hw hv]
      cases c.reverse <;> exact FieldValue.swap_order _ _

/-- A document without a value comes before no document with one, whichever way the criterion is
turned. -/
theorem first?_eq_none_of_isLE {a b : Document} (h : (c.order a b).isLE = true)
    (ha : a.first? c.field = none) : b.first? c.field = none := by
  rw [order, ha] at h
  cases hb : b.first? c.field with
  | none => rfl
  | some w =>
    rw [hb] at h
    contradiction

/-- **A criterion orders documents that pass the check transitively.** -/
theorem isLE_order_trans {x y z : Document} (hx : declared.check x = .ok ())
    (hy : declared.check y = .ok ()) (hz : declared.check z = .ok ())
    (hxy : (c.order x y).isLE = true) (hyz : (c.order y z).isLE = true) :
    (c.order x z).isLE = true := by
  cases hw : z.first? c.field with
  | none =>
    rw [order, hw]
    cases x.first? c.field <;> rfl
  | some w =>
    cases hv : y.first? c.field with
    | none =>
      have := c.first?_eq_none_of_isLE hyz hv
      rw [hw] at this
      contradiction
    | some v =>
      cases hu : x.first? c.field with
      | none =>
        have := c.first?_eq_none_of_isLE hxy hu
        rw [hv] at this
        contradiction
      | some u =>
        exact c.isLE_order_trans_of_first? hu hv hw (Declarations.kind_eq_of_first? hx hy hu hv)
          (Declarations.kind_eq_of_first? hy hz hv hw) hxy hyz

/-- Without the check a value of another kind ties with the greater number and with the lesser. -/
example :
    let c : Criterion := ⟨"n", false⟩
    let d (v : FieldValue) : Document := ⟨[⟨"n", v⟩]⟩
    c.order (d (.long 2)) (d (.keyword "k")) = .eq ∧
      c.order (d (.keyword "k")) (d (.long 1)) = .eq ∧
      c.order (d (.long 2)) (d (.long 1)) = .gt := by decide

/-- Documents that pass the check tie exactly if their first values are the same, or both have
none. -/
theorem order_eq_eq_iff {a b : Document} (ha : declared.check a = .ok ())
    (hb : declared.check b = .ok ()) :
    c.order a b = .eq ↔ a.first? c.field = b.first? c.field := by
  cases hv : a.first? c.field with
  | none =>
    rw [order, hv]
    cases b.first? c.field <;> simp
  | some v =>
    cases hw : b.first? c.field with
    | none => simp [order, hv, hw]
    | some w =>
      have hkind : v.kind = w.kind := Declarations.kind_eq_of_first? ha hb hv hw
      rw [c.order_of_first? hv hw, Option.some_inj]
      cases c.reverse with
      | false => exact FieldValue.order_eq_eq_iff hkind
      | true => exact (FieldValue.order_eq_eq_iff hkind.symm).trans eq_comm

/-- A document without a value comes after one that has one, whichever way the criterion is
turned. -/
theorem order_of_first?_eq_none {a b : Document} (ha : (a.first? c.field).isSome = true)
    (hb : b.first? c.field = none) : c.order a b = .lt := by
  obtain ⟨v, hv⟩ := Option.isSome_iff_exists.mp ha
  rw [order, hv, hb]

instance : TransCmp fun a b : declared.CheckedHit => c.order a.1.document b.1.document where
  eq_swap := (c.swap_order _ _).symm
  isLE_trans {x y z} := c.isLE_order_trans x.2 y.2 z.2

end Criterion

namespace SortOrder

/-- **Hits whose documents pass the check are in a total preorder.** -/
instance transCmp_order (d : Declarations) (s : SortOrder) :
    TransCmp fun a b : d.CheckedHit => s.order a.1 b.1 := by
  obtain ⟨criteria⟩ := s
  induction criteria with
  | nil =>
    exact inferInstanceAs (TransCmp fun a b : d.CheckedHit =>
      compareOn (fun hit => hit.1.score) b a)
  | cons c rest ih =>
    exact inferInstanceAs (TransCmp (compareLex
      (fun a b : d.CheckedHit => c.order a.1.document b.1.document)
      fun a b : d.CheckedHit => order ⟨rest⟩ a.1 b.1))

variable {s : SortOrder} {a b c : Hit} (ha : declared.check a.document = .ok ())
  (hb : declared.check b.document = .ok ()) (hc : declared.check c.document = .ok ())

include ha hb hc in
theorem isLE_order_trans (hab : (s.order a b).isLE = true) (hbc : (s.order b c).isLE = true) :
    (s.order a c).isLE = true :=
  (transCmp_order declared s).isLE_trans (a := ⟨a, ha⟩) (b := ⟨b, hb⟩) (c := ⟨c, hc⟩)
    hab hbc

include ha hb

theorem isLE_order_total : ((s.order a b).isLE || (s.order b a).isLE) = true :=
  Sorting.isLE_or_isLE (fun a b : declared.CheckedHit => s.order a.1 b.1) ⟨a, ha⟩ ⟨b, hb⟩

theorem swap_order : (s.order a b).swap = s.order b a :=
  ((transCmp_order declared s).eq_swap (a := ⟨b, hb⟩) (b := ⟨a, ha⟩)).symm

include hc

/-- Hits that tie with one hit are in either order. -/
theorem isLE_of_ties (hca : s.order c a = .eq) (hcb : s.order c b = .eq) :
    (s.order a b).isLE = true := by
  refine isLE_order_trans ha hc hb ?_ (by rw [hcb]; rfl)
  rw [← swap_order hc ha, hca]
  rfl

omit hc

/-- **Hits tie exactly if nothing that they are ordered by tells them apart.** -/
theorem order_eq_eq_iff :
    s.order a b = .eq ↔
      (∀ e ∈ s.criteria, a.document.first? e.field = b.document.first? e.field) ∧
        a.score = b.score := by
  obtain ⟨criteria⟩ := s
  induction criteria with
  | nil =>
    change compare b.score a.score = .eq ↔ _
    rw [LawfulEqOrd.compare_eq_iff_eq]
    simp [eq_comm]
  | cons e rest ih =>
    change (e.order a.document b.document).then (order ⟨rest⟩ a b) = .eq ↔ _
    rw [Ordering.then_eq_eq, e.order_eq_eq_iff ha hb, ih, List.forall_mem_cons, and_assoc]

omit ha hb

/-- Where the criteria before tie, those that follow decide. -/
theorem order_of_ties {earlier later : List Criterion}
    (h : ∀ e ∈ earlier, e.order a.document b.document = .eq) :
    order ⟨earlier ++ later⟩ a b = order ⟨later⟩ a b := by
  induction earlier with
  | nil => rfl
  | cons e earlier ih =>
    obtain ⟨he, hearlier⟩ := List.forall_mem_cons.mp h
    change (e.order a.document b.document).then (order ⟨earlier ++ later⟩ a b) = _
    rw [he, ih hearlier]
    rfl

/-- **Hits of one index are in a total preorder, those without a value last.**  The documents of the
hits conform to the declarations; there may be any number of criteria, each turned or not.  A hit
ties with itself, two hits compare the opposite way from the other side, and the order is
transitive.  Hits tie exactly if they have the same first value, or none, for each criterion, and
the same score.  Where all criteria before one tie, a hit without a value for it comes after any
that has one. -/
theorem order_lawful (s : SortOrder) {a b c : Hit} (ha : declared.check a.document = .ok ())
    (hb : declared.check b.document = .ok ()) (hc : declared.check c.document = .ok ()) :
    s.order a a = .eq ∧ s.order a b = (s.order b a).swap ∧
    ((s.order a b).isLE = true → (s.order b c).isLE = true → (s.order a c).isLE = true) ∧
    (s.order a b = .eq ↔
      (∀ e ∈ s.criteria, a.document.first? e.field = b.document.first? e.field) ∧
        a.score = b.score) ∧
    ∀ earlier criterion later, s.criteria = earlier ++ criterion :: later →
      (∀ e ∈ earlier, e.order a.document b.document = .eq) →
      (a.document.first? criterion.field).isSome = true →
      b.document.first? criterion.field = none → s.order a b = .lt ∧ s.order b a = .gt := by
  have hself : s.order a a = .eq := (order_eq_eq_iff ha ha).mpr ⟨fun _ _ => rfl, rfl⟩
  refine ⟨hself, (swap_order hb ha).symm, isLE_order_trans ha hb hc, order_eq_eq_iff ha hb, ?_⟩
  intro earlier criterion later hcriteria hties hvalue hnone
  have hlt : s.order a b = .lt := by
    obtain ⟨criteria⟩ := s
    obtain rfl : criteria = earlier ++ criterion :: later := hcriteria
    rw [order_of_ties hties]
    change (criterion.order a.document b.document).then _ = .lt
    rw [criterion.order_of_first?_eq_none hvalue hnone]
    rfl
  refine ⟨hlt, ?_⟩
  rw [← swap_order ha hb, hlt]
  rfl

/-- By falling price, a hit without a price comes after the one with the lowest price, although its
score is higher. -/
theorem order_lawful_of_missing_price :
    let declared : Declarations :=
      NameMap.ofList [⟨"year", .long, false, true⟩, ⟨"price", .double, false, true⟩]
    let s : SortOrder := ⟨[⟨"year", false⟩, ⟨"price", true⟩]⟩
    let lowest : Double := Binary.infinite true
    let a : Hit := ⟨⟨[⟨"year", .long 1⟩, ⟨"price", .double lowest⟩]⟩, Binary.zero false⟩
    let b : Hit := ⟨⟨[⟨"year", .long 1⟩]⟩, Binary.one⟩
    let c : Hit := ⟨⟨[⟨"year", .long 2⟩, ⟨"price", .double Binary.one⟩]⟩, Binary.one⟩
    (declared.check a.document = .ok () ∧ declared.check b.document = .ok () ∧
        declared.check c.document = .ok ()) ∧
      s.order a a = .eq ∧ s.order a b = (s.order b a).swap ∧
      ((s.order a b).isLE = true ∧ (s.order b c).isLE = true ∧ (s.order a c).isLE = true) ∧
      s.order a b ≠ .eq ∧ s.order a b = .lt ∧ s.order b a = .gt := by
  intro declared s lowest a b c
  have ha : declared.check a.document = .ok () := by decide +kernel
  have hb : declared.check b.document = .ok () := by decide +kernel
  have hc : declared.check c.document = .ok () := by decide +kernel
  obtain ⟨hself, hswap, htrans, hties, hmissing⟩ := order_lawful s ha hb hc
  obtain ⟨hlt, hgt⟩ := hmissing [⟨"year", false⟩] ⟨"price", true⟩ [] rfl
    (List.forall_mem_singleton.mpr (by decide)) rfl rfl
  have hab : (s.order a b).isLE = true := by rw [hlt]; rfl
  have hbc : (s.order b c).isLE = true := by decide
  refine ⟨⟨ha, hb, hc⟩, hself, hswap, ⟨hab, hbc, htrans hab hbc⟩, fun heq => ?_, hlt, hgt⟩
  have hscore : a.score = b.score := (hties.mp heq).2
  exact absurd hscore (by decide +kernel)

end SortOrder

end RowIndex
