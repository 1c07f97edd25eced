/-!
# Proofs/Outcomes — when a computation that can fail succeeds

A chain of steps succeeds if every step does; a list is processed successfully if every element is,
and then the results stand in the order of the elements.
-/

namespace RowIndex

variable {ε α β : Type}

/-- Outcomes can be compared. -/
instance decidableEqExcept [DecidableEq ε] [DecidableEq α] : DecidableEq (Except ε α)
  | .ok _, .ok _ => decidable_of_iff _ ⟨congrArg Except.ok, Except.ok.inj⟩
  | .error _, .error _ => decidable_of_iff _ ⟨congrArg Except.error, Except.error.inj⟩
  | .ok _, .error _ => .isFalse nofun
  | .error _, .ok _ => .isFalse nofun

theorem bind_eq_ok_iff {x : Except ε α} {f : α → Except ε β} {b : β} :
    x >>= f = .ok b ↔ ∃ a, x = .ok a ∧ f a = .ok b := by
  cases x with
  | error e => exact ⟨nofun, fun ⟨_, h, _⟩ => nomatch h⟩
  | ok a => exact ⟨fun h => ⟨a, rfl, h⟩, fun ⟨_, h, hf⟩ => Except.ok.inj h ▸ hf⟩

theorem map_eq_ok_iff {x : Except ε α} {f : α → β} {b : β} :
    x.map f = .ok b ↔ ∃ a, x = .ok a ∧ f a = b := by
  cases x with
  | error e => exact ⟨nofun, fun ⟨_, h, _⟩ => nomatch h⟩
  | ok a => exact ⟨fun h => ⟨a, rfl, Except.ok.inj h⟩,
      fun ⟨_, h, hf⟩ => congrArg _ (Except.ok.inj h ▸ hf)⟩

theorem bind_eq_error_iff {x : Except ε α} {f : α → Except ε β} {e : ε} :
    x >>= f = .error e ↔ x = .error e ∨ ∃ a, x = .ok a ∧ f a = .error e := by
  cases x with
  | error e' => exact ⟨fun h => Or.inl (congrArg _ (Except.error.inj h)),
      fun h => h.elim (fun h => congrArg _ (Except.error.inj h)) fun ⟨_, h, _⟩ => nomatch h⟩
  | ok a => exact ⟨fun h => Or.inr ⟨a, rfl, h⟩,
      fun h => h.elim nofun fun ⟨_, h, hf⟩ => Except.ok.inj h ▸ hf⟩

theorem map_eq_error_iff {x : Except ε α} {f : α → β} {e : ε} :
    x.map f = .error e ↔ x = .error e := by
  cases x with
  | error e' => exact ⟨fun h => congrArg _ (Except.error.inj h),
      fun h => congrArg _ (Except.error.inj h)⟩
  | ok a => exact ⟨nofun, nofun⟩

theorem forM_cons_eq (f : α → Except ε Unit) (a : α) (l : List α) :
    (a :: l).forM f = (f a >>= fun _ => l.forM f) := rfl

/-- A list passes a check if all its elements do. -/
theorem forM_eq_ok_iff {f : α → Except ε Unit} {l : List α} :
    l.forM f = .ok () ↔ ∀ a ∈ l, f a = .ok () := by
  induction l with
  | nil => exact ⟨fun _ _ h => (List.not_mem_nil h).elim, fun _ => rfl⟩
  | cons a l ih =>
    rw [forM_cons_eq, bind_eq_ok_iff, List.forall_mem_cons, ← ih]
    exact ⟨fun ⟨_, h, hl⟩ => ⟨h, hl⟩, fun ⟨h, hl⟩ => ⟨(), h, hl⟩⟩

/-- **A list is mapped successfully to the results of its elements, in order.** -/
theorem mapM_eq_ok_iff {f : α → Except ε β} {l : List α} {r : List β} :
    l.mapM f = .ok r ↔ l.map f = r.map .ok := by
  induction l generalizing r with
  | nil =>
    rw [List.mapM_nil, List.map_nil, eq_comm (a := []), List.map_eq_nil_iff, eq_comm]
    exact ⟨fun h => Except.ok.inj h, fun h => congrArg _ h⟩
  | cons a l ih =>
    simp only [List.mapM_cons, bind_eq_ok_iff]
    constructor
    · rintro ⟨b, hb, bs, hbs, h⟩
      rw [← Except.ok.inj h, List.map_cons, List.map_cons, hb, ih.mp hbs]
    · intro h
      obtain ⟨b, bs, rfl, hb, hbs⟩ := List.map_eq_cons_iff.mp h.symm
      exact ⟨b, hb.symm, bs, ih.mpr hbs.symm, rfl⟩

/-- **A list is not mapped successfully because of its first element that fails.** -/
theorem mapM_eq_error_iff {f : α → Except ε β} {l : List α} {e : ε} :
    l.mapM f = .error e ↔ ∃ before a after, l = before ++ a :: after ∧
      (∀ b ∈ before, ∃ r, f b = .ok r) ∧ f a = .error e := by
  induction l with
  | nil =>
    rw [List.mapM_nil]
    exact ⟨nofun, fun ⟨before, a, after, h, _⟩ => by simp at h⟩
  | cons x l ih =>
    simp only [List.mapM_cons, bind_eq_error_iff, ih]
    constructor
    · rintro (hx | ⟨b, hb, ⟨before, a, after, rfl, hbefore, ha⟩ | ⟨_, _, h⟩⟩)
      · exact ⟨[], x, l, rfl, fun _ h => (List.not_mem_nil h).elim, hx⟩
      · exact ⟨x :: before, a, after, rfl, List.forall_mem_cons.mpr ⟨⟨b, hb⟩, hbefore⟩, ha⟩
      · contradiction
    · rintro ⟨before, a, after, h, hbefore, ha⟩
      rcases before with _ | ⟨y, before⟩
      · obtain ⟨rfl, -⟩ := List.cons.inj h
        exact Or.inl ha
      · obtain ⟨rfl, rfl⟩ := List.cons.inj h
        obtain ⟨⟨b, hb⟩, hbefore⟩ := List.forall_mem_cons.mp hbefore
        exact Or.inr ⟨b, hb, Or.inl ⟨before, a, after, rfl, hbefore, ha⟩⟩

theorem forM_eq_map_mapM (f : α → Except ε Unit) (l : List α) :
    l.forM f = (l.mapM f).map fun _ => () := by
  induction l with
  | nil => rfl
  | cons a l ih =>
    rw [forM_cons_eq, ih, List.mapM_cons]
    cases f a with
    | error e => rfl
    | ok u => cases l.mapM f <;> rfl

/-- **A list fails a check because of its first element that does.** -/
theorem forM_eq_error_iff {f : α → Except ε Unit} {l : List α} {e : ε} :
    l.forM f = .error e ↔ ∃ before a after, l = before ++ a :: after ∧
      (∀ b ∈ before, f b = .ok ()) ∧ f a = .error e := by
  rw [forM_eq_map_mapM, map_eq_error_iff, mapM_eq_error_iff]
  exact exists₃_congr fun _ _ _ => and_congr_right fun _ => and_congr_left fun _ =>
    forall₂_congr fun _ _ => ⟨fun ⟨_, h⟩ => h, fun h => ⟨(), h⟩⟩

/-- Only what is done to the elements of a list counts. -/
theorem mapM_congr {f g : α → Except ε β} {l : List α} (h : ∀ a ∈ l, f a = g a) :
    l.mapM f = l.mapM g := by
  induction l with
  | nil => rfl
  | cons a l ih =>
    obtain ⟨ha, hl⟩ := List.forall_mem_cons.mp h
    rw [List.mapM_cons, List.mapM_cons, ha, ih hl]

/-- Every result is the result of an element. -/
theorem exists_of_mem_mapM {f : α → Except ε β} {l : List α} {r : List β}
    (h : l.mapM f = .ok r) {b : β} (hb : b ∈ r) : ∃ a ∈ l, f a = .ok b := by
  have hmem : Except.ok b ∈ l.map f := mapM_eq_ok_iff.mp h ▸ List.mem_map_of_mem hb
  exact List.mem_map.mp hmem

/-- Every element has its result. -/
theorem exists_of_mapM_of_mem {f : α → Except ε β} {l : List α} {r : List β}
    (h : l.mapM f = .ok r) {a : α} (ha : a ∈ l) : ∃ b ∈ r, f a = .ok b := by
  have hmem : f a ∈ r.map .ok := mapM_eq_ok_iff.mp h ▸ List.mem_map_of_mem ha
  obtain ⟨b, hb, heq⟩ := List.mem_map.mp hmem
  exact ⟨b, hb, heq.symm⟩

/-- A list is mapped successfully if each of its elements is. -/
theorem exists_mapM_iff {f : α → Except ε β} {l : List α} :
    (∃ r, l.mapM f = .ok r) ↔ ∀ a ∈ l, ∃ b, f a = .ok b := by
  constructor
  · rintro ⟨r, h⟩ a ha
    obtain ⟨b, -, hb⟩ := exists_of_mapM_of_mem h ha
    exact ⟨b, hb⟩
  · intro h
    cases hmap : l.mapM f with
    | ok r => exact ⟨r, rfl⟩
    | error e =>
      obtain ⟨before, a, after, rfl, -, ha⟩ := mapM_eq_error_iff.mp hmap
      obtain ⟨b, hb⟩ := h a (by simp)
      rw [ha] at hb
      contradiction

/-- Results are counted by counting their elements. -/
theorem countP_of_mapM {f : α → Except ε β} {l : List α} {r : List β} (h : l.mapM f = .ok r)
    (p : β → Bool) : r.countP p = l.countP fun a => (f a).toOption.any p := by
  have hmap := congrArg (List.countP fun x : Except ε β => x.toOption.any p) (mapM_eq_ok_iff.mp h)
  rw [List.countP_map, List.countP_map] at hmap
  exact hmap.symm

/-- Results are related as their elements are. -/
theorem pairwise_of_mapM {f : α → Except ε β} {l : List α} {r : List β} {R : β → β → Prop}
    (h : l.mapM f = .ok r)
    (hl : l.Pairwise fun a a' => ∀ b b', f a = .ok b → f a' = .ok b' → R b b') : r.Pairwise R := by
  have hmap : (l.map f).Pairwise fun x y => ∀ b b', x = .ok b → y = .ok b' → R b b' :=
    List.pairwise_map.mpr hl
  rw [mapM_eq_ok_iff.mp h] at hmap
  exact (List.pairwise_map.mp hmap).imp fun hR => hR _ _ rfl rfl

end RowIndex
