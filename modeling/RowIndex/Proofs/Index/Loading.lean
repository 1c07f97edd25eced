import RowIndex.Proofs.Index.BestHits
import RowIndex.Proofs.Index.InvertedHits
import RowIndex.Proofs.Index.Mirrors

/-!
# Proofs/Index/Loading — what a hit carries of its document

    scanned    document ──asked for, stored──────────────▸ hit
                  ‖
    inverted   document ──asked for, stored or sortable──▸ hit

The scanned index cuts a document down to the fields that are declared as stored; the inverted index
has what its engine holds, which are the sortable fields as well, so that hits can be ordered again.
Every index that was created for a list of declarations, changed and opened again holds documents
that passed the check, whatever fails in its engine (`InvertedIndex.Arises.regular`), and of these
it loads all values of a field in their order, or none (`InvertedIndex.Regular.values_of_returns`).
So hits for one document carry the same values, except for fields that are sortable and not stored
(`hits_carry_declared`).
-/

namespace RowIndex

open SearchIndex

/-! ## Documents cut down -/

namespace Document

variable {specs : List FieldSpec} {load : NameSet} {d : Document}

/-- The fields of a document that are asked for and declared with a property, in their order. -/
def selected (p : FieldSpec → Bool) (specs : List FieldSpec) (load : NameSet) (d : Document) :
    Document :=
  ⟨d.fields.filter fun f => load.contains f.name &&
    specs.any fun spec => spec.name == f.name && p spec⟩

/-- The fields of a document that are asked for and declared as stored or sortable. -/
def kept (specs : List FieldSpec) (load : NameSet) (d : Document) : Document :=
  d.selected (fun spec => spec.stored || spec.sortable) specs load

theorem carried_eq_selected : d.carried specs load = d.selected (·.stored) specs load := rfl

theorem values_selected (p : FieldSpec → Bool) (name : String) :
    (d.selected p specs load).values name =
      if load.contains name && specs.any fun spec => spec.name == name && p spec
      then d.values name else [] :=
  d.values_filter (fun name => load.contains name &&
    specs.any fun spec => spec.name == name && p spec) name

/-- **What is kept is what is declared as stored**, unless the document has values of a field that
is asked for and sortable but not stored. -/
theorem values_kept_eq_carried_iff (hnames : (specs.map FieldSpec.name).Nodup) :
    (∀ name, (d.kept specs load).values name = (d.carried specs load).values name) ↔
      ∀ spec ∈ specs, spec.sortable = true → spec.stored = false →
        load.contains spec.name = true → d.values spec.name = [] := by
  constructor
  · intro h spec hspec hsortable hstored hload
    have hkept : (specs.any fun other =>
        other.name == spec.name && (other.stored || other.sortable)) = true :=
      List.any_eq_true.mpr ⟨spec, hspec, by simp [hsortable]⟩
    have hcarried : (specs.any fun other => other.name == spec.name && other.stored) = false := by
      refine List.any_eq_false.mpr fun other hother hsame => ?_
      obtain ⟨hname, hother'⟩ := Bool.and_eq_true_iff.mp hsame
      obtain rfl := List.inj_on_of_nodup_map hnames hother hspec (beq_iff_eq.mp hname)
      exact absurd (hother'.symm.trans hstored) (by decide)
    have hvalues := h spec.name
    rwa [kept, carried_eq_selected, values_selected, values_selected, hload, hkept, hcarried]
      at hvalues
  · intro h name
    rw [kept, carried_eq_selected, values_selected, values_selected]
    cases hload : load.contains name with
    | false => rfl
    | true =>
      by_cases hstored : (specs.any fun spec => spec.name == name && spec.stored) = true
      · obtain ⟨spec, hspec, hsame⟩ := List.any_eq_true.mp hstored
        obtain ⟨hname, hspec'⟩ := Bool.and_eq_true_iff.mp hsame
        rw [hstored, List.any_eq_true.mpr ⟨spec, hspec, by simp [hname, hspec']⟩]
      · rw [Bool.eq_false_iff.mpr hstored, Bool.true_and, Bool.true_and, if_neg Bool.false_ne_true]
        split
        · rename_i hkept
          obtain ⟨spec, hspec, hsame⟩ := List.any_eq_true.mp hkept
          obtain ⟨hname, hspec'⟩ := Bool.and_eq_true_iff.mp hsame
          obtain rfl := beq_iff_eq.mp hname
          have hunstored : spec.stored = false := by
            refine Bool.eq_false_iff.mpr fun hspec'' => hstored ?_
            exact List.any_eq_true.mpr ⟨spec, hspec, by simp [hspec'']⟩
          rw [hunstored, Bool.false_or] at hspec'
          exact h spec hspec hspec' hunstored hload
        · rfl

end Document

/-! ## Indexes that arise -/

namespace InvertedIndex

/-- The indexes that arise for a list of declarations: they were created for it, changed, and closed
and opened again, in any order and any number of times. -/
inductive Arises (specs : List FieldSpec) : InvertedIndex → Prop
  | create {settings : Settings} {engine : Engine} {ix : InvertedIndex}
    (h : openWith settings none engine specs = .ok ix) : Arises specs ix
  | attempt {ix : InvertedIndex} (h : Arises specs ix) (c : Change) : Arises specs (attempt ix c)
  | reopen {ix ix' : InvertedIndex} {settings : Settings} {engine : Engine}
    (h : Arises specs ix) (hopen : openWith settings (some ix.close) engine specs = .ok ix') :
    Arises specs ix'

variable {specs : List FieldSpec} {ix : InvertedIndex}

/-- An index is opened again only if the writer can have its memory. -/
theorem ramBufferBytes_lt_of_openWith {settings : Settings} {archive : Archive} {engine : Engine}
    (h : openWith settings (some archive) engine specs = .ok ix) :
    settings.ramBufferBytes < writerLimit := by
  obtain ⟨⟨layout, bindings⟩, -, h⟩ := bind_eq_ok_iff.mp h
  obtain ⟨bindings', -, h⟩ := bind_eq_ok_iff.mp h
  obtain ⟨ix', -, h⟩ := bind_eq_ok_iff.mp h
  split at h
  · assumption
  · contradiction

/-- What holds of every index that arises for a list of declarations: their names differ, it has the
layout that was made for them, and what it holds passed their check. -/
structure Regular (specs : List FieldSpec) (ix : InvertedIndex) : Prop where
  nodup : (specs.map FieldSpec.name).Nodup
  layout : ix.layout = .ofList (specs.map FieldSpec.layout)
  holds : ix.Holds (NameMap.ofList specs)

/-- An index is created regular. -/
theorem regular_of_openWith {settings : Settings} {engine : Engine}
    (h : openWith settings none engine specs = .ok ix) : Regular specs ix := by
  obtain ⟨hnodup, -, rfl⟩ := openWith_eq_ok_iff.mp h
  exact ⟨hnodup, rfl, holds_holding settings engine specs nofun⟩

/-- A change keeps an index regular, whether it succeeds or fails. -/
theorem Regular.attempt (h : Regular specs ix) (c : Change) :
    Regular specs (SearchIndex.attempt ix c) := by
  obtain ⟨_, _, hmoves, -⟩ := ix.exists_moves_attempt c
  exact ⟨h.nodup, hmoves.agrees.layout.trans h.layout, h.holds.attempt c⟩

/-- An index that is closed and opened again stays regular. -/
theorem Regular.reopen {ix' : InvertedIndex} {settings : Settings} {engine : Engine}
    (h : Regular specs ix) (hopen : openWith settings (some ix.close) engine specs = .ok ix') :
    Regular specs ix' := by
  have hbudget := ramBufferBytes_lt_of_openWith hopen
  rw [close, h.layout, openWith_archive h.nodup hbudget] at hopen
  obtain rfl := Except.ok.inj hopen
  exact ⟨h.nodup, rfl, holds_holding settings engine specs h.holds.check_committed⟩

/-- **Every index that arises is regular.** -/
theorem Arises.regular (h : Arises specs ix) : Regular specs ix := by
  induction h with
  | create h => exact regular_of_openWith h
  | attempt _ c ih => exact ih.attempt c
  | reopen _ hopen ih => exact ih.reopen hopen

/-! ## Hits of the inverted index -/

/-- A search returns a hit for a document. -/
def Returns (ix : InvertedIndex) (s : Search) (d : Document) (hit : Hit) : Prop :=
  ∃ found, ix.best s = .ok found ∧ ∃ f ∈ found, f.1 = d ∧
    { f.2 with document := f.2.document.project s.load } = hit

/-- What a search returns are hits for documents. -/
theorem mem_search_iff {s : Search} {hits : List Hit} (h : SearchIndex.search ix s = .ok hits)
    {hit : Hit} : hit ∈ hits ↔ ∃ d, ix.Returns s d hit := by
  obtain ⟨found, hbest, hhits⟩ := bind_eq_ok_iff.mp h
  obtain rfl := Except.ok.inj hhits
  rw [List.mem_map]
  constructor
  · rintro ⟨f, hf, hcarries⟩
    exact ⟨f.1, found, hbest, f, hf, rfl, hcarries⟩
  · rintro ⟨_, found', hbest', f, hf, rfl, hcarries⟩
    obtain rfl := Except.ok.inj (hbest.symm.trans hbest')
    exact ⟨f, hf, hcarries⟩

/-- **Each field of a regular index is loaded as a whole or not at all**: it is loaded if it is
asked for and declared as stored or sortable. -/
theorem Regular.values_of_returns (h : Regular specs ix) {s : Search} {d : Document} {hit : Hit}
    (hreturns : ix.Returns s d hit) (name : String) :
    hit.document.values name = (d.kept specs s.load).values name := by
  obtain ⟨found, hbest, f, hf, rfl, rfl⟩ := hreturns
  obtain ⟨hmem, hloaded⟩ := mem_of_best hbest hf
  have hany := Declarations.any_find? (Declarations.ofList_eq_ok_iff.mpr ⟨h.nodup, rfl⟩)
    (fun spec => spec.stored || spec.sortable) name
  change (f.2.document.project s.load).values name = _
  rw [hloaded, Document.values_project, Document.kept, Document.values_selected, ← hany]
  cases hload : s.load.contains name with
  | false => rfl
  | true =>
    have hneeded : name ∈ (needed s).entries := by
      obtain ⟨other, hother⟩ := Option.isSome_iff_exists.mp hload
      obtain ⟨hasked, rfl⟩ := NameMap.find?_eq_some_iff.mp hother
      exact mem_needed.mpr (.inr hasked)
    rw [loadFields, Document.values_flatMap fun _ _ => name_of_mem_loadField h.holds.serve,
      if_pos rfl, if_pos hneeded, Bool.true_and]
    cases hspec : (NameMap.ofList specs).find? name with
    | none =>
      rw [loadField, h.holds.serve name, hspec]
      rfl
    | some spec => exact map_value_loadField h.holds.serve (h.holds.check_visible f.1 hmem) hspec

/-- Every document that searches see is found by a search, whatever it loads. -/
theorem exists_returns (load : NameSet) {d : Document} (hd : d ∈ ix.visible) :
    ∃ s hit, s.load = load ∧ ix.Returns s d hit := by
  let s : Search := { query := .all, load, limit := ix.visible.length }
  obtain ⟨found, hbest, hperm⟩ :=
    exists_best_all (s := s) rfl rfl (Nat.le_refl ix.visible.length)
  obtain ⟨f, hf, rfl⟩ := List.mem_map.mp (hperm.mem_iff.mpr hd)
  exact ⟨_, _, rfl, found, hbest, f, hf, rfl, rfl⟩

end InvertedIndex

/-! ## Hits of the scanned index -/

namespace ScanIndex

variable {specs : List FieldSpec} {ix : ScanIndex}

/-- A search returns a hit for a document. -/
def Returns (ix : ScanIndex) (s : Search) (d : Document) (hit : Hit) : Prop :=
  ∃ best ∈ (ix.ranking s.query s.filter s.order).take s.limit, best.document = d ∧
    { best with document := best.document.project (ix.loadable s.load) } = hit

/-- What a search returns are hits for documents. -/
theorem mem_search_iff {s : Search} {hits : List Hit} (h : SearchIndex.search ix s = .ok hits)
    {hit : Hit} : hit ∈ hits ↔ ∃ d, ix.Returns s d hit := by
  obtain rfl := Except.ok.inj h
  rw [search_eq, List.mem_map]
  constructor
  · rintro ⟨best, hbest, hcarries⟩
    exact ⟨best.document, best, hbest, rfl, hcarries⟩
  · rintro ⟨_, best, hbest, rfl, hcarries⟩
    exact ⟨best, hbest, hcarries⟩

/-- **A hit carries the fields of its document that are asked for and declared as stored.** -/
theorem document_of_returns (h : Declarations.ofList specs = .ok ix.declared) {s : Search}
    {d : Document} {hit : Hit} (hreturns : ix.Returns s d hit) :
    hit.document = d.carried specs s.load := by
  obtain ⟨best, -, rfl, rfl⟩ := hreturns
  exact Document.project_loadable h s.load best.document

/-- Every document is found by a search, whatever it loads. -/
theorem exists_returns (load : NameSet) {d : Document} (hd : d ∈ ix.documents) :
    ∃ s hit, s.load = load ∧ ix.Returns s d hit := by
  let s : Search := { query := .all, load, limit := (ix.ranking .all none {}).length }
  have hhit : (⟨d, Binary.one⟩ : Hit) ∈ ix.hits .all none :=
    mem_hits.mpr ⟨hd, rfl, by rw [Query.score]⟩
  refine ⟨s, _, rfl, ⟨d, Binary.one⟩, ?_, rfl, rfl⟩
  rw [List.take_length]
  exact List.mem_mergeSort.mpr hhit

end ScanIndex

/-- **What a hit carries is declared.**  Take an inverted index that arises for a list of
declarations, by creating, changing and reopening it, and a scanned one for the same declarations
after any changes.  Every hit of a search is one for a document, and each document is returned by
some search, whatever is asked for.  A hit of the scanned index carries the fields of its document
that are asked for and declared as stored, and nothing else.  A hit of the inverted index carries,
under every name, the values of its document in their order if the field is asked for and declared
as stored or sortable, and none if not.  So the two carry the same for a document exactly if it has
no values of a field that is asked for and sortable but not stored. -/
theorem hits_carry_declared {specs : List FieldSpec} {ix : InvertedIndex} {scan₀ : ScanIndex}
    (hix : InvertedIndex.Arises specs ix) (hscan : ScanIndex.ofSpecs specs = .ok scan₀)
    (changes : List Change) (load : NameSet) :
    let scan := attempts scan₀ changes
    ((∀ s hits, search ix s = .ok hits → ∀ hit, hit ∈ hits ↔ ∃ d, ix.Returns s d hit) ∧
      ∀ d ∈ ix.visible, ∃ s hit, s.load = load ∧ ix.Returns s d hit) ∧
    ((∀ s hits, search scan s = .ok hits → ∀ hit, hit ∈ hits ↔ ∃ d, scan.Returns s d hit) ∧
      ∀ d ∈ scan.documents, ∃ s hit, s.load = load ∧ scan.Returns s d hit) ∧
    (∀ s d hit, s.load = load → scan.Returns s d hit → hit.document = d.carried specs load) ∧
    (∀ s d hit, s.load = load → ix.Returns s d hit →
      ∀ name, hit.document.values name = (d.kept specs load).values name) ∧
    ∀ s s' d hit hit', s.load = load → s'.load = load → ix.Returns s d hit →
      scan.Returns s' d hit' →
      ((∀ name, hit.document.values name = hit'.document.values name) ↔
        ∀ spec ∈ specs, spec.sortable = true → spec.stored = false →
          load.contains spec.name = true → d.values spec.name = []) := by
  intro scan
  have hregular := hix.regular
  obtain ⟨declared, hdeclared, rfl⟩ := map_eq_ok_iff.mp hscan
  have hsame : scan.declared = declared :=
    congrArg ScanIndex.declared (ScanIndex.attempts_eq _ changes)
  have hscanned : Declarations.ofList specs = .ok scan.declared := hsame ▸ hdeclared
  have hcarried (s : Search) (d : Document) (hit : Hit) (hload : s.load = load)
      (hreturns : scan.Returns s d hit) : hit.document = d.carried specs load :=
    hload ▸ ScanIndex.document_of_returns hscanned hreturns
  have hkept (s : Search) (d : Document) (hit : Hit) (hload : s.load = load)
      (hreturns : ix.Returns s d hit) (name : String) :
      hit.document.values name = (d.kept specs load).values name :=
    hload ▸ hregular.values_of_returns hreturns name
  refine ⟨⟨fun s hits h hit => InvertedIndex.mem_search_iff h,
      fun d => InvertedIndex.exists_returns load⟩,
    ⟨fun s hits h hit => ScanIndex.mem_search_iff h, fun d => ScanIndex.exists_returns load⟩,
    hcarried, hkept, fun s s' d hit hit' hload hload' hreturns hreturns' => ?_⟩
  rw [← Document.values_kept_eq_carried_iff hregular.nodup, hcarried s' d hit' hload' hreturns']
  simp only [hkept s d hit hload hreturns]

/-- A document with repeated values, in an index that was opened again: both hits carry the stored
text as often as the document has it, and the inverted index the sortable number as well. -/
theorem hits_carry_declared_of_repeated_values :
    let specs : List FieldSpec :=
      [⟨"k", .keyword, false, false⟩, ⟨"n", .long, false, true⟩, ⟨"bio", .text, true, false⟩]
    let d : Document :=
      ⟨[⟨"bio", .text "go"⟩, ⟨"k", .keyword "a"⟩, ⟨"n", .long 7⟩, ⟨"bio", .text "go"⟩]⟩
    let load : NameSet := .ofList ["n", "k", "bio", "none"]
    ∃ (ix : InvertedIndex) (scan₀ : ScanIndex) (s s' : Search) (hit hit' : Hit),
      InvertedIndex.Arises specs ix ∧ ScanIndex.ofSpecs specs = .ok scan₀ ∧ s.load = load ∧
      s'.load = load ∧ ix.Returns s d hit ∧
      (attempts scan₀ [.upsert ⟨"k", "a"⟩ d]).Returns s' d hit' ∧
      hit.document.values "bio" = [.text "go", .text "go"] ∧
      hit'.document = ⟨[⟨"bio", .text "go"⟩, ⟨"bio", .text "go"⟩]⟩ ∧
      hit.document.values "n" = [.long 7] ∧ hit.document.values "k" = [] ∧
      ¬∀ name, hit.document.values name = hit'.document.values name := by
  intro specs d load
  let created := InvertedIndex.created {} .plain specs
  let ix := attempt created (.upsert ⟨"k", "a"⟩ d)
  let again := created.holding [d]
  have hcreated : InvertedIndex.openWith {} none .plain specs =
      .ok created := InvertedIndex.openWith_eq_ok_iff.mpr ⟨by decide, by decide, rfl⟩
  have hagain : InvertedIndex.openWith {} (some ix.close) .plain specs =
      .ok again := InvertedIndex.openWith_archive (by decide) (by decide) [d]
  have harises : InvertedIndex.Arises specs again :=
    .reopen (.attempt (.create hcreated) _) hagain
  have hscan : ScanIndex.ofSpecs specs = .ok { declared := NameMap.ofList specs } := rfl
  obtain ⟨⟨-, hfound⟩, ⟨-, hfound'⟩, hcarried, hkept, hsame⟩ :=
    hits_carry_declared harises hscan [.upsert ⟨"k", "a"⟩ d] load
  obtain ⟨s, hit, hload, hreturns⟩ := hfound d List.mem_cons_self
  obtain ⟨s', hit', hload', hreturns'⟩ := hfound' d List.mem_cons_self
  have hvalues := hkept s d hit hload hreturns
  refine ⟨again, _, s, s', hit, hit', harises, hscan, hload, hload', hreturns, hreturns', ?_, ?_,
    ?_, ?_, ?_⟩
  · rw [hvalues]
    decide +kernel
  · rw [hcarried s' d hit' hload' hreturns']
    decide +kernel
  · rw [hvalues]
    decide +kernel
  · rw [hvalues]
    decide +kernel
  · rw [hsame s s' d hit hit' hload hload' hreturns hreturns']
    intro h
    exact absurd (h ⟨"n", .long, false, true⟩ (by decide) rfl rfl (by decide +kernel))
      (by decide +kernel)

/-- **A hit of the inverted index carries a field that is not declared as stored.**  The number can
be ordered by, and so it is loaded where it is asked for; a hit of the scanned index for the same
document does not carry it. -/
theorem search_loads_sortable :
    let specs : List FieldSpec := [⟨"k", .keyword, true, false⟩, ⟨"n", .long, false, true⟩]
    let d : Document := ⟨[⟨"k", .keyword "a"⟩, ⟨"n", .long 7⟩]⟩
    let changes : List Change := [.upsert ⟨"k", "a"⟩ d]
    let s : Search := { query := .all, load := .ofList ["n"], limit := 10 }
    ∃ (ix₀ ix : InvertedIndex) (scan₀ scan : ScanIndex) (hit hit' : Hit),
      InvertedIndex.openWith {} none .plain specs = .ok ix₀ ∧
      ScanIndex.ofSpecs specs = .ok scan₀ ∧ changeAll ix₀ changes = .ok ix ∧
      changeAll scan₀ changes = .ok scan ∧ search ix s = .ok [hit] ∧ search scan s = .ok [hit'] ∧
      (∀ spec ∈ specs, spec.name = "n" → spec.stored = false) ∧
      hit.document = ⟨[⟨"n", .long 7⟩]⟩ ∧ hit'.document = ⟨[]⟩ := by
  intro specs d changes s
  let created := InvertedIndex.created {} .plain specs
  let ix : InvertedIndex := { created.holding [d] with calls := 3 }
  let scan : ScanIndex := ⟨NameMap.ofList specs, [d]⟩
  have hcreated : InvertedIndex.openWith {} none .plain specs =
      .ok created := InvertedIndex.openWith_eq_ok_iff.mpr ⟨by decide, by decide, rfl⟩
  obtain ⟨found, hbest, hperm⟩ :=
    InvertedIndex.exists_best_all rfl rfl (by decide : ix.visible.length ≤ s.limit)
  obtain ⟨f, rfl, hf⟩ := List.map_eq_singleton_iff.mp (List.perm_singleton.mp hperm)
  obtain ⟨-, hloaded⟩ := InvertedIndex.mem_of_best hbest List.mem_cons_self
  have hhits : scan.hits .all none = [⟨d, Binary.one⟩] := by decide +kernel
  have hsearch : search scan s = .ok [⟨⟨[]⟩, Binary.one⟩] := by
    refine congrArg Except.ok ?_
    rw [ScanIndex.search_eq, ScanIndex.ranking, SortOrder.sort, hhits, List.mergeSort_singleton]
    decide +kernel
  refine ⟨created, ix, { declared := NameMap.ofList specs }, scan, _, _, hcreated, rfl, rfl, rfl,
    InvertedIndex.search_of_best hbest, hsearch, by decide, ?_, rfl⟩
  change f.2.document.project s.load = _
  rw [hloaded, hf]
  decide +kernel

end RowIndex
