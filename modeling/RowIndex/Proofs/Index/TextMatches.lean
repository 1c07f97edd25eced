import RowIndex.Proofs.Index.Parity
import RowIndex.Proofs.Text.Analyzers

/-!
# Proofs/Index/TextMatches — when both indexes match a text alike

The scanned index matches a text by the tokens of one analyzer, the inverted one by those of the
other, so each finds the documents with a stored text that shares such a token with the one that is
sought.  Whatever terms documents are removed by, the inverted index has those of the scanned one
(`Covers.follows`).  Where the texts are unambiguous, both find the same of them
(`search_matching`); a word of the greatest length is found by one index only
(`search_longest_word`).
-/

namespace RowIndex

open SearchIndex

/-- Whether two texts share a token of an analyzer. -/
def Text.Share (tokens : String → List String) (text stored : String) : Prop :=
  ∃ token ∈ tokens text, token ∈ tokens stored

/-- In a document that passes the check, the strings of a text field are its texts. -/
theorem Declarations.mem_strings_iff {declared : Declarations} {d : Document}
    (hd : declared.check d = .ok ()) {name : String} {spec : FieldSpec}
    (hspec : declared.find? name = some spec) (hkind : spec.kind = .text) {stored : String} :
    stored ∈ (d.values name).filterMap FieldValue.asString? ↔ .text stored ∈ d.values name := by
  rw [List.mem_filterMap]
  constructor
  · rintro ⟨v, hv, hstring⟩
    have hv' := (kind_of_check hd hspec hv).trans hkind
    cases v with
    | text t => exact Option.some.inj hstring ▸ hv
    | long | double | keyword => contradiction
  · exact fun h => ⟨_, h, rfl⟩

/-- A token of a text is among those of a text field if one of its texts has it. -/
theorem Declarations.exists_share_iff {declared : Declarations} {d : Document}
    (hd : declared.check d = .ok ()) {name : String} {spec : FieldSpec}
    (hspec : declared.find? name = some spec) (hkind : spec.kind = .text)
    (tokens : String → List String) {text : String} :
    (∃ token ∈ tokens text,
        token ∈ ((d.values name).filterMap FieldValue.asString?).flatMap tokens) ↔
      ∃ stored, .text stored ∈ d.values name ∧ Text.Share tokens text stored := by
  simp only [List.mem_flatMap, mem_strings_iff hd hspec hkind]
  constructor
  · rintro ⟨token, htext, stored, hstored, htoken⟩
    exact ⟨stored, hstored, token, htext, htoken⟩
  · rintro ⟨stored, hstored, token, htext, htoken⟩
    exact ⟨token, htext, stored, hstored, htoken⟩

/-- A scanned index with room for all documents finds those that the query and the filter find. -/
theorem ScanIndex.perm_found {ix : ScanIndex} {s : Search}
    (hlimit : ix.documents.length ≤ s.limit) :
    (ix.found s).Perm
      (ix.documents.filter fun d => s.query.finds d && s.filter.all (Query.finds d)) := by
  have hhits : (ix.hits s.query s.filter).map Hit.document =
      ix.documents.filter fun d => s.query.finds d && s.filter.all (Query.finds d) :=
    map_document_hits
  have hsorted : (s.order.sort (ix.hits s.query s.filter)).Perm (ix.hits s.query s.filter) :=
    List.mergeSort_perm _ _
  have hlength : (s.order.sort (ix.hits s.query s.filter)).length ≤ s.limit := by
    rw [hsorted.length_eq, ← List.length_map, hhits]
    exact Nat.le_trans (List.length_filter_le _ _) hlimit
  rw [found, List.take_of_length_le hlength, ← hhits]
  exact hsorted.map _

/-! ## An index that misses no document -/

/-- An inverted index that shows all it was told, and among it the documents of a scanned one. -/
structure Covers (ix : InvertedIndex) (scan : ScanIndex) : Prop where
  holds : ix.Holds scan.declared
  staged_eq : ix.staged = ix.visible
  sublist : scan.documents.Sublist ix.visible

namespace Covers

variable {ix ix' : InvertedIndex} {scan : ScanIndex}

/-- The engine removes no document but those that the term identifies: it may miss some of them. -/
theorem sublist_apply (h : Covers ix scan) {t : Term} {spec : FieldSpec}
    (hspec : scan.declared.find? t.field = some spec) (hkind : spec.kind = .keyword) :
    (scan.without t).Sublist
      (WriterOp.apply ix.visible
        (.deleteTerm spec.bound (FieldValue.keyword t.text).indexTerm)) := by
  have hkept : scan.without t = (scan.without t).filter fun d =>
      !(spec.bound.terms d).contains (FieldValue.keyword t.text).indexTerm := by
    refine (List.filter_eq_self.mpr fun d hd => ?_).symm
    obtain ⟨hd, hterm⟩ := List.mem_filter.mp hd
    rw [Bool.not_eq_true'] at hterm ⊢
    refine Bool.eq_false_iff.mpr fun hcontains => Bool.eq_false_iff.mp hterm ?_
    exact hasTerm_of_contains h.holds.check_visible hspec hkind (h.sublist.subset hd) hcontains
  rw [hkept]
  exact (List.filter_sublist.trans h.sublist).filter _

/-- **A change that the inverted index accepts, the scanned one accepts**, and no document is missed
after it. -/
theorem change (h : Covers ix scan) (hauto : ix.autoCommit = true) {c : Change}
    (hc : SearchIndex.change ix c = .ok ix') :
    ∃ scan', SearchIndex.change scan c = .ok scan' ∧ Covers ix' scan' := by
  obtain ⟨ops, hops, hmoves⟩ := InvertedIndex.exists_of_change hc
  rw [InvertedIndex.publishes, hauto, Bool.true_or] at hmoves
  have hvisible : ix'.visible = ops.foldl WriterOp.apply ix.visible := by
    rw [hmoves.visible_eq, if_pos rfl, hmoves.staged_eq, h.staged_eq]
  have hstaged : ix'.staged = ix'.visible := by rw [hmoves.visible_eq, if_pos rfl]
  have hholds := h.holds.change hc
  cases c with
  | upsert t d =>
    obtain ⟨op, hop, hcheck, rfl⟩ := (InvertedIndex.request_upsert_eq_ok_iff h.holds.serve).mp hops
    obtain ⟨spec, hspec, hkind, rfl⟩ := (InvertedIndex.deletion_eq_ok_iff h.holds.serve).mp hop
    refine ⟨{ scan with documents := scan.without t ++ [d] }, ?_, hholds, hstaged, ?_⟩
    · rw [ScanIndex.change_upsert, hcheck]
      rfl
    · rw [hvisible]
      exact (h.sublist_apply hspec hkind).append (List.Sublist.refl [d])
  | delete t =>
    obtain ⟨op, hop, hops⟩ := bind_eq_ok_iff.mp hops
    obtain rfl := Except.ok.inj hops
    obtain ⟨spec, hspec, hkind, rfl⟩ := (InvertedIndex.deletion_eq_ok_iff h.holds.serve).mp hop
    exact ⟨scan.delete t, rfl, hholds, hstaged, hvisible ▸ h.sublist_apply hspec hkind⟩
  | commit =>
    obtain rfl := Except.ok.inj hops
    exact ⟨scan, rfl, hholds, hstaged, hvisible ▸ h.sublist⟩

/-- An index that commits every change misses no document. -/
theorem follows (h : Covers ix scan) (hauto : ix.autoCommit = true) {changes : List Change}
    (hix : changeAll ix changes = .ok ix') :
    ∃ scan', changeAll scan changes = .ok scan' ∧ Covers ix' scan' := by
  induction changes generalizing ix scan with
  | nil => exact ⟨scan, rfl, Except.ok.inj hix ▸ h⟩
  | cons c rest ih =>
    obtain ⟨ix₁, hc, hrest⟩ := changeAll_cons.mp hix
    obtain ⟨scan₁, hscan₁, hcovers⟩ := h.change hauto hc
    obtain ⟨_, -, hmoves⟩ := InvertedIndex.exists_of_change hc
    obtain ⟨scan', hscan', hcovers'⟩ := ih hcovers (hmoves.agrees.autoCommit.trans hauto) hrest
    exact ⟨scan', changeAll_cons.mpr ⟨scan₁, hscan₁, hscan'⟩, hcovers'⟩

/-- A new index that commits every change misses no document of a scanned one that is given the same
changes. -/
theorem of_changes {settings : Settings} {engine : Engine} {specs : List FieldSpec}
    (hauto : settings.autoCommit = true) {ix₀ : InvertedIndex} {scan₀ : ScanIndex}
    (hopen : InvertedIndex.openWith settings none engine specs = .ok ix₀)
    (hopen' : ScanIndex.ofSpecs specs = .ok scan₀) {changes : List Change}
    (hix : changeAll ix₀ changes = .ok ix) (hscan : changeAll scan₀ changes = .ok scan) :
    Covers ix scan ∧ ∀ spec ∈ specs, scan.declared.find? spec.name = some spec := by
  obtain ⟨scan₀', hscan₀', hmirrors₀⟩ := Mirrors.openWith hopen
  obtain rfl := Except.ok.inj (hopen'.symm.trans hscan₀')
  have hcovers₀ : Covers ix₀ scan₀ :=
    ⟨hmirrors₀.holds, hmirrors₀.staged_eq.trans hmirrors₀.visible_eq.symm,
      hmirrors₀.visible_eq ▸ .refl _⟩
  have hauto₀ : ix₀.autoCommit = true := by
    obtain ⟨-, -, rfl⟩ := InvertedIndex.openWith_eq_ok_iff.mp hopen
    exact hauto
  obtain ⟨scan', hscan', hcovers⟩ := hcovers₀.follows hauto₀ hix
  obtain rfl := Except.ok.inj (hscan.symm.trans hscan')
  obtain ⟨declared, hdeclared, rfl⟩ := map_eq_ok_iff.mp hopen'
  have hsame : scan.declared = declared := ScanIndex.declared_of_changeAll hscan
  exact ⟨hcovers, fun spec hspec => hsame ▸ Declarations.find?_of_ofList hdeclared hspec⟩

end Covers

/-! ## Matches -/

section Matches

variable {declared : Declarations} {field text : String} {spec : FieldSpec}
  (hspec : declared.find? field = some spec) (hkind : spec.kind = .text)

include hspec hkind

/-- The scanned index matches by the tokens of its own analyzer. -/
theorem Query.finds_matching_text_iff {d : Document} (hd : declared.check d = .ok ()) :
    Query.finds d (.matching field text) = true ↔
      ∃ stored, .text stored ∈ d.values field ∧ Text.Share Text.analyze text stored := by
  rw [Query.finds_matching_iff, Declarations.exists_share_iff hd hspec hkind Text.analyze]

/-- A text that is sought in a text field is planned as the tokens of the inverted index. -/
theorem InvertedIndex.Holds.exists_plan_text {ix : InvertedIndex} (h : ix.Holds declared)
    {s : Search} (hquery : s.query = .matching field text) (hfilter : s.filter = none) :
    ∃ plan, Plan.ofSearch ix.bindings s = .ok plan ∧ ∀ d ∈ ix.visible,
      ix.engine.selects plan d = true ↔
        ∃ stored, .text stored ∈ d.values field ∧ Text.Share Text.analyzeIndexed text stored := by
  obtain ⟨plan, hplan, hselects⟩ := Plan.exists_matching ix.engine hkind text
  have hname : spec.name = field := (NameMap.find?_eq_some_iff.mp hspec).2
  have hrequire : ix.bindings.require field = .ok spec.bound :=
    h.serve.require_eq_ok_iff.mpr ⟨spec, hspec, rfl⟩
  refine ⟨plan, ?_, fun d hd => ?_⟩
  · rw [Plan.ofSearch, hquery, hfilter, Plan.ofQuery, hrequire]
    change (Plan.matching spec.bound text >>= fun plan => .ok plan) = _
    rw [hplan]
    rfl
  · rw [hselects, hname,
      Declarations.exists_share_iff (h.check_visible d hd) hspec hkind Text.analyzeIndexed]

end Matches

/-- **Both indexes match unambiguous texts alike.**  The two analyzers give the same tokens of a
text exactly if it is unambiguous.  An inverted index that commits every change and a scanned one
are given the same changes and asked for the same text in a text field, with room for all documents.
Then each finds, of the documents that the scanned index holds, those with a stored text that shares
a token of its own analyzer with the one that is sought, and so both find the same documents among
those whose texts are unambiguous, as the sought one is. -/
theorem search_matching {settings : Settings} {engine : Engine} {specs : List FieldSpec}
    (hauto : settings.autoCommit = true) {ix₀ ix : InvertedIndex} {scan₀ scan : ScanIndex}
    (hopen : InvertedIndex.openWith settings none engine specs = .ok ix₀)
    (hopen' : ScanIndex.ofSpecs specs = .ok scan₀) {changes : List Change}
    (hix : changeAll ix₀ changes = .ok ix) (hscan : changeAll scan₀ changes = .ok scan)
    {spec : FieldSpec} (hspec : spec ∈ specs) (hkind : spec.kind = .text) {sought : String}
    {s : Search} (hquery : s.query = .matching spec.name sought) (hfilter : s.filter = none)
    (hlimit : size ix ≤ s.limit) :
    (∀ text, Text.analyze text = Text.analyzeIndexed text ↔ Text.Unambiguous text) ∧
    ∃ found, ix.best s = .ok found ∧ ∀ d ∈ scan.documents,
      (d ∈ found.map Prod.fst ↔ ∃ stored, .text stored ∈ d.values spec.name ∧
        Text.Share Text.analyzeIndexed sought stored) ∧
      (d ∈ scan.found s ↔ ∃ stored, .text stored ∈ d.values spec.name ∧
        Text.Share Text.analyze sought stored) ∧
      (Text.Unambiguous sought → (∀ stored, .text stored ∈ d.values spec.name →
        Text.Unambiguous stored) → (d ∈ found.map Prod.fst ↔ d ∈ scan.found s)) := by
  obtain ⟨hcovers, hfind⟩ := Covers.of_changes hauto hopen hopen' hix hscan
  obtain ⟨plan, hplan, hselects⟩ :=
    hcovers.holds.exists_plan_text (hfind spec hspec) hkind hquery hfilter
  have hscanLimit : scan.documents.length ≤ s.limit := hcovers.sublist.length_le.trans hlimit
  obtain ⟨found, hbest, hperm⟩ := InvertedIndex.exists_best_of_plan hplan hlimit
  refine ⟨fun text => Text.analyze_eq_analyzeIndexed_iff, found, hbest, fun d hd => ?_⟩
  have hvisible : d ∈ ix.visible := hcovers.sublist.subset hd
  have hinverted : d ∈ found.map Prod.fst ↔ ∃ stored, .text stored ∈ d.values spec.name ∧
      Text.Share Text.analyzeIndexed sought stored := by
    rw [hperm.mem_iff, List.mem_filter, hselects d hvisible]
    exact and_iff_right hvisible
  have hscanned : d ∈ scan.found s ↔ ∃ stored, .text stored ∈ d.values spec.name ∧
      Text.Share Text.analyze sought stored := by
    rw [(ScanIndex.perm_found hscanLimit).mem_iff, List.mem_filter, hquery, hfilter,
      ← Query.finds_matching_text_iff (hfind spec hspec) hkind
        (hcovers.holds.check_visible d hvisible)]
    simp [hd]
  refine ⟨hinverted, hscanned, fun hsought hstored => ?_⟩
  rw [hinverted, hscanned]
  refine exists_congr fun stored => and_congr_right fun h => ?_
  rw [Text.Share, Text.Share, Text.analyze_eq_analyzeIndexed_iff.mpr hsought,
    Text.analyze_eq_analyzeIndexed_iff.mpr (hstored stored h)]

/-- A word written in another case is found among others, a longer one is not. -/
theorem search_matching_of_plain_words :
    let specs : List FieldSpec := [⟨"k", .keyword, true, false⟩, ⟨"bio", .text, false, false⟩]
    let ix₀ := InvertedIndex.created {} .plain specs
    let scan₀ : ScanIndex := { declared := NameMap.ofList specs }
    let d (key bio : String) : Document := ⟨[⟨"k", .keyword key⟩, ⟨"bio", .text bio⟩]⟩
    let changes : List Change :=
      [.upsert ⟨"k", "a"⟩ (d "a" "Rust, go"), .upsert ⟨"k", "b"⟩ (d "b" "rusty")]
    let s : Search := { query := .matching "bio" "RUST", limit := 2 }
    ∃ ix found scan, changeAll ix₀ changes = .ok ix ∧ changeAll scan₀ changes = .ok scan ∧
      ix.best s = .ok found ∧ scan.documents = [d "a" "Rust, go", d "b" "rusty"] ∧
      (d "a" "Rust, go" ∈ found.map Prod.fst ∧ d "a" "Rust, go" ∈ scan.found s) ∧
      d "b" "rusty" ∉ found.map Prod.fst ∧ d "b" "rusty" ∉ scan.found s := by
  intro specs ix₀ scan₀ d changes s
  have hopen : InvertedIndex.openWith {} none .plain specs = .ok ix₀ :=
    InvertedIndex.openWith_eq_ok_iff.mpr ⟨by decide, by decide, rfl⟩
  have hsize : (changeAll ix₀ changes).map size = .ok 2 := by decide +kernel
  obtain ⟨ix, hix, hsize⟩ := map_eq_ok_iff.mp hsize
  let scan : ScanIndex := { scan₀ with documents := [d "a" "Rust, go", d "b" "rusty"] }
  have hscan : changeAll scan₀ changes = .ok scan := rfl
  obtain ⟨-, found, hbest, hfound⟩ := search_matching (s := s) rfl hopen rfl hix hscan
    (List.mem_cons_of_mem _ List.mem_cons_self) rfl rfl rfl hsize.le
  have hplain {text : String} (h : Text.analyze text = Text.analyzeIndexed text) :
      Text.Unambiguous text := Text.analyze_eq_analyzeIndexed_iff.mp h
  have hsought : Text.Unambiguous "RUST" := hplain (by decide +kernel)
  have hstored {key bio : String} (hbio : Text.Unambiguous bio) :
      ∀ stored, .text stored ∈ (d key bio).values "bio" → Text.Unambiguous stored := by
    intro stored hstored
    obtain rfl : stored = bio := by simpa [d, Document.values] using hstored
    exact hbio
  obtain ⟨-, hscanned, hsame⟩ := hfound (d "a" "Rust, go") List.mem_cons_self
  have ha := hscanned.mpr ⟨"Rust, go", by decide, "rust", by decide +kernel, by decide +kernel⟩
  obtain ⟨-, hscanned', hsame'⟩ :=
    hfound (d "b" "rusty") (List.mem_cons_of_mem _ List.mem_cons_self)
  have hb : d "b" "rusty" ∉ scan.found s := by
    rw [hscanned']
    rintro ⟨stored, hmem, token, htext, htoken⟩
    obtain rfl : stored = "rusty" := by simpa [d, Document.values] using hmem
    rw [show Text.analyze "RUST" = ["rust"] by decide +kernel, List.mem_singleton] at htext
    rw [show Text.analyze "rusty" = ["rusty"] by decide +kernel, List.mem_singleton] at htoken
    exact absurd (htext.symm.trans htoken) (by decide)
  exact ⟨ix, found, _, hix, hscan, hbest, rfl,
    ⟨(hsame hsought (hstored (hplain (by decide +kernel)))).mpr ha, ha⟩,
    fun h => hb ((hsame' hsought (hstored (hplain (by decide +kernel)))).mp h), hb⟩

/-- **A word of the greatest length is kept by one analyzer only**, and one that ends in a capital
sigma is lower-cased differently; so a text of such a word is not found by itself, or by its own
lower-case form, in both indexes. -/
theorem search_longest_word :
    let specs : List FieldSpec := [⟨"k", .keyword, true, false⟩, ⟨"bio", .text, false, false⟩]
    let ix₀ := InvertedIndex.created {} .plain specs
    let scan₀ : ScanIndex := { declared := NameMap.ofList specs }
    let longest := String.ofList (List.replicate 40 'a')
    let d : Document := ⟨[⟨"k", .keyword "a"⟩, ⟨"bio", .text longest⟩]⟩
    let changes : List Change := [.upsert ⟨"k", "a"⟩ d]
    let s : Search := { query := .matching "bio" longest, limit := 1 }
    (Text.analyze longest = [longest] ∧ Text.analyzeIndexed longest = []) ∧
      (Text.analyze "ΟΔΟΣ" = ["οδος"] ∧ Text.analyzeIndexed "ΟΔΟΣ" = ["οδοσ"]) ∧
      ∃ ix scan, changeAll ix₀ changes = .ok ix ∧ changeAll scan₀ changes = .ok scan ∧
        ix.best s = .ok [] ∧ scan.found s = [d] := by
  intro specs ix₀ scan₀ longest d changes s
  have hopen : InvertedIndex.openWith {} none .plain specs = .ok ix₀ :=
    InvertedIndex.openWith_eq_ok_iff.mpr ⟨by decide, by decide, rfl⟩
  have hsize : (changeAll ix₀ changes).map size = .ok 1 := by decide +kernel
  obtain ⟨ix, hix, hsize⟩ := map_eq_ok_iff.mp hsize
  let scan : ScanIndex := { scan₀ with documents := [d] }
  have hscan : changeAll scan₀ changes = .ok scan := rfl
  obtain ⟨hcovers, hfind⟩ := Covers.of_changes rfl hopen rfl hix hscan
  have hdropped : Text.analyzeIndexed longest = [] := by decide +kernel
  refine ⟨⟨by decide +kernel, hdropped⟩, by decide +kernel, ix, scan, hix, hscan, ?_, ?_⟩
  · obtain ⟨plan, hplan, hselects⟩ := hcovers.holds.exists_plan_text (s := s)
      (hfind ⟨"bio", .text, false, false⟩ (List.mem_cons_of_mem _ List.mem_cons_self)) rfl rfl rfl
    obtain ⟨found, hbest, hperm⟩ := InvertedIndex.exists_best_of_plan hplan hsize.le
    have hnone : ix.visible.filter (ix.engine.selects plan) = [] := by
      refine List.filter_eq_nil_iff.mpr fun e he hselected => ?_
      obtain ⟨_, _, token, htoken, _⟩ := (hselects e he).mp hselected
      exact List.not_mem_nil (hdropped ▸ htoken)
    rw [hnone, List.perm_nil, List.map_eq_nil_iff] at hperm
    exact hperm ▸ hbest
  · have hlimit : scan.documents.length ≤ s.limit := Nat.le_refl 1
    have hperm := ScanIndex.perm_found hlimit
    have hself :
        scan.documents.filter (fun e => s.query.finds e && s.filter.all (Query.finds e)) = [d] := by
      decide +kernel
    exact List.perm_singleton.mp (hself ▸ hperm)

end RowIndex
