import RowIndex.Proofs.Query.Meaning
import RowIndex.Proofs.Schema.Queries
import RowIndex.Proofs.Service.ReplicaSearch

/-!
# Proofs/Service/MappedQueries — what a schema asks, and what both indexes answer

A schema makes queries of values, of bounds and of texts, for fields of four kinds.  A service and
its replica answer them with rows of the same keys (`search_mapped`), except where their indexes are
made differently:

    query                    scanned                     inverted
    bounds of texts          rows between them           refused
    a text among keywords    rows that share a token     rows of the whole text
    a text among numbers     no rows                     refused

This needs documents and keys whose terms the engine takes in.
-/

namespace RowIndex

open SearchIndex

namespace Query

/-! ## What is found -/

/-- A range without bounds finds the documents that have a value. -/
theorem finds_unbounded_iff {d : Document} {field : String} :
    finds d (.range field .unbounded .unbounded) = true ↔ d.values field ≠ [] := by
  rw [finds_range_iff]
  refine ⟨fun ⟨v, hv, _⟩ => List.ne_nil_of_mem hv, fun h => ?_⟩
  obtain ⟨v, hv⟩ := List.exists_mem_of_ne_nil _ h
  exact ⟨v, hv, trivial, trivial⟩

/-- A token that is sought among keywords that are tokens is one of them. -/
theorem finds_matching_keyword {d : Document} {field text : String}
    (hkind : ∀ v ∈ d.values field, v.kind = .keyword)
    (hplain : ∀ stored, .keyword stored ∈ d.values field → Text.analyze stored = [stored])
    (htext : Text.analyze text = [text]) :
    finds d (.matching field text) = finds d (.term field (.keyword text)) := by
  rw [Bool.eq_iff_iff, finds_matching_iff, finds_term_iff, htext]
  simp only [List.mem_singleton, exists_eq_left, List.mem_flatMap, List.mem_filterMap]
  constructor
  · rintro ⟨stored, ⟨v, hv, hstring⟩, htoken⟩
    have hkeyword := hkind v hv
    cases v with
    | keyword other =>
      obtain rfl := Option.some.inj hstring
      rw [hplain _ hv, List.mem_singleton] at htoken
      exact htoken ▸ hv
    | long | double | text => contradiction
  · intro hmem
    exact ⟨text, ⟨_, hmem, rfl⟩, htext ▸ List.mem_singleton_self text⟩

/-- No text is found among numbers. -/
theorem finds_matching_number {d : Document} {field text : String}
    (hkind : ∀ v ∈ d.values field, v.kind = .long ∨ v.kind = .double) :
    finds d (.matching field text) = false := by
  refine Bool.eq_false_iff.mpr fun h => ?_
  obtain ⟨token, -, htoken⟩ := finds_matching_iff.mp h
  obtain ⟨stored, hstored, -⟩ := List.mem_flatMap.mp htoken
  obtain ⟨v, hv, hstring⟩ := List.mem_filterMap.mp hstored
  cases v with
  | long | double => contradiction
  | keyword | text => exact absurd (hkind _ hv) nofun

end Query

namespace Service

/-! ## What is answered -/

/-- Both analyzers find the same tokens in the texts that a field holds. -/
def PlainTexts (s : Service ScanIndex) (field : String) : Prop :=
  ∀ d ∈ s.index.documents, ∀ text, .text text ∈ d.values field → Text.SameTokens text

/-- Every keyword that a field holds is a single token. -/
def PlainKeywords (s : Service ScanIndex) (field : String) : Prop :=
  ∀ d ∈ s.index.documents, ∀ text, .keyword text ∈ d.values field → Text.analyze text = [text]

/-- The answers of a service and of its replica to the queries on a mapped field. -/
structure Answers (s : Service ScanIndex) (field : String) (m : Mapper) (limit : Nat)
    (found found' : Query → Except Error (List Row)) : Prop where
  /-- The service answers every query. -/
  answered : ∀ q, ∃ rows, found q = .ok rows
  /-- A value is found by both; a text is sought by its tokens. -/
  value : ∀ raw q, s.schema.termQuery field raw = .ok q → (∃ rows, found' q = .ok rows) ∧
    ((m.kind = .text → s.PlainTexts field ∧ ∀ text, raw = .text text → Text.SameTokens text) →
      s.Alike limit (found q) (found' q))
  /-- So are the values between two bounds, or on one side of a bound. -/
  bounds : ∀ lower upper includeLower includeUpper q,
    s.schema.rangeQuery field lower upper includeLower includeUpper = .ok q →
    (lower.or upper).isSome = true → m.kind ≠ .text → s.Alike limit (found q) (found' q)
  /-- Bounds of texts are refused by the replica. -/
  text_bounds : ∀ lower upper includeLower includeUpper text q,
    s.schema.rangeQuery field lower upper includeLower includeUpper = .ok q → m.kind = .text →
    lower.or upper = some (.text text) → found' q = s.refused limit (.unusableTerm text .text)
  /-- Without bounds both find all documents, if each has a value. -/
  no_bounds : ∀ includeLower includeUpper q,
    s.schema.rangeQuery field none none includeLower includeUpper = .ok q →
    (∃ rows, found' q = .ok rows) ∧
      ((∀ d ∈ s.index.documents, d.values field ≠ []) → s.Alike limit (found q) (found' q))
  /-- Texts are matched by both. -/
  text : ∀ text q, s.schema.matchQuery field text = .ok q → m.kind = .text →
    (∃ rows, found' q = .ok rows) ∧
      (s.PlainTexts field → Text.SameTokens text → s.Alike limit (found q) (found' q))
  /-- Among keywords the replica looks for the whole text. -/
  keyword : ∀ text q, s.schema.matchQuery field text = .ok q → m.kind = .keyword →
    s.Alike limit (found (.term field (.keyword text))) (found' q) ∧
      (s.PlainKeywords field → Text.analyze text = [text] → s.Alike limit (found q) (found' q))
  /-- Among numbers the service finds no text, and the replica refuses to look. -/
  number : ∀ text q, s.schema.matchQuery field text = .ok q → m.kind = .long ∨ m.kind = .double →
    found q = .ok [] ∧ found' q = s.refused limit (.notAnalyzed field)

/-- A mapped field is declared as its mapper says. -/
theorem Opened.find?_mapped {s : Service ScanIndex} (hs : s.Opened) {field : String} {m : Mapper}
    (hm : s.schema.mapper? field = some m) :
    s.index.declared.find? field = some (m.spec field) := by
  obtain ⟨f, hf, rfl⟩ := Option.map_eq_some_iff.mp hm
  obtain ⟨hmem, rfl⟩ := NameMap.find?_eq_some_iff.mp hf
  exact Declarations.find?_of_ofList hs.declared
    (List.mem_cons_of_mem _ (List.mem_cons_of_mem _ (List.mem_map_of_mem hmem)))

section Answers

variable {s : Service ScanIndex} {s' : Service InvertedIndex} (h : Replica s s') (hs : s.Sound)
  {field : String} {m : Mapper} (hm : s.schema.mapper? field = some m)
  (hfits : ∀ d ∈ s.index.documents, d.Fits)

namespace Replica

include h hs hm

/-! ## What is planned -/

include hfits

/-- A value of the mapper's kind is planned as itself. -/
theorem planned_term (hkind : m.kind ≠ .text) {v : FieldValue} (hv : v.kind = m.kind) :
    (Query.term field v).PlannedAs s'.index.engine s'.index.bindings s.index.documents
      (.term field v) := by
  refine Query.exists_plan h.mirrors.serve h.mirrors.check_visible hfits ?_
  rw [Query.Portable]
  exact ⟨m.spec field, hs.find?_mapped hm, hkind, hv⟩

/-- Bounds of the mapper's kind are planned as themselves, if there are any. -/
theorem planned_range (hkind : m.kind ≠ .text) {low high : Bound FieldValue}
    (hlow : low.OfKind m.kind) (hhigh : high.OfKind m.kind)
    (hvalue : (low.value?.or high.value?).isSome = true) :
    (Query.range field low high).PlannedAs s'.index.engine s'.index.bindings s.index.documents
      (.range field low high) := by
  have hopen : Bound.bothOpen low high = false := by
    cases low <;> cases high <;> first | rfl | contradiction
  refine Query.exists_plan h.mirrors.serve h.mirrors.check_visible hfits ?_
  rw [Query.Portable]
  exact ⟨m.spec field, hs.find?_mapped hm, hkind, hlow, hhigh, hopen⟩

omit hfits

/-- A text has a plan. -/
theorem exists_plan_text (hkind : m.kind = .text) (text : String) :
    ∃ plan, Plan.ofQuery s'.index.bindings ((Query.matching field text).boosted m.boost) =
      .ok plan := by
  have hrequire : s'.index.bindings.require field = .ok (m.spec field).bound :=
    h.mirrors.serve.require_eq_ok_iff.mpr ⟨_, hs.find?_mapped hm, rfl⟩
  have hspec : (m.spec field).kind = .text := hkind
  obtain ⟨plan, hplan, -⟩ := Plan.exists_matching s'.index.engine hspec text
  have hquery : Plan.ofQuery s'.index.bindings (.matching field text) = .ok plan := by
    rw [Plan.ofQuery, hrequire]
    exact hplan
  obtain ⟨boosted, hboosted, -⟩ := Query.exists_ofQuery_boosted s'.index.engine hquery m.boost
  exact ⟨boosted, hboosted⟩

include hfits in
/-- A text is planned as itself, if both analyzers agree on all texts. -/
theorem planned_text (hkind : m.kind = .text) (hplain : s.PlainTexts field) {text : String}
    (htext : Text.SameTokens text) :
    (Query.matching field text).PlannedAs s'.index.engine s'.index.bindings s.index.documents
      (.matching field text) := by
  refine Query.exists_plan h.mirrors.serve h.mirrors.check_visible hfits ?_
  rw [Query.Portable]
  exact ⟨m.spec field, hs.find?_mapped hm, hkind, htext, hplain⟩

/-- The values of a mapped field are of the mapper's kind. -/
theorem kind_of_mem {d : Document} (hd : d ∈ s.index.documents) {v : FieldValue}
    (hv : v ∈ d.values field) : v.kind = m.kind :=
  Declarations.kind_of_check (h.mirrors.check_visible d hd) (hs.find?_mapped hm) hv

/-! ## Answers -/

variable {range : TokenRange} {filter : Option Query}
  (hfilter : s.store.partitioner.rangeFilter range = .ok filter) (limit : Nat) (time : Int64)

include hfilter

/-- The service finds no text among numbers. -/
theorem search_number (hkind : m.kind = .long ∨ m.kind = .double) (text : String) :
    s.search ((Query.matching field text).boosted m.boost) range limit time = .ok [] := by
  obtain ⟨rows, hsearch, hkeys⟩ :=
    hs.keys_search hfilter ((Query.matching field text).boosted m.boost) limit time
  have hfound : s.index.found
      (s.searchOf ((Query.matching field text).boosted m.boost) filter limit) = [] := by
    refine List.eq_nil_iff_forall_not_mem.mpr fun d hd => ?_
    obtain ⟨hmem, hfinds⟩ := ScanIndex.finds_of_mem_found hd
    have hnone : Query.finds d (.matching field text) = false :=
      Query.finds_matching_number fun v hv => (h.kind_of_mem hs hm hmem hv).symm ▸ hkind
    rw [searchOf, Query.finds_boosted, hnone] at hfinds
    contradiction
  rw [hfound] at hkeys
  rw [hsearch, List.map_eq_nil_iff.mp hkeys]

include hfits in
/-- **The answers of a service and its replica**, for one mapped field. -/
theorem answers :
    s.Answers field m limit (s.search · range limit time) (s'.search · range limit time) where
  answered q := ⟨_, hs.search_eq hfilter q limit time⟩
  value raw q hq := by
    rcases Schema.exists_of_termQuery hm hq with
      ⟨text, hraw, hkind, rfl⟩ | ⟨v, hv, hkind, rfl⟩
    · obtain ⟨plan, hplan⟩ := h.exists_plan_text hs hm hkind text
      refine ⟨h.exists_search hs hfilter hplan limit time, fun hplain => ?_⟩
      obtain ⟨hstored, hsought⟩ := hplain hkind
      exact h.alike_of_planned hs hfilter hfits
        ((h.planned_text hs hm hfits hkind hstored (hsought text hraw)).boosted_both m.boost)
        limit time
    · have halike := h.alike_of_planned hs hfilter hfits
        ((h.planned_term hs hm hfits hkind hv).boosted_both m.boost) limit time
      have ⟨_, rows, _, hrows, _⟩ := halike
      exact ⟨⟨rows, hrows⟩, fun _ => halike⟩
  bounds lower upper includeLower includeUpper q hq hvalue hkind := by
    obtain ⟨low, high, hlow, hhigh, rfl⟩ := Schema.exists_of_rangeQuery hm hq
    refine h.alike_of_planned hs hfilter hfits ?_ limit time
    refine (h.planned_range hs hm hfits hkind (Schema.ofKind_of_boundOf hlow)
      (Schema.ofKind_of_boundOf hhigh) ?_).boosted_both m.boost
    rw [Option.isSome_or, Schema.isSome_value?_of_boundOf hlow,
      Schema.isSome_value?_of_boundOf hhigh, ← Option.isSome_or]
    exact hvalue
  text_bounds lower upper includeLower includeUpper text q hq hkind hvalue := by
    obtain ⟨low, high, hlow, hhigh, rfl⟩ := Schema.exists_of_rangeQuery hm hq
    exact h.search_of_unplanned hfilter (Query.ofQuery_boosted_of_error
      (Query.ofQuery_range_of_text h.mirrors.serve (hs.find?_mapped hm) hkind
        (Schema.value?_or_of_boundOf hkind hlow hhigh hvalue)) m.boost) limit time
  no_bounds includeLower includeUpper q hq := by
    obtain ⟨low, high, hlow, hhigh, rfl⟩ := Schema.exists_of_rangeQuery hm hq
    obtain rfl := Except.ok.inj hlow
    obtain rfl := Except.ok.inj hhigh
    have hplan : ((Query.range field .unbounded .unbounded).boosted m.boost).PlannedAs
        s'.index.engine s'.index.bindings s.index.documents .all :=
      (Query.plannedAs_all h.mirrors.serve (hs.find?_mapped hm)).boosted m.boost
    have ⟨plan, hplanned, _⟩ := hplan
    refine ⟨h.exists_search hs hfilter hplanned limit time, fun hvalues => ?_⟩
    refine h.alike_of_planned hs hfilter hfits (hplan.congr fun d hd => ?_) limit time
    rw [Query.finds_boosted, Query.finds_unbounded_iff.mpr (hvalues d hd), Query.finds, Query.score]
    rfl
  text text q hq hkind := by
    obtain rfl := Schema.eq_of_matchQuery hm hq
    obtain ⟨plan, hplan⟩ := h.exists_plan_text hs hm hkind text
    refine ⟨h.exists_search hs hfilter hplan limit time, fun hstored hsought => ?_⟩
    exact h.alike_of_planned hs hfilter hfits
      ((h.planned_text hs hm hfits hkind hstored hsought).boosted_both m.boost) limit time
  keyword text q hq hkind := by
    obtain rfl := Schema.eq_of_matchQuery hm hq
    have hplan := (Query.plannedAs_keyword s'.index.engine h.mirrors.serve
      h.mirrors.check_visible hfits (hs.find?_mapped hm) hkind text).boosted m.boost
    refine ⟨h.alike_of_planned hs hfilter hfits hplan limit time, fun hstored hsought => ?_⟩
    refine h.alike_of_planned hs hfilter hfits (hplan.congr fun d hd => ?_) limit time
    rw [Query.finds_boosted, Query.finds_matching_keyword _ (hstored d hd) hsought]
    exact fun v hv => (h.kind_of_mem hs hm hd hv).trans hkind
  number text q hq hkind := by
    obtain rfl := Schema.eq_of_matchQuery hm hq
    refine ⟨h.search_number hs hm hfilter limit time hkind text, ?_⟩
    exact h.search_of_unplanned hfilter (Query.ofQuery_boosted_of_error
      (Query.ofQuery_matching_of_number h.mirrors.serve (hs.find?_mapped hm) hkind text) m.boost)
      limit time

end Replica

end Answers

/-- **Both indexes answer the queries of a schema alike**, except where they are made differently.
A service over the scanned index and one over the inverted index that commits every change are
opened for the same definition, and given the same calls.  The engine publishes what it is told, and
takes in the keys of the calls and the documents that are indexed in the end.  Then both services
answer every query on a mapped field, in any range of tokens, as `Answers` says. -/
theorem search_mapped {d : Definition} {t : Table} {p : Partitioner} {engine : Engine}
    (hauto : d.settings.autoCommit = true) (htakes : engine.TakesIn) (hpublishes : engine.Publishes)
    {s₀ : Service ScanIndex} {s₀' : Service InvertedIndex}
    (hopen : openScan d t { partitioner := p } = .ok s₀)
    (hopen' : openInverted engine d t { partitioner := p } = .ok s₀') {calls : List Call}
    (hcalls : ∀ c ∈ calls, c.Fits) (hfits : ∀ doc ∈ (s₀.actAll calls).index.documents, doc.Fits)
    {field : String} {m : Mapper} (hm : d.schema.mapper? field = some m) {range : TokenRange}
    {filter : Option Query} (hfilter : p.rangeFilter range = .ok filter) (limit : Nat)
    (time : Int64) :
    let s := s₀.actAll calls
    let s' := s₀'.actAll calls
    s.schema = d.schema ∧
      s.Answers field m limit (s.search · range limit time) (s'.search · range limit time) := by
  intro s s'
  have hs₀ : s₀.Sound := sound_openScan hopen (Store.wellPlaced_empty p)
  have hreplica : Replica s s' :=
    (replica_open hauto htakes hpublishes hopen hopen').actAll hs₀ hcalls
  obtain ⟨hs, hagrees⟩ := hs₀.run calls
  rw [← actAll_eq_run] at hs hagrees
  obtain ⟨-, index, -, rfl⟩ := openWith_eq_ok_iff.mp hopen
  have hm' : s.schema.mapper? field = some m := hagrees.schema ▸ hm
  have hfilter' : s.store.partitioner.rangeFilter range = .ok filter :=
    hagrees.partitioner ▸ hfilter
  exact ⟨hagrees.schema, hreplica.answers hs hm' hfits hfilter' limit time⟩

/-! ## A small service and its replica

Three columns are mapped: texts, keywords and numbers. -/

/-- A definition with three mapped columns. -/
def mixedDefinition : Definition where
  schema := .ofList
    [⟨"bio", { type := .text }⟩, ⟨"city", { type := .string true }⟩, ⟨"n", { type := .long }⟩]

/-- A table with three columns. -/
def mixedTable : Table where
  name := "t"
  columns := [⟨"bio", .text⟩, ⟨"city", .text⟩, ⟨"n", .int⟩]

/-- The service of the definition, over an empty store. -/
def mixed (p : Partitioner) : Service ScanIndex where
  table := mixedTable
  column := "score"
  schema := mixedDefinition.schema
  store := { partitioner := p }
  index := { declared := NameMap.ofList (specs mixedDefinition p) }

/-- Its replica, over the plain engine. -/
def mixedReplica (p : Partitioner) : Service InvertedIndex where
  table := mixedTable
  column := "score"
  schema := mixedDefinition.schema
  store := { partitioner := p }
  index := .created {} .plain (specs mixedDefinition p)

theorem openScan_mixed (p : Partitioner) :
    openScan mixedDefinition mixedTable { partitioner := p } = .ok (mixed p) := by
  cases p <;> rfl

theorem openInverted_mixed (p : Partitioner) :
    openInverted .plain mixedDefinition mixedTable { partitioner := p } =
      .ok (mixedReplica p) := by
  cases p <;> rfl

theorem sound_mixed (p : Partitioner) (calls : List Call) :
    ((mixed p).actAll calls).Sound ∧
      ((mixed p).actAll calls).schema = mixedDefinition.schema := by
  have hrun := (sound_openScan (openScan_mixed p) (Store.wellPlaced_empty p)).run calls
  rw [← actAll_eq_run] at hrun
  exact ⟨hrun.1, hrun.2.schema⟩

theorem replica_mixed (p : Partitioner) {calls : List Call} (hcalls : ∀ c ∈ calls, c.Fits) :
    Replica ((mixed p).actAll calls) ((mixedReplica p).actAll calls) :=
  (replica_open rfl Engine.takesIn_plain Engine.publishes_plain (openScan_mixed p)
    (openInverted_mixed p)).actAll
      (sound_openScan (openScan_mixed p) (Store.wellPlaced_empty p)) hcalls

theorem rangeFilter_all (p : Partitioner) : p.rangeFilter .all = .ok none := rfl

/-- Two rows are written and indexed; the second has no number. -/
def mixedCalls : List Call :=
  let first : Mutation := { cells := [⟨"bio", some (.text "Rust, go"), 10⟩,
    ⟨"city", some (.text "new york"), 10⟩, ⟨"n", some (.int 7), 10⟩] }
  let second : Mutation := { cells := [⟨"bio", some (.text "go"), 10⟩,
    ⟨"city", some (.text "york"), 10⟩] }
  [.apply [1] first, .apply [2] second, .reindexAll [([1], first), ([2], second)] 10]

theorem fits_mixedCalls : ∀ c ∈ mixedCalls, c.Fits := by decide +kernel

theorem fits_mixed : ∀ d ∈ ((mixed .byteOrdered).actAll mixedCalls).index.documents, d.Fits := by
  decide +kernel

theorem room_mixed : ((mixed .byteOrdered).actAll mixedCalls).index.documents.length ≤ 2 := by
  decide +kernel

/-- A search of the service returns the rows of the documents that its query finds. -/
theorem perm_keys_mixed {q : Query} {rows : List Row}
    (h : ((mixed .byteOrdered).actAll mixedCalls).search q .all 2 10 = .ok rows) :
    (rows.map Row.key).Perm (((mixed .byteOrdered).actAll mixedCalls).liveKeys 10
      (((mixed .byteOrdered).actAll mixedCalls).index.documents.filter fun d => q.finds d)) := by
  obtain ⟨rows', hsearch, hkeys⟩ :=
    (sound_mixed _ mixedCalls).1.perm_keys_search (rangeFilter_all _) q room_mixed 10
  obtain rfl := Except.ok.inj (h.symm.trans hsearch)
  simpa using hkeys

/-- A number is found between bounds by both. -/
theorem search_mapped_of_number :
    let s := (mixed .byteOrdered).actAll mixedCalls
    let s' := (mixedReplica .byteOrdered).actAll mixedCalls
    let store : Store := { partitioner := .byteOrdered }
    openScan mixedDefinition mixedTable store = .ok (mixed .byteOrdered) ∧
      openInverted .plain mixedDefinition mixedTable store =
        .ok (mixedReplica .byteOrdered) ∧
      ∃ q rows rows', mixedDefinition.schema.rangeQuery "n" (some (.int 5)) none true true =
          .ok q ∧
        s.search q .all 2 10 = .ok rows ∧ s'.search q .all 2 10 = .ok rows' ∧
        rows.map Row.key = [⟨.byteOrdered [1], [1]⟩] ∧
        rows'.map Row.key = [⟨.byteOrdered [1], [1]⟩] := by
  intro s s' store
  have hm : mixedDefinition.schema.mapper? "n" = some { type := .long } := by decide +kernel
  have hq : mixedDefinition.schema.rangeQuery "n" (some (.int 5)) none true true =
      .ok (.range "n" (.included (.long 5)) .unbounded) := rfl
  obtain ⟨hschema, hanswers⟩ := search_mapped rfl Engine.takesIn_plain Engine.publishes_plain
    (openScan_mixed .byteOrdered) (openInverted_mixed .byteOrdered) fits_mixedCalls fits_mixed hm
    (rangeFilter_all _) 2 10
  obtain ⟨rows, rows', hrows, hrows', hsame⟩ :=
    hanswers.bounds _ _ _ _ _ (hschema ▸ hq) rfl nofun
  have hone : (rows.map Row.key).Perm [⟨.byteOrdered [1], [1]⟩] := by
    refine (perm_keys_mixed hrows).trans (.of_eq ?_)
    decide +kernel
  exact ⟨openScan_mixed _, openInverted_mixed _, _, rows, rows', hq, hrows, hrows',
    List.perm_singleton.mp hone,
    List.perm_singleton.mp ((hsame (.inl room_mixed)).symm.trans hone)⟩

/-! ## Where the answers differ -/

/-- Two keys of one hash. -/
def twinKeys : Bytes × Bytes := ([1, 0, 0, 0], [145, 102, 59, 240, 242, 174, 16, 3])

/-- The token of both. -/
def twinToken : Token := .murmur3 (-2665511616818817272)

theorem place_twinKeys :
    Partitioner.murmur3.place twinKeys.1 = ⟨twinToken, twinKeys.1⟩ ∧
      Partitioner.murmur3.place twinKeys.2 = ⟨twinToken, twinKeys.2⟩ := by
  constructor <;> decide +kernel

/-- A row of one text. -/
def bioWrite (text : String) : Mutation := { cells := [⟨"bio", some (.text text), 10⟩] }

/-- Two rows of one token are written and indexed; they share a word, and each has its own. -/
def twinCalls : List Call :=
  [.apply twinKeys.1 (bioWrite "go rust"), .apply twinKeys.2 (bioWrite "go sql"),
    .reindex twinKeys.1 (bioWrite "go rust") 10, .reindex twinKeys.2 (bioWrite "go sql") 10]

/-- The documents of the two rows. -/
def twinDocuments : Document × Document :=
  (⟨[⟨tokenField, .long (-2665511616818817272)⟩, ⟨keyField, .keyword "01000000"⟩,
      ⟨"bio", .text "go rust"⟩]⟩,
    ⟨[⟨tokenField, .long (-2665511616818817272)⟩, ⟨keyField, .keyword "91663bf0f2ae1003"⟩,
      ⟨"bio", .text "go sql"⟩]⟩)

/-- The service with the two rows written. -/
def twins : Service ScanIndex :=
  { mixed .murmur3 with
    store :=
      { partitioner := .murmur3
        partitions := [(⟨twinToken, twinKeys.1⟩, Partition.apply {} (bioWrite "go rust")),
          (⟨twinToken, twinKeys.2⟩, Partition.apply {} (bioWrite "go sql"))] } }

theorem run_writes_twins :
    (mixed .murmur3).run [.apply twinKeys.1 (bioWrite "go rust"),
      .apply twinKeys.2 (bioWrite "go sql")] = twins := by
  change ((mixed .murmur3).apply twinKeys.1 (bioWrite "go rust")).apply twinKeys.2
    (bioWrite "go sql") = twins
  simp only [apply, Store.apply, Store.place, mixed, place_twinKeys]
  rfl

/-- Both rows are indexed under their token. -/
theorem actAll_twins :
    (mixed .murmur3).actAll twinCalls =
      twins.withDocuments [twinDocuments.1, twinDocuments.2] := by
  have hopened : twins.Opened := by
    rw [← run_writes_twins, ← actAll_eq_run]
    exact (sound_mixed .murmur3 _).1.toOpened
  have hfirst : twins.reindexed twinKeys.1 (bioWrite "go rust") 10 = [twinDocuments.1] := by
    simp only [reindexed, twins, Store.place, place_twinKeys]
    decide +kernel
  have hsecond : (twins.withDocuments [twinDocuments.1]).reindexed twinKeys.2
      (bioWrite "go sql") 10 = [twinDocuments.1, twinDocuments.2] := by
    simp only [reindexed, withDocuments, twins, Store.place, place_twinKeys]
    decide +kernel
  have hopened' : (twins.withDocuments [twinDocuments.1]).Opened :=
    hopened.of_agrees (agrees_withDocuments twins _) hopened.placed
  calc (mixed .murmur3).actAll twinCalls
      = twins.run [.reindex twinKeys.1 (bioWrite "go rust") 10,
          .reindex twinKeys.2 (bioWrite "go sql") 10] := by
        rw [actAll_eq_run, ← run_writes_twins, run, run, run, ← List.foldl_append]
        rfl
    _ = (twins.withDocuments [twinDocuments.1]).run
          [.reindex twinKeys.2 (bioWrite "go sql") 10] := by
        rw [run_cons, call_reindex hopened, hfirst]
    _ = twins.withDocuments [twinDocuments.1, twinDocuments.2] := by
        rw [run_cons, call_reindex hopened', hsecond]
        rfl

/-- The row of each document is live. -/
theorem liveKeys_twins {d : Document} {bytes : Bytes}
    (hd : d.values keyField = [.keyword (Hex.encode bytes)])
    (hplace : Partitioner.murmur3.place bytes = ⟨twinToken, bytes⟩)
    (hlive : (twins.store.liveRow? ⟨twinToken, bytes⟩ 10).isSome = true) :
    ((mixed .murmur3).actAll twinCalls).liveKeys 10 [d] = [⟨twinToken, bytes⟩] := by
  rw [actAll_twins, liveKeys, List.map_cons, List.map_nil, keyOf, Document.key_of_values hd]
  change ([Partitioner.murmur3.place bytes].filter fun key =>
    (twins.store.liveRow? key 10).isSome) = _
  rw [hplace]
  exact List.filter_eq_self.mpr fun key hmem => List.mem_singleton.mp hmem ▸ hlive

/-- A limit of one leaves the first of two hits in the order of tokens. -/
theorem found_twins {q : Query} {a b : Hit}
    (hhits : (twins.withDocuments [twinDocuments.1, twinDocuments.2]).index.hits q none = [a, b]) :
    let s := (mixed .murmur3).actAll twinCalls
    s.index.found (s.searchOf q none 1) =
      [if (Partitioner.murmur3.tokenOrder.order a b).isLE then a.document else b.document] := by
  intro s
  have hdocuments : s = twins.withDocuments [twinDocuments.1, twinDocuments.2] := actAll_twins
  rw [hdocuments, ScanIndex.found]
  change ((SortOrder.sort Partitioner.murmur3.tokenOrder _).take 1).map _ = _
  rw [searchOf, hhits, SortOrder.sort]
  split <;> rename_i horder <;> simp [List.mergeSort, horder]

/-- Of two rows of one token the service returns the one that matches better, the replica the same
whichever matches better. -/
theorem search_twins :
    let s := (mixed .murmur3).actAll twinCalls
    let s' := (mixedReplica .murmur3).actAll twinCalls
    let q := Query.matching "bio" "go rust"
    let q' := Query.matching "bio" "go sql"
    (∃ rows rows', s.search q .all 1 10 = .ok rows ∧ s.search q' .all 1 10 = .ok rows' ∧
      rows.map Row.key = [⟨twinToken, twinKeys.1⟩] ∧
      rows'.map Row.key = [⟨twinToken, twinKeys.2⟩]) ∧
    ∃ rows rows', s'.search q .all 1 10 = .ok rows ∧ s'.search q' .all 1 10 = .ok rows' ∧
      (rows.map Row.key).Perm (rows'.map Row.key) := by
  intro s s' q q'
  have ⟨hs, hschema⟩ := sound_mixed .murmur3 twinCalls
  have hdocuments : s.index.documents = [twinDocuments.1, twinDocuments.2] := by
    rw [show s = _ from actAll_twins]
    rfl
  have hfound : s.index.found (s.searchOf q none 1) = [twinDocuments.1] := by
    refine (found_twins (a := ⟨twinDocuments.1, Binary.ofInt 2⟩)
      (b := ⟨twinDocuments.2, Binary.ofInt 1⟩) (by decide +kernel)).trans ?_
    rw [if_pos (by decide +kernel)]
  have hfound' : s.index.found (s.searchOf q' none 1) = [twinDocuments.2] := by
    refine (found_twins (a := ⟨twinDocuments.1, Binary.ofInt 1⟩)
      (b := ⟨twinDocuments.2, Binary.ofInt 2⟩) (by decide +kernel)).trans ?_
    rw [if_neg (by decide +kernel)]
  constructor
  · obtain ⟨rows, hrows, hrowKeys⟩ := hs.keys_search (rangeFilter_all _) q 1 10
    obtain ⟨rows', hrows', hrowKeys'⟩ := hs.keys_search (rangeFilter_all _) q' 1 10
    rw [hfound, liveKeys_twins (by decide +kernel) place_twinKeys.1 (by decide +kernel)] at hrowKeys
    rw [hfound', liveKeys_twins (by decide +kernel) place_twinKeys.2 (by decide +kernel)]
      at hrowKeys'
    exact ⟨rows, rows', hrows, hrows', hrowKeys, hrowKeys'⟩
  · have hm : s.schema.mapper? "bio" = some { type := .text } := by
      rw [hschema]
      decide +kernel
    have hsame {text : String} (h : Text.analyze text = Text.analyzeIndexed text) :
        Text.SameTokens text := fun token => by rw [h]
    have hplain : s.PlainTexts "bio" := by
      rw [PlainTexts, hdocuments]
      intro d hd text htext
      rcases List.mem_pair.mp hd with rfl | rfl <;> cases List.mem_singleton.mp htext <;>
        exact hsame (by decide +kernel)
    have hreplica : Replica s s' := replica_mixed .murmur3 (by decide +kernel)
    have hfits : ∀ d ∈ s.index.documents, d.Fits := by
      rw [hdocuments]
      decide +kernel
    refine hreplica.perm_keys_of_finds hs (rangeFilter_all _) hfits
      (hreplica.planned_text hs hm hfits rfl hplain (hsame (by decide +kernel)))
      (hreplica.planned_text hs hm hfits rfl hplain (hsame (by decide +kernel))) ?_ 1 10
    rw [hdocuments]
    decide +kernel

/-- **Where the indexes are made differently, the answers differ.**  For a text that is sought among
keywords other rows are found; bounds of texts, and a text that is sought among numbers, are refused
by the replica; and of two rows of one token, between which the limit decides, the service returns
the one that matches better, the replica always the same. -/
theorem search_mixed_differs :
    let s := (mixed .byteOrdered).actAll mixedCalls
    let s' := (mixedReplica .byteOrdered).actAll mixedCalls
    let first : Key := ⟨.byteOrdered [1], [1]⟩
    let second : Key := ⟨.byteOrdered [2], [2]⟩
    (∀ p, openScan mixedDefinition mixedTable { partitioner := p } = .ok (mixed p) ∧
      openInverted .plain mixedDefinition mixedTable
        { partitioner := p } = .ok (mixedReplica p)) ∧
    (∃ q rows, mixedDefinition.schema.rangeQuery "bio" (some (.text "a")) none true true = .ok q ∧
      s.search q .all 2 10 = .ok rows ∧ rows.map Row.key = [second] ∧
      s'.search q .all 2 10 = .error (.unusableTerm "a" .text)) ∧
    (∃ q rows rows', mixedDefinition.schema.matchQuery "city" "york" = .ok q ∧
      s.search q .all 2 10 = .ok rows ∧ s'.search q .all 2 10 = .ok rows' ∧
      (rows.map Row.key).Perm [first, second] ∧ rows'.map Row.key = [second]) ∧
    (∃ q, mixedDefinition.schema.matchQuery "n" "7" = .ok q ∧ s.search q .all 2 10 = .ok [] ∧
      s'.search q .all 2 10 = .error (.notAnalyzed "n")) ∧
    ∃ q q' rows₁ rows₂ rows₁' rows₂',
      mixedDefinition.schema.matchQuery "bio" "go rust" = .ok q ∧
      mixedDefinition.schema.matchQuery "bio" "go sql" = .ok q' ∧
      ((mixed .murmur3).actAll twinCalls).search q .all 1 10 = .ok rows₁ ∧
      ((mixed .murmur3).actAll twinCalls).search q' .all 1 10 = .ok rows₂ ∧
      ((mixedReplica .murmur3).actAll twinCalls).search q .all 1 10 = .ok rows₁' ∧
      ((mixedReplica .murmur3).actAll twinCalls).search q' .all 1 10 = .ok rows₂' ∧
      rows₁.map Row.key = [⟨twinToken, twinKeys.1⟩] ∧
      rows₂.map Row.key = [⟨twinToken, twinKeys.2⟩] ∧
      (rows₁'.map Row.key).Perm (rows₂'.map Row.key) := by
  intro s s' first second
  have ⟨hs, hschema⟩ := sound_mixed .byteOrdered mixedCalls
  have hanswers {field : String} {m : Mapper} (hm : mixedDefinition.schema.mapper? field = some m) :
      s.Answers field m 2 (s.search · .all 2 10) (s'.search · .all 2 10) :=
    (replica_mixed _ fits_mixedCalls).answers hs (hschema ▸ hm) fits_mixed (rangeFilter_all _) 2 10
  have hbio := hanswers (show mixedDefinition.schema.mapper? "bio" = some { type := .text } by
    decide +kernel)
  have hcity := hanswers (show mixedDefinition.schema.mapper? "city" =
    some { type := .string true } by decide +kernel)
  have hn := hanswers (show mixedDefinition.schema.mapper? "n" = some { type := .long } by
    decide +kernel)
  refine ⟨fun p => ⟨openScan_mixed p, openInverted_mixed p⟩, ?textRange, ?keyword, ?number,
    ?limit⟩
  case textRange =>
    have hq : mixedDefinition.schema.rangeQuery "bio" (some (.text "a")) none true true =
        .ok (.range "bio" (.included (.text "a")) .unbounded) := rfl
    obtain ⟨rows, hrows⟩ := hbio.answered (.range "bio" (.included (.text "a")) .unbounded)
    refine ⟨_, rows, hq, hrows, List.perm_singleton.mp ?_,
      hbio.text_bounds _ _ _ _ _ _ (hschema ▸ hq) rfl rfl⟩
    refine (perm_keys_mixed hrows).trans (.of_eq ?_)
    decide +kernel
  case keyword =>
    have hq : mixedDefinition.schema.matchQuery "city" "york" = .ok (.matching "city" "york") := rfl
    obtain ⟨rows, hrows⟩ := hcity.answered (.matching "city" "york")
    obtain ⟨⟨one, rows', hone, hrows', hsame⟩, -⟩ := hcity.keyword _ _ (hschema ▸ hq) rfl
    refine ⟨_, rows, rows', hq, hrows, hrows', ?_, List.perm_singleton.mp ?_⟩
    · refine (perm_keys_mixed hrows).trans (.of_eq ?_)
      decide +kernel
    · refine ((hsame (.inl room_mixed)).symm.trans (perm_keys_mixed hone)).trans (.of_eq ?_)
      decide +kernel
  case number =>
    have hq : mixedDefinition.schema.matchQuery "n" "7" = .ok (.matching "n" "7") := rfl
    obtain ⟨hnone, hrefused⟩ := hn.number _ _ (hschema ▸ hq) (.inl rfl)
    exact ⟨_, hq, hnone, hrefused⟩
  case limit =>
    obtain ⟨⟨rows₁, rows₂, hrows₁, hrows₂, hkeys₁, hkeys₂⟩, rows₁', rows₂', hrows₁', hrows₂',
      hsame⟩ := search_twins
    exact ⟨_, _, rows₁, rows₂, rows₁', rows₂', rfl, rfl, hrows₁, hrows₂, hrows₁', hrows₂', hkeys₁,
      hkeys₂, hsame⟩

end Service

end RowIndex
