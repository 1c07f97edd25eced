import RowIndex.Proofs.Index.Terms

/-!
# Proofs/Index/Plans — the plan of a query selects what the query scores

A query has two readings: the scanned index scores each document, the inverted index makes a plan of
terms by which its engine selects.  The engine's laws give what each plan selects, and terms stand
for values, so the readings agree on queries whose values suit their fields and whose texts both
analyzers take apart alike (`Query.Portable`), at every nesting of clauses and factors
(`Query.exists_plan`).
-/

namespace RowIndex

/-- Both analyzers find the same tokens in a text. -/
def Text.SameTokens (text : String) : Prop :=
  ∀ token, token ∈ analyze text ↔ token ∈ analyzeIndexed text

/-- The value of a bound, if there is one. -/
def Bound.value? : Bound FieldValue → Option FieldValue
  | unbounded => none
  | included v | excluded v => some v

namespace Query

variable (declared : Declarations) (documents : List Document)

mutual

/-- Queries that both indexes read alike: fields that are matched as a whole are compared with
values of their kinds, and the texts of text fields have the same tokens for both analyzers. -/
def Portable : Query → Prop
  | all => True
  | term field value =>
    ∃ spec, declared.find? field = some spec ∧ spec.kind ≠ .text ∧ value.kind = spec.kind
  | range field lower upper =>
    ∃ spec, declared.find? field = some spec ∧ spec.kind ≠ .text ∧ lower.OfKind spec.kind ∧
      upper.OfKind spec.kind ∧ Bound.bothOpen lower upper = false
  | matching field text =>
    ∃ spec, declared.find? field = some spec ∧ spec.kind = .text ∧ Text.SameTokens text ∧
      ∀ d ∈ documents, ∀ stored, .text stored ∈ d.values field → Text.SameTokens stored
  | boolean must should mustNot =>
    AllPortable must ∧ AllPortable should ∧ AllPortable mustNot
  | boost query _ => Portable query

/-- Lists of such queries. -/
def AllPortable : List Query → Prop
  | [] => True
  | query :: rest => Portable query ∧ AllPortable rest

end

/-! ## Scores of clauses -/

/-- Whether a document has a score. -/
def finds (d : Document) (query : Query) : Bool := (query.score d).isSome

theorem isSome_scoreOf (holds : Bool) : (scoreOf holds).isSome = holds := by
  cases holds <;> rfl

theorem someMatch_eq (d : Document) (queries : List Query) :
    someMatch d queries = (queries.map (finds d)).any id := by
  induction queries with
  | nil => rw [someMatch]; rfl
  | cons query rest ih =>
    rw [someMatch, ih]
    rfl

theorem isSome_addAll (d : Document) (total : Single) (queries : List Query) :
    (addAll d total queries).isSome = (queries.map (finds d)).all id := by
  induction queries generalizing total with
  | nil => rw [addAll]; rfl
  | cons query rest ih =>
    rw [addAll, List.map_cons, List.all_cons, finds]
    cases query.score d with
    | none => rfl
    | some score => exact ih _

theorem isSome_addSome (d : Document) (total : Single) (queries : List Query) :
    (addSome d total queries).isSome = true := by
  induction queries generalizing total with
  | nil => rw [addSome]; rfl
  | cons query rest ih =>
    rw [addSome]
    cases query.score d with
    | none => exact ih _
    | some score => exact ih _

/-- Whether clauses hold, by which of their queries do. -/
def clausesHold (must should mustNot : List Bool) : Bool :=
  !mustNot.any id && must.all id && (!must.isEmpty || should.any id)

/-- **Clauses have a score exactly if they hold.** -/
theorem finds_boolean (d : Document) (must should mustNot : List Query) :
    finds d (boolean must should mustNot) =
      clausesHold (must.map (finds d)) (should.map (finds d)) (mustNot.map (finds d)) := by
  rw [finds, score, clausesHold, ← isSome_addAll d (Binary.zero false) must, someMatch_eq,
    someMatch_eq]
  cases (mustNot.map (finds d)).any id with
  | true => rfl
  | false =>
    cases addAll d (Binary.zero false) must with
    | none => rfl
    | some total =>
      rw [List.isEmpty_map]
      cases must.isEmpty <;> cases (should.map (finds d)).any id <;>
        first | rfl | exact isSome_addSome d total should

/-- A text is found exactly if one of its tokens is among the tokens of a value. -/
theorem finds_matching_iff {d : Document} {field text : String} :
    finds d (matching field text) = true ↔
      ∃ token ∈ Text.analyze text,
        token ∈ ((d.values field).filterMap FieldValue.asString?).flatMap Text.analyze := by
  have hshared :
      finds d (matching field text) = decide (0 < sharedTokens text (d.values field)) := by
    rw [finds, score]
    by_cases h : 0 < sharedTokens text (d.values field) <;> simp [h]
  rw [hshared, decide_eq_true_eq, sharedTokens, List.length_pos_iff_exists_mem]
  simp only [List.mem_filter, List.mem_eraseDups, List.contains_iff_mem]

end Query

/-! ## Plans of clauses and of texts -/

/-- The engine selects by clauses as they hold. -/
theorem Engine.selects_clauses_eq (engine : Engine) (must should mustNot : List Plan)
    (d : Document) :
    engine.selects (.clauses must should mustNot) d =
      Query.clausesHold (must.map (engine.selects · d)) (should.map (engine.selects · d))
        (mustNot.map (engine.selects · d)) := by
  rw [engine.selects_clauses, Query.clausesHold, List.any_map, List.any_map, List.all_map,
    List.isEmpty_map]
  rfl

/-- **A text is planned as its tokens**, any of which may be found. -/
theorem Plan.exists_matching (engine : Engine) {spec : FieldSpec} (hkind : spec.kind = .text)
    (text : String) :
    ∃ plan, matching spec.bound text = .ok plan ∧ ∀ d, engine.selects plan d = true ↔
      ∃ token ∈ Text.analyzeIndexed text,
        token ∈ ((d.values spec.name).filterMap FieldValue.asString?).flatMap
          Text.analyzeIndexed := by
  have htokens : spec.bound.layout.form.tokens? = some Text.analyzeIndexed := by
    rw [FieldSpec.bound, FieldSpec.layout, hkind]
    rfl
  refine ⟨_, by rw [matching, htokens], fun d => ?_⟩
  have hdistinct (token : String) :
      token ∈ (NameMap.ofList (Text.analyzeIndexed text) : NameSet).entries ↔
        token ∈ Text.analyzeIndexed text :=
    NameMap.mem_foldl_put_names.trans (or_iff_left List.not_mem_nil)
  rw [engine.selects_clauses]
  simp only [List.any_nil, List.all_nil, List.isEmpty_nil, Bool.not_false, Bool.not_true,
    Bool.true_and, Bool.false_or, List.any_map, List.any_eq_true, hdistinct, Function.comp_apply,
    engine.selects_term, List.contains_iff_mem, FieldSpec.mem_terms_iff_of_text hkind]

/-! ## Plans of queries -/

namespace Query

variable {engine : Engine} {b : Bindings} {declared : Declarations} {documents : List Document}

/-- The plan of a query selects the documents that another query finds. -/
def PlannedAs (engine : Engine) (b : Bindings) (documents : List Document) (query other : Query) :
    Prop :=
  ∃ plan, Plan.ofQuery b query = .ok plan ∧
    ∀ d ∈ documents, engine.selects plan d = finds d other

section Leaves

variable (hb : b.Serve declared) (hcheck : ∀ d ∈ documents, declared.check d = .ok ())
  (hfits : ∀ d ∈ documents, d.Fits)

include hcheck hfits

/-- A document has a term of a field that is matched as a whole if one of its values is the same. -/
theorem selects_term {field : String} {spec : FieldSpec} (hspec : declared.find? field = some spec)
    (hkind : spec.kind ≠ .text) {value : FieldValue} (hvalue : value.kind = spec.kind)
    {d : Document} (hd : d ∈ documents) :
    engine.selects (.term spec.bound value.indexTerm) d = finds d (term field value) := by
  rw [engine.selects_term, finds, score, isSome_scoreOf, Bool.eq_iff_iff, List.contains_iff_mem,
    FieldSpec.mem_terms_iff (hcheck d hd) hspec hkind hvalue]
  simp only [List.any_eq_true, decide_eq_true_eq, FieldValue.compare?_eq_some_eq_iff,
    exists_eq_right]
  exact and_iff_left_of_imp fun hmem =>
    ((hfits d hd).of_mem_values hmem).fits_indexTerm (hvalue ▸ hkind)

/-- A document has a term between two bounds if it has a value between them. -/
theorem selects_range {field : String} {spec : FieldSpec} (hspec : declared.find? field = some spec)
    (hkind : spec.kind ≠ .text) {lower upper : Bound FieldValue} (hlower : lower.OfKind spec.kind)
    (hupper : upper.OfKind spec.kind) {d : Document} (hd : d ∈ documents) :
    engine.selects
        (.range spec.bound (FieldValue.boundTerm lower) (FieldValue.boundTerm upper)) d =
      finds d (range field lower upper) := by
  rw [engine.selects_range _ _ _ _ fun t =>
      FieldSpec.fits_of_mem_tokens (hcheck d hd) hspec hkind (hfits d hd),
    FieldSpec.terms_bound (hcheck d hd) hspec hkind (hfits d hd), finds, score, isSome_scoreOf,
    List.any_map, Bool.eq_iff_iff, List.any_eq_true, List.any_eq_true]
  refine exists_congr fun v => and_congr_right fun hv => ?_
  have hv' := Declarations.kind_of_check (hcheck d hd) hspec hv
  rw [within, Function.comp_apply, FieldValue.isAbove_indexTerm (hv' ▸ hlower),
    FieldValue.isBelow_indexTerm (hv' ▸ hupper)]

include hb

/-- A value of a field's kind is planned as a term. -/
theorem exists_plan_term {field : String} {value : FieldValue}
    (h : Portable declared documents (term field value)) :
    PlannedAs engine b documents (term field value) (term field value) := by
  rw [Portable] at h
  obtain ⟨spec, hspec, hkind, hvalue⟩ := h
  have hrequire : b.require field = .ok spec.bound := hb.require_eq_ok_iff.mpr ⟨spec, hspec, rfl⟩
  have hterm : spec.bound.term value = .ok value.indexTerm :=
    BoundField.term_of_kind hvalue.symm hkind
  refine ⟨.term spec.bound value.indexTerm, ?_,
    fun d hd => selects_term hcheck hfits hspec hkind hvalue hd⟩
  rw [Plan.ofQuery, hrequire]
  change (if spec.kind = .text then _ else _) = _
  rw [if_neg hkind, hterm]
  rfl

/-- Bounds of a field's kind are planned as a range. -/
theorem exists_plan_range {field : String} {lower upper : Bound FieldValue}
    (h : Portable declared documents (range field lower upper)) :
    PlannedAs engine b documents (range field lower upper) (range field lower upper) := by
  rw [Portable] at h
  obtain ⟨spec, hspec, hkind, hlower, hupper, hopen⟩ := h
  have hrequire : b.require field = .ok spec.bound := hb.require_eq_ok_iff.mpr ⟨spec, hspec, rfl⟩
  have hbound {bound : Bound FieldValue} (h : bound.OfKind spec.kind) :
      spec.bound.bound bound = .ok (FieldValue.boundTerm bound) :=
    BoundField.bound_of_kind h hkind
  have hopen' : (FieldValue.boundTerm lower).bothOpen (FieldValue.boundTerm upper) = false := by
    rw [← hopen]
    cases lower <;> cases upper <;> rfl
  refine ⟨.range spec.bound (FieldValue.boundTerm lower) (FieldValue.boundTerm upper), ?_,
    fun d hd => selects_range hcheck hfits hspec hkind hlower hupper hd⟩
  rw [Plan.ofQuery, hrequire]
  change (spec.bound.bound lower >>= fun _ => spec.bound.bound upper >>= fun _ => _) = _
  rw [hbound hlower, hbound hupper]
  change Except.ok (if Bound.bothOpen _ _ then _ else _) = _
  rw [hopen']
  rfl

omit hfits in
/-- A text of which both analyzers find the same tokens is planned as these. -/
theorem exists_plan_matching {field text : String}
    (h : Portable declared documents (matching field text)) :
    PlannedAs engine b documents (matching field text) (matching field text) := by
  rw [Portable] at h
  obtain ⟨spec, hspec, hkind, htext, hstored⟩ := h
  obtain ⟨plan, hplan, hselects⟩ := Plan.exists_matching engine hkind text
  have hname : spec.name = field := (NameMap.find?_eq_some_iff.mp hspec).2
  have hrequire : b.require field = .ok spec.bound := hb.require_eq_ok_iff.mpr ⟨spec, hspec, rfl⟩
  refine ⟨plan, by rw [Plan.ofQuery, hrequire]; exact hplan, fun d hd => ?_⟩
  have hsame (stored : String) (h : stored ∈ (d.values field).filterMap FieldValue.asString?) :
      Text.SameTokens stored := by
    obtain ⟨v, hv, hasString⟩ := List.mem_filterMap.mp h
    have hkind' := (Declarations.kind_of_check (hcheck d hd) hspec hv).trans hkind
    cases v with
    | text t => exact Option.some.inj hasString ▸ hstored d hd t hv
    | long | double | keyword => contradiction
  rw [Bool.eq_iff_iff, hselects, finds_matching_iff, hname]
  simp only [List.mem_flatMap]
  refine exists_congr fun token => and_congr (htext token).symm (exists_congr fun stored => ?_)
  exact and_congr_right fun h => (hsame stored h token).symm

end Leaves

mutual

/-- **The plan of a query selects the documents that the query finds.** -/
theorem exists_plan (hb : b.Serve declared)
    (hcheck : ∀ d ∈ documents, declared.check d = .ok ()) (hfits : ∀ d ∈ documents, d.Fits) :
    ∀ {query : Query}, Portable declared documents query → PlannedAs engine b documents query query
  | .all, _ => by
    refine ⟨.all, by rw [Plan.ofQuery], fun d _ => ?_⟩
    rw [engine.selects_all, finds, score]
    rfl
  | .term .., h => exists_plan_term hb hcheck hfits h
  | .range .., h => exists_plan_range hb hcheck hfits h
  | .matching .., h => exists_plan_matching hb hcheck h
  | .boolean must should mustNot, h => by
    rw [Portable] at h
    obtain ⟨must', hmust, hmust'⟩ := exists_plans hb hcheck hfits h.1
    obtain ⟨should', hshould, hshould'⟩ := exists_plans hb hcheck hfits h.2.1
    obtain ⟨mustNot', hmustNot, hmustNot'⟩ := exists_plans hb hcheck hfits h.2.2
    refine ⟨.clauses must' should' mustNot', ?_, fun d hd => ?_⟩
    · rw [Plan.ofQuery, hmust, hshould, hmustNot]
      rfl
    · rw [engine.selects_clauses_eq, finds_boolean, hmust' d hd, hshould' d hd, hmustNot' d hd]
  | .boost query factor, h => by
    rw [Portable] at h
    obtain ⟨plan, hplan, hselects⟩ := exists_plan hb hcheck hfits h
    refine ⟨.boost plan factor, by rw [Plan.ofQuery, hplan]; rfl, fun d hd => ?_⟩
    rw [engine.selects_boost, hselects d hd, finds, finds, score, Option.isSome_map]

/-- The plans of a list of queries select what the queries find, one by one. -/
theorem exists_plans (hb : b.Serve declared)
    (hcheck : ∀ d ∈ documents, declared.check d = .ok ()) (hfits : ∀ d ∈ documents, d.Fits) :
    ∀ {queries : List Query}, AllPortable declared documents queries →
      ∃ plans, Plan.ofQueries b queries = .ok plans ∧
        ∀ d ∈ documents, plans.map (engine.selects · d) = queries.map (finds d)
  | [], _ => ⟨[], by rw [Plan.ofQueries], fun _ _ => rfl⟩
  | query :: rest, h => by
    rw [AllPortable] at h
    obtain ⟨plan, hplan, hselects⟩ := exists_plan hb hcheck hfits h.1
    obtain ⟨plans, hplans, hrest⟩ := exists_plans hb hcheck hfits h.2
    refine ⟨plan :: plans, by rw [Plan.ofQueries, hplan, hplans]; rfl, fun d hd => ?_⟩
    rw [List.map_cons, List.map_cons, hselects d hd, hrest d hd]

end

/-! ## Queries that are planned as others -/

/-- A factor has no part in what is found. -/
theorem finds_boosted (d : Document) (query : Query) (factor : Single) :
    finds d (query.boosted factor) = finds d query := by
  rw [boosted]
  split
  · rfl
  · rw [finds, finds, score, Option.isSome_map]

/-- A factor changes the plan, but not what it selects. -/
theorem exists_ofQuery_boosted (engine : Engine) {query : Query} {plan : Plan}
    (h : Plan.ofQuery b query = .ok plan) (factor : Single) :
    ∃ boosted, Plan.ofQuery b (query.boosted factor) = .ok boosted ∧
      ∀ d, engine.selects boosted d = engine.selects plan d := by
  rw [boosted]
  split
  · exact ⟨plan, h, fun _ => rfl⟩
  · exact ⟨.boost plan factor, by rw [Plan.ofQuery, h]; rfl, engine.selects_boost plan factor⟩

namespace PlannedAs

variable {query other : Query}

theorem congr (h : PlannedAs engine b documents query other) {other' : Query}
    (hfinds : ∀ d ∈ documents, finds d other = finds d other') :
    PlannedAs engine b documents query other' := by
  obtain ⟨plan, hplan, hselects⟩ := h
  exact ⟨plan, hplan, fun d hd => (hselects d hd).trans (hfinds d hd)⟩

/-- A factor has no part in what is planned. -/
theorem boosted (h : PlannedAs engine b documents query other) (factor : Single) :
    PlannedAs engine b documents (query.boosted factor) other := by
  obtain ⟨plan, hplan, hselects⟩ := h
  obtain ⟨boosted, hboosted, hsame⟩ := exists_ofQuery_boosted engine hplan factor
  exact ⟨boosted, hboosted, fun d hd => (hsame d).trans (hselects d hd)⟩

/-- A query that is planned as itself is so with a factor. -/
theorem boosted_both (h : PlannedAs engine b documents query query) (factor : Single) :
    PlannedAs engine b documents (query.boosted factor) (query.boosted factor) :=
  (h.boosted factor).congr fun d _ => (finds_boosted d query factor).symm

end PlannedAs

/-- **A range without bounds is planned as all documents**, be there a value or not. -/
theorem plannedAs_all (hb : b.Serve declared) {field : String} {spec : FieldSpec}
    (hspec : declared.find? field = some spec) :
    PlannedAs engine b documents (range field .unbounded .unbounded) all := by
  have hrequire : b.require field = .ok spec.bound := hb.require_eq_ok_iff.mpr ⟨spec, hspec, rfl⟩
  refine ⟨.all, by rw [Plan.ofQuery, hrequire]; rfl, fun d _ => ?_⟩
  rw [engine.selects_all, finds, score]
  rfl

variable (engine) in
/-- **A text that is sought in a keyword field is planned as one keyword.** -/
theorem plannedAs_keyword (hb : b.Serve declared)
    (hcheck : ∀ d ∈ documents, declared.check d = .ok ()) (hfits : ∀ d ∈ documents, d.Fits)
    {field : String} {spec : FieldSpec} (hspec : declared.find? field = some spec)
    (hkind : spec.kind = .keyword) (text : String) :
    PlannedAs engine b documents (matching field text) (term field (.keyword text)) := by
  have hrequire : b.require field = .ok spec.bound := hb.require_eq_ok_iff.mpr ⟨spec, hspec, rfl⟩
  have htokens : spec.bound.layout.form.tokens? = some fun text => [text] := by
    rw [FieldSpec.bound, FieldSpec.layout, hkind]
    rfl
  have hwhole : spec.kind ≠ .text := by simp [hkind]
  have hvalue : (FieldValue.keyword text).kind = spec.kind := hkind.symm
  refine ⟨.clauses [] [.term spec.bound (.text (Hex.utf8 text))] [], ?_, fun d hd => ?_⟩
  · rw [Plan.ofQuery, hrequire]
    change Plan.matching spec.bound text = _
    rw [Plan.matching, htokens]
    rfl
  · have hselects : engine.selects (.term spec.bound (.text (Hex.utf8 text))) d =
        finds d (term field (.keyword text)) := selects_term hcheck hfits hspec hwhole hvalue hd
    rw [engine.selects_clauses_eq, List.map_cons, List.map_nil, hselects]
    cases finds d (term field (.keyword text)) <;> rfl

/-! ## Queries without a plan -/

/-- A factor does not make a plan possible. -/
theorem ofQuery_boosted_of_error {query : Query} {e : Error} (h : Plan.ofQuery b query = .error e)
    (factor : Single) : Plan.ofQuery b (query.boosted factor) = .error e := by
  rw [boosted]
  split
  · exact h
  · rw [Plan.ofQuery, h]
    rfl

/-- **Numbers are not matched by tokens.** -/
theorem ofQuery_matching_of_number (hb : b.Serve declared) {field : String} {spec : FieldSpec}
    (hspec : declared.find? field = some spec) (hkind : spec.kind = .long ∨ spec.kind = .double)
    (text : String) : Plan.ofQuery b (matching field text) = .error (.notAnalyzed field) := by
  have hrequire : b.require field = .ok spec.bound := hb.require_eq_ok_iff.mpr ⟨spec, hspec, rfl⟩
  have hname : spec.name = field := (NameMap.find?_eq_some_iff.mp hspec).2
  have htokens : spec.bound.layout.form.tokens? = none := by
    rw [FieldSpec.bound, FieldSpec.layout]
    rcases hkind with hkind | hkind <;> rw [hkind] <;> rfl
  rw [Plan.ofQuery, hrequire]
  change Plan.matching spec.bound text = _
  rw [Plan.matching, htokens, FieldSpec.name_bound, hname]

/-- **Texts are not matched by bounds**: the first that has a value is refused. -/
theorem ofQuery_range_of_text (hb : b.Serve declared) {field : String} {spec : FieldSpec}
    (hspec : declared.find? field = some spec) (hkind : spec.kind = .text)
    {lower upper : Bound FieldValue} {v : FieldValue}
    (hvalue : lower.value?.or upper.value? = some v) :
    Plan.ofQuery b (range field lower upper) = .error (.unusableTerm v.display .text) := by
  have hrequire : b.require field = .ok spec.bound := hb.require_eq_ok_iff.mpr ⟨spec, hspec, rfl⟩
  have hbound {bound : Bound FieldValue} (h : bound.value? = some v) :
      spec.bound.bound bound = .error (.unusableTerm v.display .text) := by
    have hkind' : spec.bound.kind = .text := hkind
    cases bound with
    | unbounded => contradiction
    | included w | excluded w =>
      obtain rfl := Option.some.inj h
      rw [BoundField.bound, BoundField.term, if_neg fun hand => hand.2 hkind', hkind']
      rfl
  rw [Plan.ofQuery, hrequire]
  change (spec.bound.bound lower >>= fun _ => spec.bound.bound upper >>= fun _ => _) = _
  cases hlower : lower.value? with
  | none =>
    have hopen : spec.bound.bound lower = .ok .unbounded := by
      cases lower with
      | unbounded => rfl
      | included w | excluded w => contradiction
    rw [hlower, Option.none_or] at hvalue
    rw [hopen, hbound hvalue]
    rfl
  | some w =>
    rw [hlower, Option.some_or] at hvalue
    rw [hbound (hlower.trans hvalue)]
    rfl

/-! ## Plans of searches -/

/-- The plan of a search whose query and filter are planned as others selects what these find. -/
theorem exists_plan_search_of_planned {s : Search} {other : Query}
    (hquery : PlannedAs engine b documents s.query other)
    (hfilter : ∀ filter ∈ s.filter, PlannedAs engine b documents filter filter) :
    ∃ plan, Plan.ofSearch b s = .ok plan ∧
      ∀ d ∈ documents, engine.selects plan d = (finds d other && s.filter.all (finds d)) := by
  obtain ⟨plan, hplan, hselects⟩ := hquery
  rw [Plan.ofSearch, hplan]
  cases hf : s.filter with
  | none =>
    refine ⟨plan, rfl, fun d hd => ?_⟩
    rw [hselects d hd]
    exact (Bool.and_true _).symm
  | some filter =>
    obtain ⟨condition, hcondition, hselects'⟩ := hfilter filter hf
    refine ⟨.clauses [plan, .constant condition (Binary.zero false)] [] [], ?_, fun d hd => ?_⟩
    · change (Plan.ofQuery b filter >>= fun _ => _) = _
      rw [hcondition]
      rfl
    · rw [engine.selects_clauses_eq, clausesHold]
      simp only [List.map_cons, List.map_nil, engine.selects_constant, hselects d hd,
        hselects' d hd]
      simp

variable (engine) in
/-- **The plan of a search selects the documents that its query and its filter find.** -/
theorem exists_plan_search (hb : b.Serve declared)
    (hcheck : ∀ d ∈ documents, declared.check d = .ok ()) (hfits : ∀ d ∈ documents, d.Fits)
    {s : Search} (hquery : Portable declared documents s.query)
    (hfilter : ∀ filter ∈ s.filter, Portable declared documents filter) :
    ∃ plan, Plan.ofSearch b s = .ok plan ∧
      ∀ d ∈ documents, engine.selects plan d = (finds d s.query && s.filter.all (finds d)) :=
  exists_plan_search_of_planned (exists_plan hb hcheck hfits hquery) fun filter hmem =>
    exists_plan hb hcheck hfits (hfilter filter hmem)

end Query

end RowIndex
