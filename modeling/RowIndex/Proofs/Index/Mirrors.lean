import RowIndex.Proofs.Index.Steps
import RowIndex.Proofs.Index.Terms

/-!
# Proofs/Index/Mirrors — an inverted index stands for scanned ones

    visible ── told ──▸ staged
       ‖                   ‖
    scanned             scanned ── change ──▸ scanned

An inverted index stands for two scanned ones: the documents that it shows are those of the first,
and those that it will show after the next commit are those of the second (`Mirrors`).  A change
that succeeds is accepted by the second, which again it stands for; whether the first follows is a
question of commits alone (`Mirrors.change`).  This needs terms that the engine can find; whatever
the terms, the index holds documents that passed the check (`InvertedIndex.Holds`).
-/

namespace RowIndex

open SearchIndex

/-! ## Checks -/

namespace InvertedIndex

/-- The inverted index checks the fields of a document as the declarations do: it needs to know
their kinds only. -/
theorem checkField_eq {ix : InvertedIndex} {declared : Declarations}
    (h : ix.bindings.Knows declared) (f : Field) : ix.checkField f = declared.checkField f := by
  have hkind := h f.name
  rw [checkField, Declarations.checkField, Bindings.require]
  cases hbound : ix.bindings.find? f.name with
  | none =>
    rw [hbound] at hkind
    rw [Option.map_eq_none_iff.mp hkind.symm]
    rfl
  | some bound =>
    rw [hbound] at hkind
    obtain ⟨spec, hspec, hkind⟩ := Option.map_eq_some_iff.mp hkind.symm
    rw [hspec]
    dsimp only
    rw [hkind]
    rfl

/-- **The inverted index checks a document as the declarations do**, with the same error. -/
theorem forM_checkField {ix : InvertedIndex} {declared : Declarations}
    (h : ix.bindings.Knows declared) (d : Document) :
    d.fields.forM ix.checkField = declared.check d := by
  rw [Declarations.check, funext (checkField_eq h)]

/-- The documents of a term are replaced if the new one passes the check. -/
theorem request_upsert {ix : InvertedIndex} {declared : Declarations}
    (h : ix.bindings.Knows declared) {t : Term} {op : WriterOp} (hop : ix.deletion t = .ok op)
    (d : Document) :
    ix.request (.upsert t d) = (declared.check d).map fun _ => [op, .addDocument d] := by
  rw [request, hop]
  change (d.fields.forM ix.checkField >>= fun _ => pure [op, .addDocument d]) = _
  rw [forM_checkField h]
  cases declared.check d <;> rfl

section Requests

variable {ix : InvertedIndex} {declared : Declarations} (h : ix.bindings.Serve declared)

include h

/-- A term is looked for in a field of keywords. -/
theorem deletion_eq_ok_iff {t : Term} {op : WriterOp} :
    ix.deletion t = .ok op ↔ ∃ spec, declared.find? t.field = some spec ∧ spec.kind = .keyword ∧
      op = .deleteTerm spec.bound (FieldValue.keyword t.text).indexTerm := by
  constructor
  · intro hop
    obtain ⟨f, key, hf, hkey, rfl⟩ := deletion_eq_ok hop
    obtain ⟨spec, hspec, rfl⟩ := h.require_eq_ok_iff.mp hf
    rw [BoundField.term] at hkey
    split at hkey
    · rename_i hkind
      exact ⟨spec, hspec, hkind.1, Except.ok.inj hkey ▸ rfl⟩
    · contradiction
  · rintro ⟨spec, hspec, hkind, rfl⟩
    have hkey : spec.bound.term (.keyword t.text) = .ok (FieldValue.keyword t.text).indexTerm :=
      BoundField.term_of_kind hkind (hkind.trans_ne nofun)
    exact bind_eq_ok_iff.mpr ⟨spec.bound, h.require_eq_ok_iff.mpr ⟨spec, hspec, rfl⟩,
      bind_eq_ok_iff.mpr ⟨_, hkey, rfl⟩⟩

/-- A document replaces those of a term on a field of keywords, if it passes the check. -/
theorem request_upsert_eq_ok_iff {t : Term} {d : Document} {ops : List WriterOp} :
    ix.request (.upsert t d) = .ok ops ↔
      ∃ op, ix.deletion t = .ok op ∧ declared.check d = .ok () ∧ ops = [op, .addDocument d] := by
  simp only [request, bind_eq_ok_iff, forM_checkField h.knows]
  exact exists_congr fun op => and_congr_right fun _ =>
    ⟨fun ⟨_, hcheck, hops⟩ => ⟨hcheck, (Except.ok.inj hops).symm⟩,
      fun ⟨hcheck, hops⟩ => ⟨(), hcheck, hops ▸ rfl⟩⟩

/-- The writer is told to add documents that passed the check. -/
theorem check_of_mem_request {c : Change} {ops : List WriterOp} (hops : ix.request c = .ok ops)
    {d : Document} (hd : .addDocument d ∈ ops) : declared.check d = .ok () := by
  cases c with
  | upsert t e =>
    obtain ⟨op, hop, hcheck, rfl⟩ := (request_upsert_eq_ok_iff h).mp hops
    obtain ⟨_, _, -, -, rfl⟩ := deletion_eq_ok hop
    obtain rfl : d = e := by simpa using hd
    exact hcheck
  | delete t =>
    obtain ⟨op, hop, hops⟩ := bind_eq_ok_iff.mp hops
    obtain ⟨_, _, -, -, rfl⟩ := deletion_eq_ok hop
    obtain rfl := Except.ok.inj hops
    simp at hd
  | commit =>
    obtain rfl := Except.ok.inj hops
    exact (List.not_mem_nil hd).elim

end Requests

/-! ## What an index holds -/

/-- An index whose documents passed the check of its declarations. -/
structure Holds (ix : InvertedIndex) (declared : Declarations) : Prop where
  serve : ix.bindings.Serve declared
  check_visible : ∀ d ∈ ix.visible, declared.check d = .ok ()
  check_committed : ∀ d ∈ ix.committed, declared.check d = .ok ()
  check_staged : ∀ d ∈ ix.staged, declared.check d = .ok ()

/-- Documents come from the writer only. -/
theorem mem_foldl_apply {ops : List WriterOp} {documents : List Document} {d : Document}
    (h : d ∈ ops.foldl WriterOp.apply documents) : d ∈ documents ∨ .addDocument d ∈ ops := by
  induction ops generalizing documents with
  | nil => exact .inl h
  | cons op rest ih =>
    rcases ih h with h | h
    · cases op with
      | deleteTerm f t => exact .inl (List.mem_filter.mp h).1
      | addDocument e =>
        refine (List.mem_append.mp h).imp_right fun h => ?_
        obtain rfl := List.mem_singleton.mp h
        exact List.mem_cons_self
    · exact .inr (List.mem_cons_of_mem _ h)

namespace Holds

variable {ix ix' : InvertedIndex} {declared : Declarations}

theorem moves (h : ix.Holds declared) {told : List WriterOp} {commits shows : Bool}
    (hmoves : ix.Moves ix' told commits shows)
    (htold : ∀ d, .addDocument d ∈ told → declared.check d = .ok ()) : ix'.Holds declared := by
  have hstaged : ∀ d ∈ ix'.staged, declared.check d = .ok () := fun d hd =>
    (mem_foldl_apply (hmoves.staged_eq ▸ hd)).elim (h.check_staged d) (htold d)
  refine ⟨hmoves.agrees.bindings ▸ h.serve, ?_, ?_, hstaged⟩
  · rw [hmoves.visible_eq]
    split
    · exact hstaged
    · exact h.check_visible
  · rw [hmoves.committed, ← hmoves.staged_eq]
    split
    · exact hstaged
    · exact h.check_committed

/-- **Whatever becomes of a change, what the index holds passed the check.** -/
theorem attempt (h : ix.Holds declared) (c : Change) :
    (SearchIndex.attempt ix c).Holds declared := by
  obtain ⟨commits, shows, hmoves, -⟩ := ix.exists_moves_attempt c
  refine h.moves hmoves fun d hd => ?_
  obtain ⟨ops, hops, hmem⟩ := exists_request_of_mem_told hd
  exact check_of_mem_request h.serve hops hmem

/-- A change that succeeds is one of an index whose documents passed the check. -/
theorem change (h : ix.Holds declared) {c : Change} (hc : SearchIndex.change ix c = .ok ix') :
    ix'.Holds declared := by
  obtain ⟨ops, hops, hmoves⟩ := exists_of_change hc
  exact h.moves hmoves fun d => check_of_mem_request h.serve hops

end Holds

end InvertedIndex

/-! ## Terms that the engine finds -/

/-- A term whose keyword the engine takes in. -/
def Term.Fits (t : Term) : Prop := (FieldValue.keyword t.text).Fits

instance : DecidablePred Term.Fits := fun t =>
  inferInstanceAs (Decidable (FieldValue.keyword t.text).Fits)

/-- A change by such a term. -/
def Change.Fits : Change → Prop
  | upsert t _ | delete t => t.Fits
  | commit => True

instance : DecidablePred Change.Fits
  | .upsert t _ | .delete t => inferInstanceAs (Decidable t.Fits)
  | .commit => .isTrue trivial

section Deletions

variable {declared : Declarations} {documents : List Document}
  (hcheck : ∀ d ∈ documents, declared.check d = .ok ()) {t : Term} {spec : FieldSpec}
  (hspec : declared.find? t.field = some spec) (hkind : spec.kind = .keyword)

include hcheck hspec hkind

/-- A document that has the engine's term is identified by the term. -/
theorem hasTerm_of_contains {d : Document} (hd : d ∈ documents)
    (h : (spec.bound.terms d).contains (FieldValue.keyword t.text).indexTerm = true) :
    d.hasTerm t = true := by
  have hmem := FieldSpec.mem_terms_iff (v := .keyword t.text) (hcheck d hd) hspec
    (hkind.trans_ne nofun) hkind.symm
  exact List.contains_iff_mem.mpr (hmem.mp (List.contains_iff_mem.mp h)).1

/-- **The writer removes the documents that a term identifies**, if the engine can find it. -/
theorem apply_deleteTerm (hfits : t.Fits) :
    WriterOp.apply documents (.deleteTerm spec.bound (FieldValue.keyword t.text).indexTerm) =
      documents.filter fun d => !d.hasTerm t := by
  -- The engine looks for a term, the scanned index for a value: on checked documents the same.
  refine List.filter_congr fun d hd => congrArg _ (Bool.eq_iff_iff.mpr ?_)
  have hmem := FieldSpec.mem_terms_iff (v := .keyword t.text) (hcheck d hd) hspec
    (hkind.trans_ne nofun) hkind.symm
  rw [List.contains_iff_mem, hmem, Document.hasTerm, List.contains_iff_mem]
  exact and_iff_left (hfits.fits_indexTerm nofun)

end Deletions

/-! ## An inverted index and the scanned ones that it stands for -/

/-- An inverted index that shows the documents of one scanned index, and after the next commit those
of another. -/
structure Mirrors (ix : InvertedIndex) (visible staged : ScanIndex) : Prop where
  holds : ix.Holds visible.declared
  declared : staged.declared = visible.declared
  visible_eq : ix.visible = visible.documents
  staged_eq : ix.staged = staged.documents

namespace Mirrors

variable {ix ix' : InvertedIndex} {visible staged : ScanIndex} {c : Change}

theorem serve (h : Mirrors ix visible staged) : ix.bindings.Serve visible.declared := h.holds.serve

theorem check_visible (h : Mirrors ix visible staged) :
    ∀ d ∈ visible.documents, visible.declared.check d = .ok () :=
  h.visible_eq ▸ h.holds.check_visible

theorem check_staged (h : Mirrors ix visible staged) :
    ∀ d ∈ staged.documents, visible.declared.check d = .ok () :=
  h.staged_eq ▸ h.holds.check_staged

/-- Without a word to the writer, nothing that is shown or staged changes. -/
theorem of_moves_nil (h : Mirrors ix visible staged) {commits : Bool}
    (hmoves : ix.Moves ix' [] commits false) : Mirrors ix' visible staged where
  holds := h.holds.moves hmoves nofun
  declared := h.declared
  visible_eq := hmoves.visible_eq.trans h.visible_eq
  staged_eq := hmoves.staged_eq.trans h.staged_eq

/-- **What a change asks the writer for, it does to what is staged.** -/
theorem exists_staged (h : Mirrors ix visible staged) (hfits : c.Fits) {ops : List WriterOp}
    (hops : ix.request c = .ok ops) :
    ∃ staged', SearchIndex.change staged c = .ok staged' ∧
      ops.foldl WriterOp.apply staged.documents = staged'.documents := by
  cases c with
  | upsert t d =>
    obtain ⟨op, hop, hcheck, rfl⟩ := (InvertedIndex.request_upsert_eq_ok_iff h.serve).mp hops
    obtain ⟨spec, hspec, hkind, rfl⟩ := (InvertedIndex.deletion_eq_ok_iff h.serve).mp hop
    refine ⟨{ staged with documents := staged.without t ++ [d] }, ?_, ?_⟩
    · rw [ScanIndex.change_upsert, h.declared, hcheck]
      rfl
    · rw [List.foldl_cons, apply_deleteTerm h.check_staged hspec hkind hfits]
      rfl
  | delete t =>
    obtain ⟨op, hop, hops⟩ := bind_eq_ok_iff.mp hops
    obtain rfl := Except.ok.inj hops
    obtain ⟨spec, hspec, hkind, rfl⟩ := (InvertedIndex.deletion_eq_ok_iff h.serve).mp hop
    exact ⟨staged.delete t, rfl, apply_deleteTerm h.check_staged hspec hkind hfits⟩
  | commit =>
    obtain rfl := Except.ok.inj hops
    exact ⟨staged, rfl, rfl⟩

/-- **A change that the inverted index accepts is one to what it has staged.** -/
theorem change (h : Mirrors ix visible staged) (hfits : c.Fits)
    (hc : SearchIndex.change ix c = .ok ix') :
    ∃ staged', SearchIndex.change staged c = .ok staged' ∧
      Mirrors ix' (if ix.publishes c then staged' else visible) staged' := by
  obtain ⟨ops, hops, hmoves⟩ := InvertedIndex.exists_of_change hc
  obtain ⟨staged', hstaged', happly⟩ := h.exists_staged hfits hops
  have hdeclared : staged'.declared = visible.declared :=
    (ScanIndex.declared_of_change hstaged').trans h.declared
  have hstaged : ix'.staged = staged'.documents := by
    rw [hmoves.staged_eq, h.staged_eq, happly]
  refine ⟨staged', hstaged', ?_⟩
  cases hpublishes : ix.publishes c with
  | true =>
    refine ⟨hdeclared ▸ h.holds.change hc, rfl, ?_, hstaged⟩
    rw [hmoves.visible_eq, hpublishes, if_pos rfl, hstaged]
    rfl
  | false =>
    refine ⟨h.holds.change hc, hdeclared, ?_, hstaged⟩
    rw [hmoves.visible_eq, hpublishes]
    exact h.visible_eq

/-- **An index that commits every change follows a scanned one**, change by change. -/
theorem follows {scan : ScanIndex} (h : Mirrors ix scan scan) (hauto : ix.autoCommit = true)
    {changes : List Change} (hfits : ∀ c ∈ changes, c.Fits)
    (hix : SearchIndex.changeAll ix changes = .ok ix') :
    ∃ scan', SearchIndex.changeAll scan changes = .ok scan' ∧ Mirrors ix' scan' scan' := by
  induction changes generalizing ix scan with
  | nil => exact ⟨scan, rfl, Except.ok.inj hix ▸ h⟩
  | cons c rest ih =>
    obtain ⟨ix₁, hc, hrest⟩ := changeAll_cons.mp hix
    obtain ⟨hfit, hfits⟩ := List.forall_mem_cons.mp hfits
    obtain ⟨scan₁, hscan₁, hmirrors⟩ := h.change hfit hc
    rw [InvertedIndex.publishes, hauto, Bool.true_or, if_pos rfl] at hmirrors
    obtain ⟨_, -, hmoves⟩ := InvertedIndex.exists_of_change hc
    obtain ⟨scan', hscan', hmirrors'⟩ :=
      ih hmirrors (hmoves.agrees.autoCommit.trans hauto) hfits hrest
    exact ⟨scan', changeAll_cons.mpr ⟨scan₁, hscan₁, hscan'⟩, hmirrors'⟩

end Mirrors

/-! ## Opened indexes -/

namespace InvertedIndex

variable {settings : Settings} {engine : Engine} {specs : List FieldSpec} {ix : InvertedIndex}

/-- The index that is created for a list of declarations. -/
def created (settings : Settings) (engine : Engine) (specs : List FieldSpec) : InvertedIndex where
  layout := .ofList (specs.map FieldSpec.layout)
  bindings := .ofList (specs.map FieldSpec.bound)
  autoCommit := settings.autoCommit
  engine := engine

/-- The index that shows given documents, with nothing staged. -/
def holding (ix : InvertedIndex) (documents : List Document) : InvertedIndex :=
  { ix with committed := documents, visible := documents, pending := [] }

theorem staged_holding (ix : InvertedIndex) (documents : List Document) :
    (ix.holding documents).staged = documents := ix.engine.replay_nil documents

/-- **An index is created for declarations whose names differ**, if the writer gets its memory. -/
theorem openWith_eq_ok_iff :
    openWith settings none engine specs = .ok ix ↔
      (specs.map FieldSpec.name).Nodup ∧ settings.ramBufferBytes < writerLimit ∧
        ix = created settings engine specs := by
  simp only [openWith, bind_eq_ok_iff, Prod.exists, Layout.build_eq_ok_iff]
  constructor
  · rintro ⟨_, _, ⟨hnodup, rfl, rfl⟩, ix', hix', h⟩
    obtain rfl := Except.ok.inj hix'
    split at h
    · exact ⟨hnodup, ‹_›, (Except.ok.inj h).symm⟩
    · contradiction
  · rintro ⟨hnodup, hbudget, rfl⟩
    exact ⟨_, _, ⟨hnodup, rfl, rfl⟩, _, rfl, if_pos hbudget⟩

/-- **An index that is opened again has its layout and what was committed.** -/
theorem openWith_archive (hnodup : (specs.map FieldSpec.name).Nodup)
    (hbudget : settings.ramBufferBytes < writerLimit) (documents : List Document) :
    openWith settings (some ⟨.ofList (specs.map FieldSpec.layout), documents⟩) engine specs =
      .ok ((created settings engine specs).holding documents) := by
  simp only [openWith, bind_eq_ok_iff, Prod.exists, Layout.build_eq_ok_iff]
  exact ⟨_, _, ⟨hnodup, rfl, rfl⟩, _, Layout.bind_ofList hnodup, _, rfl, if_pos hbudget⟩

/-- Documents that passed the check can be shown. -/
theorem holds_holding (settings : Settings) (engine : Engine) (specs : List FieldSpec)
    {documents : List Document}
    (h : ∀ d ∈ documents, Declarations.check (NameMap.ofList specs) d = .ok ()) :
    ((created settings engine specs).holding documents).Holds (NameMap.ofList specs) where
  serve := Bindings.serve_ofList specs
  check_visible := h
  check_committed := h
  check_staged := by rw [staged_holding]; exact h

end InvertedIndex

/-- **A new index stands for an empty scanned one.** -/
theorem Mirrors.openWith {settings : Settings} {engine : Engine} {specs : List FieldSpec}
    {ix : InvertedIndex} (h : InvertedIndex.openWith settings none engine specs = .ok ix) :
    ∃ scan, ScanIndex.ofSpecs specs = .ok scan ∧ Mirrors ix scan scan := by
  obtain ⟨hnodup, -, rfl⟩ := InvertedIndex.openWith_eq_ok_iff.mp h
  have hdeclared := Declarations.ofList_eq_ok_iff.mpr ⟨hnodup, rfl⟩
  refine ⟨_, map_eq_ok_iff.mpr ⟨_, hdeclared, rfl⟩, ?_⟩
  exact
    { holds := InvertedIndex.holds_holding settings engine specs nofun
      declared := rfl
      visible_eq := rfl
      staged_eq := engine.replay_nil [] }

end RowIndex
