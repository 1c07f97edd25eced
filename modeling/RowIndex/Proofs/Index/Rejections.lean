import RowIndex.Proofs.Index.BestHits
import RowIndex.Proofs.Index.Mirrors

/-!
# Proofs/Index/Rejections — both indexes refuse the same documents, and keep nothing of them

    scanned   ─────────── fields ──▸ documents
                             ‖
    inverted  ── term ── fields ──▸ writer ──▸ committed ──▸ shown

The indexes check documents each in its own way: the scanned one by its declarations, the inverted
one by the fields of a layout that may have been made for others.  Both find the first field in the
order of the document that is not declared with the kind of its value (`check_eq_error_iff`).  The
inverted index checks the term as well, which is no obstacle for a term on a declared keyword field
(`exists_deletion`).  A change that is refused leaves either index as it was.  After its checks a
change of the inverted index can fail in the engine; nothing of it is seen then, but it may be
staged (`upsert_rejected_alike`).
-/

namespace RowIndex

open SearchIndex

/-! ## Offending fields -/

/-- A field is declared with the kind of its value. -/
def Field.DeclaredIn (specs : List FieldSpec) (f : Field) : Prop :=
  ∃ spec ∈ specs, spec.name = f.name ∧ spec.kind = f.value.kind

/-- Why a field is refused: its name is not declared, or for values of another kind. -/
inductive Field.Offends (specs : List FieldSpec) (f : Field) : Error → Prop
  | undeclared : (∀ spec ∈ specs, spec.name ≠ f.name) →
      f.Offends specs (.undeclaredField f.name)
  | wrongKind {spec : FieldSpec} : spec ∈ specs → spec.name = f.name →
      spec.kind ≠ f.value.kind → f.Offends specs (.wrongKind f.name spec.kind f.value.kind)

/-- The offence of a document is that of its first field that offends. -/
def Document.Offends (specs : List FieldSpec) (d : Document) (e : Error) : Prop :=
  ∃ before f after, d.fields = before ++ f :: after ∧ (∀ g ∈ before, g.DeclaredIn specs) ∧
    f.Offends specs e

/-- Offences are errors of the index. -/
theorem Document.Offends.kind_eq {specs : List FieldSpec} {d : Document} {e : Error}
    (h : d.Offends specs e) : e.kind = .index := by
  obtain ⟨before, f, after, -, -, hoffends⟩ := h
  cases hoffends <;> rfl

namespace Declarations

variable {specs : List FieldSpec} {declared : Declarations}

section

variable (hdeclared : ofList specs = .ok declared)

include hdeclared

theorem checkField_eq_ok_iff_declaredIn {f : Field} :
    declared.checkField f = .ok () ↔ f.DeclaredIn specs := by
  obtain ⟨hnames, rfl⟩ := ofList_eq_ok_iff.mp hdeclared
  rw [checkField_eq_ok_iff, Field.DeclaredIn, exists_declared_iff hnames]

/-- The check of a field names its offence. -/
theorem checkField_eq_error_iff {f : Field} {e : Error} :
    declared.checkField f = .error e ↔ f.Offends specs e := by
  obtain ⟨hnames, rfl⟩ := ofList_eq_ok_iff.mp hdeclared
  rw [checkField]
  cases hspec : (NameMap.ofList specs).find? f.name with
  | none =>
    have hnone := (find?_ofList_eq_none_iff hnames).mp hspec
    constructor
    · intro h
      exact Except.error.inj h ▸ .undeclared hnone
    · rintro (_ | ⟨hmem, hname, -⟩)
      · rfl
      · exact (hnone _ hmem hname).elim
  | some spec =>
    obtain ⟨hmem, hname⟩ := (find?_ofList_iff hnames).mp hspec
    dsimp only
    constructor
    · intro h
      split at h
      · contradiction
      · rename_i hkind
        exact Except.error.inj h ▸ .wrongKind hmem hname hkind
    · rintro (hnone | ⟨hmem', hname', hkind⟩)
      · exact (hnone spec hmem hname).elim
      · have hfound := (find?_ofList_iff hnames).mpr ⟨hmem', hname'⟩
        rw [hspec] at hfound
        rw [Option.some.inj hfound, if_neg hkind]

/-- **The check of a document names the offence of its first offending field.** -/
theorem check_eq_error_iff {d : Document} {e : Error} :
    declared.check d = .error e ↔ d.Offends specs e := by
  rw [check, forM_eq_error_iff, Document.Offends]
  simp only [checkField_eq_ok_iff_declaredIn hdeclared, checkField_eq_error_iff hdeclared]

/-- A document with a field that is not declared with the kind of its value offends. -/
theorem exists_offence {d : Document} (h : ¬∀ f ∈ d.fields, f.DeclaredIn specs) :
    ∃ e, d.Offends specs e := by
  cases hcheck : declared.check d with
  | error e => exact ⟨e, (check_eq_error_iff hdeclared).mp hcheck⟩
  | ok u =>
    refine (h fun f hf => ?_).elim
    exact (checkField_eq_ok_iff_declaredIn hdeclared).mp (forM_eq_ok_iff.mp hcheck f hf)

end

end Declarations

/-! ## Opened indexes -/

namespace InvertedIndex

/-- **An opened index knows the declared kinds**, whatever layout it was opened with. -/
theorem knows_of_openWith {settings : Settings} {archive : Option Archive} {engine : Engine}
    {specs : List FieldSpec} {ix : InvertedIndex}
    (h : openWith settings archive engine specs = .ok ix) :
    (∃ declared, Declarations.ofList specs = .ok declared ∧ ix.bindings.Knows declared) ∧
      ix.autoCommit = settings.autoCommit ∧ ix.engine = engine := by
  cases archive with
  | none =>
    obtain ⟨hnodup, -, rfl⟩ := openWith_eq_ok_iff.mp h
    exact ⟨⟨_, Declarations.ofList_eq_ok_iff.mpr ⟨hnodup, rfl⟩,
      (Bindings.serve_ofList specs).knows⟩, rfl, rfl⟩
  | some a =>
    obtain ⟨⟨layout, bindings⟩, hbuild, h⟩ := bind_eq_ok_iff.mp h
    obtain ⟨bindings', hbind, h⟩ := bind_eq_ok_iff.mp h
    obtain ⟨ix', hix', h⟩ := bind_eq_ok_iff.mp h
    obtain rfl := Except.ok.inj hix'
    have hdeclared := Declarations.ofList_eq_ok_iff.mpr ⟨(Layout.build_eq_ok_iff.mp hbuild).1, rfl⟩
    split at h
    · obtain rfl := Except.ok.inj h
      exact ⟨⟨_, hdeclared, Layout.knows_bind hbind⟩, rfl, rfl⟩
    · contradiction

variable {ix : InvertedIndex}

/-- A term on a declared keyword field can be told to the writer. -/
theorem exists_deletion {declared : Declarations} (h : ix.bindings.Knows declared) {t : Term}
    {spec : FieldSpec} (hspec : declared.find? t.field = some spec) (hkind : spec.kind = .keyword) :
    ∃ op, ix.deletion t = .ok op := by
  have hknown := h t.field
  rw [hspec] at hknown
  obtain ⟨bound, hbound, hboundKind⟩ := Option.map_eq_some_iff.mp hknown
  have hkeyword : bound.kind = .keyword := hboundKind.trans hkind
  have hwhole : bound.kind ≠ .text := by simp [hkeyword]
  have hrequire : ix.bindings.require t.field = .ok bound := by rw [Bindings.require, hbound]
  refine ⟨.deleteTerm bound (FieldValue.keyword t.text).indexTerm, ?_⟩
  exact bind_eq_ok_iff.mpr ⟨bound, hrequire, bind_eq_ok_iff.mpr
    ⟨_, BoundField.term_of_kind hkeyword hwhole, rfl⟩⟩

/-- A change that fails shows nothing of itself. -/
theorem visible_of_perform_error {ix' : InvertedIndex} {c : Change} {e : Error}
    (h : (perform c).run ix = .error e ix') : ix'.visible = ix.visible := by
  have hends := ix.ends_perform c
  rw [h] at hends
  cases hends with
  | refused => rfl
  | untaken _ _ _ _ moves | uncommitted _ _ _ _ moves | unshown _ _ _ _ moves =>
    exact moves.visible_eq

/-- **A change that fails is one that is refused**, and leaves the index as it is, if the engine's
calls do not fail. -/
theorem eq_of_perform_error {ix' : InvertedIndex} {c : Change} {e : Error}
    (htakes : ix.engine.TakesIn) (hpublishes : ix.publishes c = true → ix.engine.Publishes)
    (h : (perform c).run ix = .error e ix') : ix' = ix := by
  cases hrequest : ix.request c with
  | error e' =>
    rw [run_perform_of_refused hrequest] at h
    exact (EStateM.Result.error.inj h).2.symm
  | ok ops =>
    obtain ⟨_, hchange⟩ := exists_change_of_request htakes hpublishes hrequest
    exact absurd ((change_eq_ok_iff.mp hchange).symm.trans h) nofun

/-- **So is a change that fails with an error that is none of the engine's calls**, whatever they
do. -/
theorem eq_of_perform_error_of_ne {ix' : InvertedIndex} {c : Change} {e : Error}
    (hne : ∀ call cause, e ≠ EngineCall.failure cause call)
    (h : (perform c).run ix = .error e ix') : ix' = ix := by
  have hends := ix.ends_perform c
  rw [h] at hends
  cases hends with
  | refused => rfl
  | @untaken _ d => exact absurd rfl (hne (.add d) _)
  | uncommitted => exact absurd rfl (hne .commit _)
  | unshown => exact absurd rfl (hne .reload _)

end InvertedIndex

/-- A change that leaves an index as it is has no part in what is done to it later. -/
theorem SearchIndex.attempts_cons_of_unchanged {ι : Type} [SearchIndex ι] {ix : ι} {c : Change}
    {e : Error} (h : (perform c).run ix = .error e ix) (later : List Change) :
    attempts ix (c :: later) = attempts ix later := by
  have hattempt : attempt ix c = ix := by rw [attempt, finalState, h]
  rw [attempts, List.foldl_cons, hattempt]
  rfl

/-- **Both indexes refuse the same documents, and what is refused leaves no trace.**  Take an
inverted index that was opened, afresh or with any archive, and a scanned one with the same
declarations, each after any changes, and a term on a declared keyword field.  Both take in a
document all of whose fields are declared with the kinds of their values, the inverted index if its
engine's calls succeed; any other document is refused by both with the same error, the offence of
its first field that offends, and both stay as they are.  Whatever the term and the engine, searches
see and count nothing of an upsert or a removal that fails.  If it is not a call of the engine that
failed, as none does if the engine takes documents in, and publishes them where every change is
committed, then the index stays as it is, with what is staged, and nothing that is done later, a
commit included, has regard to the failed change. -/
theorem upsert_rejected_alike {settings : Settings} {archive : Option Archive} {engine : Engine}
    {specs : List FieldSpec} {ix₀ : InvertedIndex} {scan₀ : ScanIndex}
    (hopen : InvertedIndex.openWith settings archive engine specs = .ok ix₀)
    (hscan : ScanIndex.ofSpecs specs = .ok scan₀) (changes changes' : List Change) :
    let ix := attempts ix₀ changes
    let scan := attempts scan₀ changes'
    let Reliable := engine.TakesIn ∧ (settings.autoCommit = true → engine.Publishes)
    (∀ (t : Term) (d : Document), (∃ spec ∈ specs, spec.name = t.field ∧ spec.kind = .keyword) →
      ((∀ f ∈ d.fields, f.DeclaredIn specs) →
        (Reliable → ∃ ix', (perform (.upsert t d)).run ix = .ok () ix') ∧
        ∃ scan', (perform (.upsert t d)).run scan = .ok () scan') ∧
      ((¬∀ f ∈ d.fields, f.DeclaredIn specs) → ∃ e, d.Offends specs e ∧ e.kind = .index ∧
        (perform (.upsert t d)).run ix = .error e ix ∧
        (perform (.upsert t d)).run scan = .error e scan)) ∧
    ∀ (c : Change) (e : Error), c.isCommit = false →
      (∀ ix', (perform c).run ix = .error e ix' →
        ix'.visible = ix.visible ∧ size ix' = size ix ∧
        (Reliable ∨ (∀ call cause, e ≠ EngineCall.failure cause call) →
          ix' = ix ∧ ∀ later, attempts ix (c :: later) = attempts ix later)) ∧
      ∀ scan', (perform c).run scan = .error e scan' →
        scan' = scan ∧ ∀ later, attempts scan (c :: later) = attempts scan later := by
  intro ix scan Reliable
  obtain ⟨⟨declared, hdeclared, hknows⟩, hauto, hengine⟩ := InvertedIndex.knows_of_openWith hopen
  have hagrees : ix₀.Agrees ix := ix₀.agrees_attempts changes
  have hknown : ix.bindings.Knows declared := hagrees.bindings ▸ hknows
  have hreliable (h : Reliable) {c : Change} (hc : c.isCommit = false) :
      ix.engine.TakesIn ∧ (ix.publishes c = true → ix.engine.Publishes) := by
    rw [hagrees.engine, hengine, InvertedIndex.publishes, hc, Bool.or_false, hagrees.autoCommit,
      hauto]
    exact h
  have hscanned : scan.declared = declared := by
    obtain ⟨declared', hdeclared', rfl⟩ := map_eq_ok_iff.mp hscan
    obtain rfl := Except.ok.inj (hdeclared.symm.trans hdeclared')
    exact congrArg ScanIndex.declared (ScanIndex.attempts_eq _ changes')
  refine ⟨fun t d hterm => ?_, fun c e hc => ⟨fun ix' hix' => ?_, fun scan' hscan' => ?_⟩⟩
  · obtain ⟨spec, hmem, hname, hkind⟩ := hterm
    obtain ⟨op, hop⟩ := InvertedIndex.exists_deletion hknown
      (hname ▸ Declarations.find?_of_ofList hdeclared hmem) hkind
    have hrequest := InvertedIndex.request_upsert hknown hop d
    have hrun : (perform (.upsert t d)).run scan = _ := scan.run_upsert t d
    rw [hrun, hscanned]
    constructor
    · intro hall
      have hcheck : declared.check d = .ok () := forM_eq_ok_iff.mpr fun f hf =>
        (Declarations.checkField_eq_ok_iff_declaredIn hdeclared).mpr (hall f hf)
      rw [hcheck] at hrequest ⊢
      refine ⟨fun h => ?_, _, rfl⟩
      obtain ⟨htakes, hpublishes⟩ := hreliable (c := .upsert t d) h rfl
      obtain ⟨ix', hix'⟩ := InvertedIndex.exists_change_of_request htakes hpublishes hrequest
      exact ⟨ix', change_eq_ok_iff.mp hix'⟩
    · intro hnot
      obtain ⟨e, he⟩ := Declarations.exists_offence hdeclared hnot
      have hcheck : declared.check d = .error e :=
        (Declarations.check_eq_error_iff hdeclared).mpr he
      rw [hcheck] at hrequest ⊢
      exact ⟨e, he, he.kind_eq, InvertedIndex.run_perform_of_refused hrequest, rfl⟩
  · have hvisible := InvertedIndex.visible_of_perform_error hix'
    refine ⟨hvisible, congrArg List.length hvisible, fun h => ?_⟩
    obtain rfl : ix' = ix := by
      rcases h with h | hne
      · obtain ⟨htakes, hpublishes⟩ := hreliable h hc
        exact InvertedIndex.eq_of_perform_error htakes hpublishes hix'
      · exact InvertedIndex.eq_of_perform_error_of_ne hne hix'
    exact ⟨rfl, attempts_cons_of_unchanged hix'⟩
  · obtain ⟨-, rfl⟩ := settle_eq_error_iff.mp (scan.run_perform c ▸ hscan')
    exact ⟨rfl, attempts_cons_of_unchanged hscan'⟩

/-- A document with a mistyped and an undeclared field is refused for the first of them.  The
document that it was to replace, and one that was staged before, are there after the next commit. -/
theorem upsert_rejected_alike_of_two_offences :
    let specs : List FieldSpec := [⟨"k", .keyword, true, false⟩, ⟨"n", .long, false, false⟩]
    let settings : Settings := { autoCommit := false }
    let d (key : String) (n : Int64) : Document := ⟨[⟨"k", .keyword key⟩, ⟨"n", .long n⟩]⟩
    let archive : Archive := ⟨.ofList (specs.map FieldSpec.layout), [d "a" 1]⟩
    let bad : Document := ⟨[⟨"k", .keyword "a"⟩, ⟨"n", .keyword "one"⟩, ⟨"m", .long 1⟩]⟩
    let staged : List Change := [.upsert ⟨"k", "b"⟩ (d "b" 2)]
    ∃ ix₀ scan₀, InvertedIndex.openWith settings (some archive) .plain specs = .ok ix₀ ∧
      ScanIndex.ofSpecs specs = .ok scan₀ ∧
      (perform (.upsert ⟨"k", "a"⟩ bad)).run (attempts ix₀ staged) =
        .error (.wrongKind "n" .long .keyword) (attempts ix₀ staged) ∧
      (perform (.upsert ⟨"k", "a"⟩ bad)).run (attempts scan₀ staged) =
        .error (.wrongKind "n" .long .keyword) (attempts scan₀ staged) ∧
      (attempts (attempts ix₀ staged) [.upsert ⟨"k", "a"⟩ bad, .commit]).visible =
        [d "a" 1, d "b" 2] := by
  intro specs settings d archive bad staged
  have hnodup : (specs.map FieldSpec.name).Nodup := by decide
  have hdeclared := Declarations.ofList_eq_ok_iff.mpr ⟨hnodup, rfl⟩
  have hopen : InvertedIndex.openWith settings (some archive) .plain specs = .ok _ :=
    InvertedIndex.openWith_archive hnodup (by decide) [d "a" 1]
  have hscan : ScanIndex.ofSpecs specs = .ok _ := map_eq_ok_iff.mpr ⟨_, hdeclared, rfl⟩
  obtain ⟨hupsert, hfailed⟩ := upsert_rejected_alike hopen hscan staged staged
  obtain ⟨e, hoffends, -, hix, hscanned⟩ :=
    (hupsert ⟨"k", "a"⟩ bad ⟨_, List.mem_cons_self, rfl, rfl⟩).2 fun hall => by
      obtain ⟨spec, hmem, hname, hkind⟩ := hall ⟨"m", .long 1⟩ (by decide)
      have hnone : ∀ spec ∈ specs, spec.name ≠ "m" := by decide
      exact hnone spec hmem hname
  have hcheck : Declarations.check (NameMap.ofList specs) bad =
      .error (.wrongKind "n" .long .keyword) := by decide +kernel
  obtain rfl := Except.error.inj
    (hcheck.symm.trans ((Declarations.check_eq_error_iff hdeclared).mpr hoffends))
  obtain ⟨-, -, hsame⟩ := (hfailed _ _ rfl).1 _ hix
  refine ⟨_, _, hopen, hscan, hix, hscanned, ?_⟩
  rw [(hsame (.inl ⟨Engine.takesIn_plain, nofun⟩)).2]
  decide +kernel

/-- If the engine takes no document in, the one that was to be replaced is gone after a commit. -/
example :
    let full : Engine := { Engine.plain with
      fault := fun _ call => match call with | .add _ => some "full" | _ => none }
    let d : Document := ⟨[⟨"k", .keyword "a"⟩]⟩
    let ix := (InvertedIndex.created { autoCommit := false } full
      [⟨"k", .keyword, true, false⟩]).holding [d]
    (attempts ix [.upsert ⟨"k", "a"⟩ d, .commit]).visible = [] := by
  decide +kernel

end RowIndex
