import RowIndex.Proofs.Index.InvertedHits
import RowIndex.Proofs.Index.Mirrors

/-!
# Proofs/Index/Visibility — what searches of the inverted index see

    told ──── commit ──▸ committed ──── reload ──▸ visible

Whatever fails, searches see what the writer was told up to some moment, what is committed is what
it was told up to a later one, and all that it was told is staged (`InvertedIndex.exists_told`); so
a change that fails in the engine can be staged in part.  If the engine takes documents in, and
commits that are made of its own accord succeed, the changes that fail are not staged: searches see
what a scanned index holds that was given the changes that succeeded, up to the last commit
(`Mirrors.attempts`).  If reloads do not fail, an index that is closed and opened again goes on from
there (`visible_eq_replay`).
-/

namespace RowIndex

open SearchIndex InvertedIndex

/-! ## Whatever fails -/

namespace InvertedIndex

/-- What the writer of an index was told, over given documents: what is shown of it, and what is
committed and not shown. -/
structure Told (ix : InvertedIndex) (documents : List Document) (shown hidden : List WriterOp) :
    Prop where
  visible : ix.visible = shown.foldl WriterOp.apply documents
  committed : ix.committed = (shown ++ hidden).foldl WriterOp.apply documents

variable {ix ix' : InvertedIndex} {documents : List Document} {shown hidden told : List WriterOp}

theorem Told.staged_eq (h : ix.Told documents shown hidden) :
    ix.staged = (shown ++ hidden ++ ix.pending).foldl WriterOp.apply documents := by
  rw [staged, Engine.replay_eq, h.committed, ← List.foldl_append]

/-- What the writer is told comes after all that it was told before. -/
theorem Told.moves (h : ix.Told documents shown hidden) {commits shows : Bool}
    (hmoves : ix.Moves ix' told commits shows) :
    ∃ shown' hidden', ix'.Told documents shown' hidden' ∧ shown <+: shown' ∧
      shown' ++ hidden' ++ ix'.pending = shown ++ hidden ++ ix.pending ++ told := by
  have hcommitted : ix'.committed = (if commits then shown ++ hidden ++ ix.pending ++ told
      else shown ++ hidden).foldl WriterOp.apply documents := by
    rw [hmoves.committed, h.staged_eq, h.committed, ← List.foldl_append]
    split <;> rfl
  cases shows with
  | true =>
    obtain rfl := hmoves.commits_of_shows rfl
    refine ⟨shown ++ hidden ++ ix.pending ++ told, [], ⟨?_, ?_⟩, ?_, ?_⟩
    · exact hmoves.visible.trans hcommitted
    · rw [List.append_nil]
      exact hcommitted
    · simp only [List.append_assoc, List.prefix_append]
    · rw [hmoves.pending, if_pos rfl, List.append_nil, List.append_nil]
  | false =>
    have hvisible : ix'.visible = shown.foldl WriterOp.apply documents :=
      hmoves.visible.trans h.visible
    cases commits with
    | true =>
      refine ⟨shown, hidden ++ ix.pending ++ told, ⟨hvisible, ?_⟩, List.prefix_rfl, ?_⟩
      · simpa only [if_true, List.append_assoc] using hcommitted
      · rw [hmoves.pending, if_pos rfl, List.append_nil, ← List.append_assoc, ← List.append_assoc]
    | false =>
      refine ⟨shown, hidden, ⟨hvisible, hcommitted⟩, List.prefix_rfl, ?_⟩
      rw [hmoves.pending]
      exact (List.append_assoc _ _ _).symm

/-- What the writer is told of changes that are attempted one after another. -/
def toldAll (ix : InvertedIndex) : List Change → List WriterOp
  | [] => []
  | c :: rest => ix.told c ++ (attempt ix c).toldAll rest

/-- What is told in attempts comes after all that was told before. -/
theorem Told.attempts (h : ix.Told documents shown hidden) (changes : List Change) :
    ∃ shown' hidden', (attempts ix changes).Told documents shown' hidden' ∧ shown <+: shown' ∧
      shown' ++ hidden' ++ (attempts ix changes).pending =
        shown ++ hidden ++ ix.pending ++ ix.toldAll changes := by
  induction changes generalizing ix shown hidden with
  | nil => exact ⟨shown, hidden, h, List.prefix_rfl, (List.append_nil _).symm⟩
  | cons c rest ih =>
    obtain ⟨_, _, hmoves, -⟩ := ix.exists_moves_attempt c
    obtain ⟨shown₁, hidden₁, h₁, hshown₁, htold₁⟩ := h.moves hmoves
    obtain ⟨shown', hidden', h', hshown', htold'⟩ := ih h₁
    refine ⟨shown', hidden', h', hshown₁.trans hshown', htold'.trans ?_⟩
    rw [htold₁, toldAll, List.append_assoc]

/-- **Whatever fails, searches see a beginning of what the writer was told**, what is committed is a
longer one, and all of it is staged. -/
theorem exists_told {settings : Settings} {engine : Engine} {specs : List FieldSpec}
    (hopen : openWith settings none engine specs = .ok ix) (changes : List Change) :
    ∃ shown hidden, (attempts ix changes).Told [] shown hidden ∧
      shown ++ hidden <+: ix.toldAll changes ∧
      (attempts ix changes).staged = (ix.toldAll changes).foldl WriterOp.apply [] := by
  obtain ⟨-, -, rfl⟩ := openWith_eq_ok_iff.mp hopen
  have hcreated : (created settings engine specs).Told [] [] [] := ⟨rfl, rfl⟩
  obtain ⟨shown, hidden, h, -, htold⟩ := hcreated.attempts changes
  have hall : shown ++ hidden ++ (attempts (created settings engine specs) changes).pending =
      (created settings engine specs).toldAll changes := htold
  exact ⟨shown, hidden, h, hall ▸ List.prefix_append _ _, hall ▸ h.staged_eq⟩

/-- **What is committed is shown**, if reloads do not fail. -/
theorem committed_attempts (hreloads : ix.engine.Reloads) (h : ix.committed = ix.visible)
    (changes : List Change) :
    (attempts ix changes).committed = (attempts ix changes).visible := by
  induction changes using List.reverseRecOn with
  | nil => exact h
  | append_singleton changes c ih =>
    rw [attempts_append_singleton]
    obtain ⟨commits, shows, hmoves, hshows⟩ := (attempts ix changes).exists_moves_attempt c
    have hsame : shows = commits := hshows ((ix.agrees_attempts changes).engine ▸ hreloads)
    rw [hmoves.visible, hsame]
    split
    · rfl
    · rename_i hcommits
      rw [hmoves.committed, if_neg hcommits, ih]

end InvertedIndex

/-! ## What searches see -/

/-- **Whatever is attempted, searches see the changes that succeeded, up to the last commit**, and
all that succeeded is staged. -/
theorem Mirrors.attempts {ix : InvertedIndex} {scan : ScanIndex} (h : Mirrors ix scan scan)
    (htakes : ix.engine.TakesIn) (hpublishes : ix.autoCommit = true → ix.engine.Publishes)
    {changes : List Change} (hfits : ∀ c ∈ changes, c.Fits) :
    ∃ visible staged,
      changeAll scan (Change.published ix.autoCommit (accepted ix changes)) = .ok visible ∧
      changeAll scan (accepted ix changes) = .ok staged ∧
      Mirrors (SearchIndex.attempts ix changes) visible staged := by
  -- From the end: only the last change tells whether what was staged before is shown.
  induction changes using List.reverseRecOn with
  | nil =>
    refine ⟨scan, scan, ?_, rfl, h⟩
    rw [Change.published]
    split <;> rfl
  | append_singleton changes c ih =>
    obtain ⟨hfits, hfit⟩ := List.forall_mem_append.mp hfits
    obtain ⟨visible, staged, hvisible, hstaged, hmirrors⟩ := ih hfits
    have hagrees := ix.agrees_attempts changes
    have hcases := (SearchIndex.attempts ix changes).attempt_cases (hagrees.engine ▸ htakes)
      (hagrees.autoCommit ▸ hagrees.engine ▸ hpublishes) c
    rw [accepted_append_singleton, attempts_append_singleton]
    rcases hcases with ⟨haccepts, hc⟩ | ⟨hrefuses, commits, hmoves⟩
    · obtain ⟨staged', hstaged', hmirrors'⟩ :=
        hmirrors.change (List.forall_mem_singleton.mp hfit) hc
      rw [InvertedIndex.publishes, hagrees.autoCommit] at hmirrors'
      have hall : changeAll scan (accepted ix changes ++ [c]) = .ok staged' := by
        rw [changeAll_append_singleton, hstaged]
        exact hstaged'
      refine ⟨_, staged', ?_, by rw [haccepts]; exact hall, hmirrors'⟩
      rw [if_pos haccepts, Change.published_append_singleton]
      split
      · exact hall
      · exact hvisible
    · rw [if_neg (by rw [hrefuses]; decide), List.append_nil]
      exact ⟨visible, staged, hvisible, hstaged, hmirrors.of_moves_nil hmoves⟩

/-! ## Opening and closing -/

/-- **Closing an index and opening it again keeps what searches see**, and drops what was staged, if
what is committed is seen. -/
theorem Mirrors.reopen {settings settings' : Settings} {engine : Engine} {specs : List FieldSpec}
    {ix₀ ix : InvertedIndex} {visible staged : ScanIndex}
    (hopen : InvertedIndex.openWith settings none engine specs = .ok ix₀) (hagrees : ix₀.Agrees ix)
    (h : Mirrors ix visible staged) (hcommitted : ix.committed = ix.visible)
    (hbudget : settings'.ramBufferBytes < writerLimit) (engine' : Engine) :
    ∃ ix₁, InvertedIndex.openWith settings' (some ix.close) engine' specs = .ok ix₁ ∧
      ix₁.Agrees (created settings' engine' specs) ∧
      ix₁.visible = ix.visible ∧ ix₁.staged = ix.visible ∧ Mirrors ix₁ visible visible := by
  obtain ⟨hnodup, -, rfl⟩ := openWith_eq_ok_iff.mp hopen
  have hserve : (created settings engine specs).bindings.Serve visible.declared :=
    hagrees.bindings ▸ h.serve
  have hstaged : ((created settings' engine' specs).holding ix.visible).staged = ix.visible :=
    staged_holding _ ix.visible
  rw [close, hagrees.layout, hcommitted]
  refine ⟨_, openWith_archive hnodup hbudget ix.visible, ⟨rfl, rfl, rfl, rfl⟩, rfl, hstaged, ?_⟩
  exact
    { holds := ⟨hserve, h.holds.check_visible, h.holds.check_visible,
        by rw [hstaged]; exact h.holds.check_visible⟩
      declared := rfl
      visible_eq := h.visible_eq
      staged_eq := hstaged.trans h.visible_eq }

/-- **Searches see a replay of the changes that succeeded, up to the last commit.**  Whatever fails,
searches see a beginning of what the writer was told, and all of it is staged.  Now take an engine
that takes documents in, and whose commits succeed where every change is committed; changes may be
refused, and a commit that is asked for may fail.  After any attempts at changes, by terms that the
engine can find, what searches see and the index counts is what a scanned index holds that was given
the changes that succeeded, up to the last commit: a search for all documents finds them all, and no
search finds others.  What is staged is what a scanned index holds that was given all changes that
succeeded, and a change that fails alters neither.  If reloads do not fail, an index that is closed
and opened again shows the same and has nothing staged, and its own changes follow on those that
were visible. -/
theorem visible_eq_replay {settings : Settings} {engine : Engine} {specs : List FieldSpec}
    {ix₀ : InvertedIndex} (hopen : InvertedIndex.openWith settings none engine specs = .ok ix₀)
    (changes : List Change) :
    let ix := attempts ix₀ changes
    (∃ shown hidden, ix.Told [] shown hidden ∧ shown ++ hidden <+: ix₀.toldAll changes ∧
      ix.staged = (ix₀.toldAll changes).foldl WriterOp.apply []) ∧
    (engine.TakesIn → (settings.autoCommit = true → engine.Publishes) → (∀ c ∈ changes, c.Fits) →
      ∃ scan₀ scan staged, ScanIndex.ofSpecs specs = .ok scan₀ ∧
        changeAll scan₀ (Change.published settings.autoCommit (accepted ix₀ changes)) = .ok scan ∧
        changeAll scan₀ (accepted ix₀ changes) = .ok staged ∧
        (ix.visible = scan.documents ∧ size ix = size scan ∧ ix.staged = staged.documents) ∧
        ((∀ s found, ix.best s = .ok found → ∀ f ∈ found, f.1 ∈ scan.documents) ∧
          ∀ s : Search, s.query = .all → s.filter = none → size ix ≤ s.limit →
            ∃ found, ix.best s = .ok found ∧ (found.map Prod.fst).Perm scan.documents) ∧
        (∀ c, accepts ix c = false →
          (attempt ix c).visible = ix.visible ∧ (attempt ix c).staged = ix.staged) ∧
        (engine.Reloads → ∀ (settings' : Settings) (engine' : Engine),
          settings'.ramBufferBytes < writerLimit → engine'.TakesIn →
          (settings'.autoCommit = true → engine'.Publishes) →
          ∃ ix₁, InvertedIndex.openWith settings' (some ix.close) engine' specs = .ok ix₁ ∧
            ix₁.visible = ix.visible ∧ ix₁.staged = ix.visible ∧
            ∀ changes' : List Change, (∀ c ∈ changes', c.Fits) → ∃ scan',
              changeAll scan (Change.published settings'.autoCommit (accepted ix₁ changes')) =
                .ok scan' ∧ (attempts ix₁ changes').visible = scan'.documents)) := by
  intro ix
  refine ⟨exists_told hopen changes, fun htakes hpublishes hfits => ?_⟩
  obtain ⟨scan₀, hscan₀, hmirrors₀⟩ := Mirrors.openWith hopen
  have hcreated : ix₀ = created settings engine specs := (openWith_eq_ok_iff.mp hopen).2.2
  have hauto : ix₀.autoCommit = settings.autoCommit := hcreated ▸ rfl
  have hengine : ix₀.engine = engine := hcreated ▸ rfl
  have htakes₀ : ix₀.engine.TakesIn := hengine ▸ htakes
  have hpublishes₀ : ix₀.autoCommit = true → ix₀.engine.Publishes := hauto ▸ hengine ▸ hpublishes
  obtain ⟨scan, staged, hscan, hstaged, hmirrors⟩ := hmirrors₀.attempts htakes₀ hpublishes₀ hfits
  have hagrees : ix₀.Agrees ix := ix₀.agrees_attempts changes
  have hvisible : ix.visible = scan.documents := hmirrors.visible_eq
  refine ⟨scan₀, scan, staged, hscan₀, hauto ▸ hscan, hstaged,
    ⟨hvisible, congrArg List.length hvisible, hmirrors.staged_eq⟩, ⟨?_, ?_⟩, ?_, ?_⟩
  · exact fun s found hbest f hf => hvisible ▸ (mem_of_best hbest hf).1
  · exact fun s hquery hfilter hlimit => hvisible ▸ exists_best_all hquery hfilter hlimit
  · exact fun c hfails => unaltered_of_fails (hagrees.engine ▸ htakes₀)
      (hagrees.autoCommit ▸ hagrees.engine ▸ hpublishes₀) hfails
  · intro hreloads settings' engine' hbudget htakes' hpublishes'
    have hcommitted : ix.committed = ix.visible :=
      committed_attempts (hengine ▸ hreloads) (hcreated ▸ rfl) changes
    obtain ⟨ix₁, hix₁, hagrees₁, hvisible₁, hstaged₁, hmirrors₁⟩ :=
      hmirrors.reopen hopen hagrees hcommitted hbudget engine'
    have hauto₁ : settings'.autoCommit = ix₁.autoCommit := hagrees₁.autoCommit
    have hengine₁ : engine' = ix₁.engine := hagrees₁.engine
    refine ⟨ix₁, hix₁, hvisible₁, hstaged₁, fun changes' hfits' => ?_⟩
    obtain ⟨scan', _, hscan', -, hmirrors'⟩ :=
      hmirrors₁.attempts (hengine₁ ▸ htakes') (hauto₁ ▸ hengine₁ ▸ hpublishes') hfits'
    exact ⟨scan', hauto₁ ▸ hscan', hmirrors'.visible_eq⟩

/-- Of a batch that was committed, and one that was not, searches see the first; refused changes
have no part in either. -/
theorem visible_eq_replay_of_two_batches :
    let specs : List FieldSpec := [⟨"k", .keyword, true, false⟩, ⟨"n", .long, false, false⟩]
    let settings : Settings := { autoCommit := false }
    let d (key : String) (n : Int64) : Document := ⟨[⟨"k", .keyword key⟩, ⟨"n", .long n⟩]⟩
    let changes : List Change :=
      [.upsert ⟨"k", "a"⟩ (d "a" 1), .upsert ⟨"k", "b"⟩ ⟨[⟨"n", .keyword "b"⟩]⟩,
        .upsert ⟨"k", "b"⟩ (d "b" 2), .upsert ⟨"k", "a"⟩ (d "a" 3), .commit, .delete ⟨"k", "a"⟩,
        .delete ⟨"n", "2"⟩]
    ∃ ix₀ scan₀ scan, InvertedIndex.openWith settings none .plain specs = .ok ix₀ ∧
      ScanIndex.ofSpecs specs = .ok scan₀ ∧
      changeAll scan₀ (Change.published false (accepted ix₀ changes)) = .ok scan ∧
      (accepted ix₀ changes).length = 5 ∧
      (attempts ix₀ changes).visible = scan.documents ∧ scan.documents = [d "b" 2, d "a" 3] ∧
      (attempts ix₀ changes).staged = [d "b" 2] := by
  intro specs settings d changes
  have hopen : InvertedIndex.openWith settings none .plain specs = .ok _ :=
    openWith_eq_ok_iff.mpr ⟨by decide, by decide, rfl⟩
  have hfits : ∀ c ∈ changes, c.Fits := by decide +kernel
  obtain ⟨-, hreplay⟩ := visible_eq_replay hopen changes
  obtain ⟨scan₀, scan, staged, hscan₀, hscan, -, ⟨hvisible, -⟩, -⟩ :=
    hreplay Engine.takesIn_plain nofun hfits
  refine ⟨_, scan₀, scan, hopen, hscan₀, hscan, ?_, hvisible, ?_, ?_⟩
  · decide +kernel
  · rw [← hvisible]
    decide +kernel
  · decide +kernel

end RowIndex
