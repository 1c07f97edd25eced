import RowIndex.Index.Inverted
import RowIndex.Proofs.Index.Changes

/-!
# Proofs/Index/Steps — how a change of the inverted index can end

    checks ──▸ writer told ──▸ committed ──▸ shown
      │            │               │           │
    refused     untaken       uncommitted   unshown   done

A change is checked first; then the writer is told, and what it was told is committed and shown, if
the change asks for that.  Each call of the engine can fail, and what was done before stays done, so
that there are five ends (`Ends`, `ends_perform`).  What the writer was told of a change is known
before (`told`), so an end is known by whether this was committed and shown (`Moves`,
`exists_moves_attempt`).  If no call fails, a change is refused or done (`attempt_cases`).
-/

namespace RowIndex

open SearchIndex

/-! ## Replays -/

/-- **A commit applies what the writer was told, in order.** -/
theorem Engine.replay_eq (engine : Engine) (documents : List Document) (ops : List WriterOp) :
    engine.replay documents ops = ops.foldl WriterOp.apply documents := by
  induction ops using List.reverseRecOn with
  | nil => exact engine.replay_nil documents
  | append_singleton ops op ih =>
    rw [engine.replay_concat, ih, List.foldl_append]
    rfl

namespace InvertedIndex

/-- The documents after the next commit. -/
def staged (ix : InvertedIndex) : List Document := ix.engine.replay ix.committed ix.pending

/-- Two indexes that were opened alike: only their documents may differ. -/
structure Agrees (ix ix' : InvertedIndex) : Prop where
  layout : ix'.layout = ix.layout
  bindings : ix'.bindings = ix.bindings
  autoCommit : ix'.autoCommit = ix.autoCommit
  engine : ix'.engine = ix.engine

theorem Agrees.refl (ix : InvertedIndex) : ix.Agrees ix := ⟨rfl, rfl, rfl, rfl⟩

theorem Agrees.trans {ix ix' ix'' : InvertedIndex} (h : ix.Agrees ix') (h' : ix'.Agrees ix'') :
    ix.Agrees ix'' :=
  ⟨h'.layout.trans h.layout, h'.bindings.trans h.bindings, h'.autoCommit.trans h.autoCommit,
    h'.engine.trans h.engine⟩

/-! ## Ends of changes -/

/-- How an index moves: its writer is told of changes, all that it was told is committed or not, and
what is committed is shown or not. -/
structure Moves (ix ix' : InvertedIndex) (told : List WriterOp) (commits shows : Bool) : Prop where
  agrees : ix.Agrees ix'
  commits_of_shows : shows = true → commits = true
  pending : ix'.pending = if commits then [] else ix.pending ++ told
  committed : ix'.committed = if commits then told.foldl WriterOp.apply ix.staged else ix.committed
  visible : ix'.visible = if shows then ix'.committed else ix.visible

theorem Moves.refl (ix : InvertedIndex) : ix.Moves ix [] false false :=
  ⟨.refl ix, id, (List.append_nil _).symm, rfl, rfl⟩

/-- What the writer is told is staged, be it committed or not. -/
theorem Moves.staged_eq {ix ix' : InvertedIndex} {told : List WriterOp} {commits shows : Bool}
    (h : ix.Moves ix' told commits shows) : ix'.staged = told.foldl WriterOp.apply ix.staged := by
  rw [staged, h.pending, h.committed, h.agrees.engine]
  cases commits with
  | true => exact ix.engine.replay_nil _
  | false => rw [staged, ix.engine.replay_eq, ix.engine.replay_eq]; exact List.foldl_append

theorem Moves.visible_eq {ix ix' : InvertedIndex} {told : List WriterOp} {commits shows : Bool}
    (h : ix.Moves ix' told commits shows) :
    ix'.visible = if shows then ix'.staged else ix.visible := by
  rw [h.visible]
  split
  · rename_i hshows
    rw [h.staged_eq, h.committed, if_pos (h.commits_of_shows hshows)]
  · rfl

/-- What a change asks the writer for, once it is checked. -/
def request (ix : InvertedIndex) : Change → Except Error (List WriterOp)
  | .upsert t d => do
    let op ← ix.deletion t
    d.fields.forM ix.checkField
    return [op, .addDocument d]
  | .delete t => do
    let op ← ix.deletion t
    return [op]
  | .commit => return []

/-- What the writer is told of a change: nothing if it is refused, and of a document that the engine
does not take in, only the removal of those that it was to replace. -/
def told (ix : InvertedIndex) (c : Change) : List WriterOp :=
  match ix.request c with
  | .error _ => []
  | .ok ops =>
    match c with
    | .upsert _ d => if (ix.engine.fault ix.calls (.add d)).isSome then ops.take 1 else ops
    | .delete _ | .commit => ops

/-- Whether a change is to be seen at once. -/
def publishes (ix : InvertedIndex) (c : Change) : Bool := ix.autoCommit || c.isCommit

/-- How a change can end. -/
inductive Ends (ix : InvertedIndex) (c : Change) : EStateM.Result Error InvertedIndex Unit → Prop
  /-- The change is made. -/
  | done {ops : List WriterOp} {ix' : InvertedIndex} (request : ix.request c = .ok ops)
    (told : ix.told c = ops) (moves : ix.Moves ix' ops (ix.publishes c) (ix.publishes c)) :
    Ends ix c (.ok () ix')
  /-- The change is refused. -/
  | refused {e : Error} (request : ix.request c = .error e) : Ends ix c (.error e ix)
  /-- The documents of the term are removed, and no document is taken in. -/
  | untaken {t : Term} {d : Document} {op : WriterOp} {cause : String} {ix' : InvertedIndex}
    (upsert : c = .upsert t d) (request : ix.request c = .ok [op, .addDocument d])
    (fault : ix.engine.fault ix.calls (.add d) = some cause) (told : ix.told c = [op])
    (moves : ix.Moves ix' [op] false false) :
    Ends ix c (.error (.documentNotAdded cause) ix')
  /-- The change is staged, and not committed. -/
  | uncommitted {ops : List WriterOp} {n : Nat} {cause : String} {ix' : InvertedIndex}
    (request : ix.request c = .ok ops) (told : ix.told c = ops) (publishes : ix.publishes c = true)
    (fault : ix.engine.fault n .commit = some cause) (moves : ix.Moves ix' ops false false) :
    Ends ix c (.error (.commitFailed cause) ix')
  /-- The change is committed, and not shown. -/
  | unshown {ops : List WriterOp} {n : Nat} {cause : String} {ix' : InvertedIndex}
    (request : ix.request c = .ok ops) (told : ix.told c = ops) (publishes : ix.publishes c = true)
    (fault : ix.engine.fault n .reload = some cause) (moves : ix.Moves ix' ops true false) :
    Ends ix c (.error (.reloadFailed cause) ix')

/-! ## Runs of changes -/

theorem run_ask (ix : InvertedIndex) (call : EngineCall) (change : InvertedIndex → InvertedIndex) :
    (ask call change).run ix =
      match ix.engine.fault ix.calls call with
      | some cause => .error (call.failure cause) { ix with calls := ix.calls + 1 }
      | none => .ok () (change { ix with calls := ix.calls + 1 }) := by
  rw [ask, EStateM.run_bind, EStateM.run_get]
  change EStateM.run (match ix.engine.fault ix.calls call with
    | some cause => throw (call.failure cause)
    | none => modify change) { ix with calls := ix.calls + 1 } = _
  cases ix.engine.fault ix.calls call <;> rfl

/-- What was told is committed, and what is committed is shown, unless one of the calls fails. -/
theorem run_refresh (ix : InvertedIndex) :
    refresh.run ix =
      match ix.engine.fault ix.calls .commit with
      | some cause => .error (.commitFailed cause) { ix with calls := ix.calls + 1 }
      | none =>
        match ix.engine.fault (ix.calls + 1) .reload with
        | some cause =>
          .error (.reloadFailed cause)
            { ix with calls := ix.calls + 2, committed := ix.staged, pending := [] }
        | none =>
          .ok () { ix with
            calls := ix.calls + 2, committed := ix.staged, visible := ix.staged,
            pending := [] } := by
  rw [refresh, EStateM.run_bind, run_ask]
  cases ix.engine.fault ix.calls .commit with
  | some cause => rfl
  | none =>
    dsimp only
    rw [run_ask]
    dsimp only
    cases ix.engine.fault (ix.calls + 1) .reload <;> rfl

theorem moves_told (ix : InvertedIndex) (n : Nat) (ops : List WriterOp) :
    ix.Moves { ix with calls := n, pending := ix.pending ++ ops } ops false false :=
  ⟨⟨rfl, rfl, rfl, rfl⟩, id, rfl, rfl, rfl⟩

/-- **After the writer was told, a change is committed and shown, or it ends before.** -/
theorem ends_of_told {ix ix' : InvertedIndex} {c : Change} {ops : List WriterOp}
    (request : ix.request c = .ok ops) (told : ix.told c = ops)
    (moves : ix.Moves ix' ops false false) :
    Ends ix c ((if ix.publishes c then refresh else pure ()).run ix') := by
  cases hpublishes : ix.publishes c with
  | false => exact .done request told (hpublishes ▸ moves)
  | true =>
    have hpending : ix'.pending = ix.pending ++ ops := moves.pending
    have hstaged : ix'.staged = ops.foldl WriterOp.apply ix.staged := moves.staged_eq
    rw [if_pos rfl, run_refresh]
    split
    · rename_i fault
      exact .uncommitted request told hpublishes (moves.agrees.engine ▸ fault)
        ⟨{ moves.agrees with }, id, hpending, moves.committed, moves.visible⟩
    split
    · rename_i fault
      exact .unshown request told hpublishes (moves.agrees.engine ▸ fault)
        ⟨{ moves.agrees with }, nofun, rfl, hstaged, moves.visible⟩
    · exact .done request told (hpublishes ▸ ⟨{ moves.agrees with }, id, rfl, hstaged, rfl⟩)

/-- The writer is told of a removal, which cannot fail. -/
theorem run_write_delete (ix : InvertedIndex) (f : BoundField) (key : IndexTerm) :
    (write [.deleteTerm f key]).run ix = (if ix.autoCommit then refresh else pure ()).run
      { ix with pending := ix.pending ++ [.deleteTerm f key] } := rfl

/-- The writer is told of a removal and of an addition, which can fail. -/
theorem run_write_upsert (ix : InvertedIndex) (f : BoundField) (key : IndexTerm) (d : Document) :
    (write [.deleteTerm f key, .addDocument d]).run ix =
      match ix.engine.fault ix.calls (.add d) with
      | some cause =>
        .error (.documentNotAdded cause)
          { ix with calls := ix.calls + 1, pending := ix.pending ++ [.deleteTerm f key] }
      | none => (if ix.autoCommit then refresh else pure ()).run
          { ix with
            calls := ix.calls + 1
            pending := ix.pending ++ [.deleteTerm f key] ++ [.addDocument d] } := by
  have hask := run_ask { ix with pending := ix.pending ++ [.deleteTerm f key] } (.add d)
    fun ix => { ix with pending := ix.pending ++ [.addDocument d] }
  dsimp only at hask
  change EStateM.run ((ask (.add d) fun ix => { ix with pending := ix.pending ++ [.addDocument d] })
      >>= (fun _ => pure ())
      >>= fun _ => get >>= fun ix => if ix.autoCommit then refresh else pure ())
    { ix with pending := ix.pending ++ [.deleteTerm f key] } = _
  rw [EStateM.run_bind, EStateM.run_bind, hask]
  cases ix.engine.fault ix.calls (.add d) <;> rfl

/-- A term is removed by its field and its keyword. -/
theorem deletion_eq_ok {ix : InvertedIndex} {t : Term} {op : WriterOp}
    (h : ix.deletion t = .ok op) :
    ∃ f key, ix.bindings.require t.field = .ok f ∧ f.term (.keyword t.text) = .ok key ∧
      op = .deleteTerm f key := by
  obtain ⟨f, hf, h⟩ := bind_eq_ok_iff.mp h
  obtain ⟨key, hkey, h⟩ := bind_eq_ok_iff.mp h
  exact ⟨f, key, hf, hkey, (Except.ok.inj h).symm⟩

/-- A change that was told in full ends as one that is committed if every change is. -/
theorem ends_of_written {ix : InvertedIndex} {c : Change} {ops : List WriterOp}
    (hc : c.isCommit = false) (request : ix.request c = .ok ops) (told : ix.told c = ops)
    (n : Nat) :
    Ends ix c ((if ix.autoCommit then refresh else pure ()).run
      { ix with calls := n, pending := ix.pending ++ ops }) := by
  have hends := ends_of_told request told (moves_told ix n ops)
  rwa [publishes, hc, Bool.or_false] at hends

theorem ends_upsert (ix : InvertedIndex) (t : Term) (d : Document) :
    Ends ix (.upsert t d) ((upsert t d).run ix) := by
  rw [upsert, EStateM.run_bind, EStateM.run_get]
  simp only [run_bind_ofExcept]
  cases hop : ix.deletion t with
  | error e => exact .refused (bind_eq_error_iff.mpr (.inl hop))
  | ok op =>
    cases hcheck : d.fields.forM ix.checkField with
    | error e =>
      exact .refused (bind_eq_error_iff.mpr
        (.inr ⟨op, hop, bind_eq_error_iff.mpr (.inl hcheck)⟩))
    | ok u =>
      have hrequest : ix.request (.upsert t d) = .ok [op, .addDocument d] :=
        bind_eq_ok_iff.mpr ⟨op, hop, bind_eq_ok_iff.mpr ⟨u, hcheck, rfl⟩⟩
      obtain ⟨f, key, -, -, rfl⟩ := deletion_eq_ok hop
      dsimp only
      rw [run_write_upsert]
      split
      · rename_i fault
        have htold : ix.told (.upsert t d) = [.deleteTerm f key] := by simp [told, hrequest, fault]
        exact .untaken rfl hrequest fault htold (moves_told ix _ _)
      · rename_i fault
        have htold : ix.told (.upsert t d) = [.deleteTerm f key, .addDocument d] := by
          simp [told, hrequest, fault]
        rw [List.append_assoc]
        exact ends_of_written rfl hrequest htold (ix.calls + 1)

theorem ends_delete (ix : InvertedIndex) (t : Term) :
    Ends ix (.delete t) ((delete t).run ix) := by
  rw [delete, EStateM.run_bind, EStateM.run_get]
  simp only [run_bind_ofExcept]
  cases hop : ix.deletion t with
  | error e => exact .refused (bind_eq_error_iff.mpr (.inl hop))
  | ok op =>
    have hrequest : ix.request (.delete t) = .ok [op] := bind_eq_ok_iff.mpr ⟨op, hop, rfl⟩
    obtain ⟨f, key, -, -, rfl⟩ := deletion_eq_ok hop
    dsimp only
    rw [run_write_delete]
    exact ends_of_written rfl hrequest (by rw [told, hrequest]) ix.calls

theorem ends_commit (ix : InvertedIndex) : Ends ix .commit (refresh.run ix) := by
  have hpublishes : ix.publishes .commit = true := Bool.or_true _
  have hrequest : ix.request .commit = .ok [] := rfl
  have hends := ends_of_told hrequest rfl (.refl ix)
  rw [hpublishes] at hends
  exact hends

/-- **A change ends in one of five ways.** -/
theorem ends_perform (ix : InvertedIndex) (c : Change) : Ends ix c ((perform c).run ix) := by
  cases c with
  | upsert t d => exact ix.ends_upsert t d
  | delete t => exact ix.ends_delete t
  | commit => exact ix.ends_commit

/-! ## What becomes of a change -/

variable {ix ix' : InvertedIndex} {c : Change}

/-- **A change that succeeds is made as it was asked for.** -/
theorem exists_of_change (h : change ix c = .ok ix') :
    ∃ ops, ix.request c = .ok ops ∧ ix.Moves ix' ops (ix.publishes c) (ix.publishes c) := by
  have hends := ix.ends_perform c
  rw [change_eq_ok_iff.mp h] at hends
  cases hends with
  | done request _ moves => exact ⟨_, request, moves⟩

/-- A change that is refused leaves the index as it is. -/
theorem run_perform_of_refused {e : Error} (h : ix.request c = .error e) :
    (perform c).run ix = .error e ix := by
  have hrefused {ops : List WriterOp} (hops : ix.request c = .ok ops) : False := by
    rw [h] at hops
    contradiction
  have hends := ix.ends_perform c
  generalize (perform c).run ix = r at hends
  cases hends with
  | done request => exact (hrefused request).elim
  | refused request => rw [Except.error.inj (request.symm.trans h)]
  | untaken _ request => exact (hrefused request).elim
  | uncommitted request => exact (hrefused request).elim
  | unshown request => exact (hrefused request).elim

/-- **A change that is not refused succeeds**, if the engine's calls do. -/
theorem exists_change_of_request (htakes : ix.engine.TakesIn)
    (hpublishes : ix.publishes c = true → ix.engine.Publishes) {ops : List WriterOp}
    (h : ix.request c = .ok ops) : ∃ ix', change ix c = .ok ix' := by
  have hends := ix.ends_perform c
  simp only [change_eq_ok_iff]
  generalize (perform c).run ix = r at hends
  cases hends with
  | done => exact ⟨_, rfl⟩
  | refused request => exact absurd (request.symm.trans h) nofun
  | untaken _ _ fault => exact absurd (fault.symm.trans (htakes _ _)) nofun
  | uncommitted _ _ publishes fault =>
    exact absurd (fault.symm.trans ((hpublishes publishes).1 _)) nofun
  | unshown _ _ publishes fault =>
    exact absurd (fault.symm.trans ((hpublishes publishes).2 _)) nofun

/-- The writer is told of nothing but what a change asks for. -/
theorem exists_request_of_mem_told {op : WriterOp} (h : op ∈ ix.told c) :
    ∃ ops, ix.request c = .ok ops ∧ op ∈ ops := by
  rw [told] at h
  cases hrequest : ix.request c with
  | error e =>
    rw [hrequest] at h
    exact (List.not_mem_nil h).elim
  | ok ops =>
    rw [hrequest] at h
    refine ⟨ops, rfl, ?_⟩
    cases c with
    | upsert t d =>
      dsimp only at h
      split at h
      · exact List.mem_of_mem_take h
      · exact h
    | delete | commit => exact h

/-- **Whatever becomes of a change**, its part that the writer is told of is staged, and what is
committed is shown if reloads do not fail. -/
theorem exists_moves_attempt (ix : InvertedIndex) (c : Change) :
    ∃ commits shows, ix.Moves (attempt ix c) (ix.told c) commits shows ∧
      (ix.engine.Reloads → shows = commits) := by
  have hends := ix.ends_perform c
  rw [attempt, finalState]
  generalize (perform c).run ix = r at hends
  cases hends with
  | done _ told moves => exact ⟨_, _, told ▸ moves, fun _ => rfl⟩
  | refused request =>
    rw [told, request]
    exact ⟨_, _, .refl ix, fun _ => rfl⟩
  | untaken _ _ _ told moves => exact ⟨_, _, told ▸ moves, fun _ => rfl⟩
  | uncommitted _ told _ _ moves => exact ⟨_, _, told ▸ moves, fun _ => rfl⟩
  | unshown _ told _ fault moves =>
    exact ⟨_, _, told ▸ moves,
      fun hreloads => (Option.some_ne_none _ (fault.symm.trans (hreloads _))).elim⟩

/-- Attempts touch documents only. -/
theorem agrees_attempts (ix : InvertedIndex) (changes : List Change) :
    ix.Agrees (attempts ix changes) := by
  induction changes using List.reverseRecOn with
  | nil => exact .refl ix
  | append_singleton changes c ih =>
    obtain ⟨_, _, moves, -⟩ := exists_moves_attempt (attempts ix changes) c
    exact attempts_append_singleton ix changes c ▸ ih.trans moves.agrees

/-- **A change succeeds, or nothing of it is staged or shown**, if the engine takes documents in and
commits that are made of its own accord succeed. -/
theorem attempt_cases (htakes : ix.engine.TakesIn)
    (hpublishes : ix.autoCommit = true → ix.engine.Publishes) (c : Change) :
    accepts ix c = true ∧ change ix c = .ok (attempt ix c) ∨
      accepts ix c = false ∧ ∃ commits, ix.Moves (attempt ix c) [] commits false := by
  have hcommit (publishes : ix.publishes c = true)
      (hfault : ∃ n, ix.engine.fault n .commit ≠ none ∨ ix.engine.fault n .reload ≠ none) :
      ix.request c = .ok [] := by
    cases hauto : ix.autoCommit with
    | true =>
      obtain ⟨n, h | h⟩ := hfault
      · exact (h ((hpublishes hauto).1 n)).elim
      · exact (h ((hpublishes hauto).2 n)).elim
    | false =>
      rw [InvertedIndex.publishes, hauto, Bool.false_or] at publishes
      cases c with
      | upsert | delete => contradiction
      | commit => rfl
  have hends := ix.ends_perform c
  rw [accepts, change, outcome, attempt, finalState]
  generalize (perform c).run ix = r at hends
  cases hends with
  | done => exact .inl ⟨rfl, rfl⟩
  | refused => exact .inr ⟨rfl, _, .refl ix⟩
  | untaken _ _ fault => exact (Option.some_ne_none _ (fault.symm.trans (htakes _ _))).elim
  | @uncommitted ops n cause ix' request _ publishes fault moves =>
    have hops := hcommit publishes ⟨n, .inl (fault.trans_ne (Option.some_ne_none _))⟩
    obtain rfl := Except.ok.inj (request.symm.trans hops)
    exact .inr ⟨rfl, _, moves⟩
  | @unshown ops n cause ix' request _ publishes fault moves =>
    have hops := hcommit publishes ⟨n, .inr (fault.trans_ne (Option.some_ne_none _))⟩
    obtain rfl := Except.ok.inj (request.symm.trans hops)
    exact .inr ⟨rfl, _, moves⟩

/-- So a change that fails alters neither what is shown nor what is staged. -/
theorem unaltered_of_fails (htakes : ix.engine.TakesIn)
    (hpublishes : ix.autoCommit = true → ix.engine.Publishes) (hfails : accepts ix c = false) :
    (attempt ix c).visible = ix.visible ∧ (attempt ix c).staged = ix.staged := by
  rcases attempt_cases htakes hpublishes c with ⟨haccepts, -⟩ | ⟨-, _, hmoves⟩
  · exact absurd (haccepts.symm.trans hfails) nofun
  · exact ⟨hmoves.visible_eq, hmoves.staged_eq⟩

end InvertedIndex

end RowIndex
