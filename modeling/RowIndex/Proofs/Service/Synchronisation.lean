import RowIndex.Proofs.Service.Run

/-!
# Proofs/Service/Synchronisation — the index catches up with the store

Writers store mutations and bring their rows up to date, in any order among them.  Whatever a late,
early, repeated or failed call has seen, once every stored mutation has been followed by its own
call the index holds exactly the documents of the live rows (`documentsOf_of_followed`).

    stored k m ── … ──▸ indexed k m        the row is read when it is indexed, not when it is stored

As long as the document of a key is not the one its row asks for, a call that will mend it is still
to come (`Pending`): any call if the row is live, and one with a deletion if it is gone, for only a
deletion can have ended its life.
-/

namespace RowIndex.Service

/-! ## Histories -/

/-- A step of a writer. -/
inductive Event where
  /-- A mutation is applied to the store. -/
  | stored (bytes : Bytes) (m : Mutation)
  /-- The row of a mutation is brought up to date. -/
  | indexed (bytes : Bytes) (m : Mutation)
  deriving DecidableEq

/-- The call of a step: rows are read with all their cells. -/
def Event.call : Event → Call
  | stored bytes m => .apply bytes m
  | indexed bytes m => .reindex bytes m Int64.maxValue

/-- Every mutation that is stored has its row brought up to date at a later step. -/
def Followed : List Event → Prop
  | [] => True
  | .stored bytes m :: rest => .indexed bytes m ∈ rest ∧ Followed rest
  | .indexed _ _ :: rest => Followed rest

instance decidableFollowed : ∀ history : List Event, Decidable (Followed history)
  | [] => .isTrue trivial
  | .stored bytes m :: rest =>
    have := decidableFollowed rest
    inferInstanceAs (Decidable (.indexed bytes m ∈ rest ∧ Followed rest))
  | .indexed _ _ :: rest => decidableFollowed rest

/-! ## What is still to come -/

/-- The documents of a key are those its row asks for, or a call that will mend them is still to
come. -/
structure Pending (s : Service ScanIndex) (rest : List Event) (bytes : Bytes) : Prop where
  live : ∀ r d, s.store.liveRow? (s.store.place bytes) Int64.maxValue = some r →
    s.document r = .ok d → s.documentsOf bytes = [d] ∨ ∃ m, Event.indexed bytes m ∈ rest
  gone : s.store.liveRow? (s.store.place bytes) Int64.maxValue = none →
    s.documentsOf bytes = [] ∨ ∃ m, m.isDeletion = true ∧ Event.indexed bytes m ∈ rest

namespace Pending

variable {s : Service ScanIndex} {rest : List Event} {bytes : Bytes}

/-- What is pending for a key depends on its row and its documents alone. -/
theorem congr {s' : Service ScanIndex} {rest' : List Event} (h : s.Pending rest bytes)
    (hagrees : s.Agrees s')
    (hrow : s'.store.liveRow? (s.store.place bytes) Int64.maxValue =
      s.store.liveRow? (s.store.place bytes) Int64.maxValue)
    (hdocuments : s'.documentsOf bytes = s.documentsOf bytes)
    (hrest : ∀ m, Event.indexed bytes m ∈ rest → Event.indexed bytes m ∈ rest') :
    s'.Pending rest' bytes := by
  constructor
  · intro r d hlive hd
    rw [hagrees.place, hrow] at hlive
    rw [hagrees.document] at hd
    rw [hdocuments]
    exact (h.live r d hlive hd).imp_right fun ⟨m, hm⟩ => ⟨m, hrest m hm⟩
  · intro hgone
    rw [hagrees.place, hrow] at hgone
    rw [hdocuments]
    exact (h.gone hgone).imp_right fun ⟨m, hdeletes, hm⟩ => ⟨m, hdeletes, hrest m hm⟩

/-- Storing a mutation of a key leaves its own call to come. -/
theorem stored {m : Mutation} (h : s.Pending (.stored bytes m :: rest) bytes)
    (hfollowed : Event.indexed bytes m ∈ rest) : (s.apply bytes m).Pending rest bytes where
  live _ _ _ _ := Or.inr ⟨m, hfollowed⟩
  gone hgone := by
    by_cases hm : m.isDeletion = true
    · exact Or.inr ⟨m, hm, hfollowed⟩
    · -- The mutation ended no life, so the row was gone before.
      have hbefore : s.store.liveRow? (s.store.place bytes) Int64.maxValue = none := by
        rw [← Option.not_isSome_iff_eq_none]
        intro hlive
        have hstill := Store.isSome_liveRow?_apply (Bool.eq_false_iff.mpr hm) hlive
        exact Option.not_isSome_iff_eq_none.mpr hgone hstill
      refine (h.gone hbefore).imp_right fun ⟨m', hdeletes, hmem⟩ => ⟨m', hdeletes, ?_⟩
      exact (List.mem_cons.mp hmem).resolve_left nofun

/-- A call brings the documents of its key up to date, unless it has nothing to do. -/
theorem indexed (hs : s.Sound) {m : Mutation} (h : s.Pending (.indexed bytes m :: rest) bytes) :
    (s.call (.reindex bytes m Int64.maxValue)).Pending rest bytes := by
  have hdocuments := hs.documentsOf_reindex bytes m Int64.maxValue bytes
  have hagrees := (hs.call (.reindex bytes m Int64.maxValue)).2
  rw [if_pos rfl] at hdocuments
  constructor
  · intro r d hrow hd
    rw [store_call_reindex hs.toOpened] at hrow
    rw [hagrees.document] at hd
    simp only [hrow, hd] at hdocuments
    exact Or.inl hdocuments
  · intro hrow
    rw [store_call_reindex hs.toOpened] at hrow
    simp only [hrow] at hdocuments
    rw [hdocuments]
    by_cases hm : m.isDeletion = true
    · exact Or.inl (if_pos hm)
    · refine (h.gone hrow).imp (fun hnil => (if_neg hm).trans hnil) fun ⟨m', hdeletes, hmem⟩ => ?_
      rcases List.mem_cons.mp hmem with heq | hmem
      · cases heq
        contradiction
      · exact ⟨m', hdeletes, hmem⟩

/-- **Every step keeps what is pending**, be it a step of the same key or of another. -/
theorem step (hs : s.Sound) {e : Event} (hfollowed : Followed (e :: rest))
    (h : s.Pending (e :: rest) bytes) : (s.call e.call).Pending rest bytes := by
  cases e with
  | stored b m =>
    by_cases hb : bytes = b
    · subst hb
      exact h.stored hfollowed.1
    · refine h.congr (hs.call _).2 (Store.liveRow?_apply_of_ne hb m _) rfl fun m' hmem => ?_
      exact (List.mem_cons.mp hmem).resolve_left nofun
  | indexed b m =>
    by_cases hb : bytes = b
    · subst hb
      exact h.indexed hs
    · refine h.congr (hs.call _).2 ?_ ?_ fun m' hmem => ?_
      · rw [Event.call, store_call_reindex hs.toOpened]
      · rw [Event.call, hs.documentsOf_reindex, if_neg hb]
      · refine (List.mem_cons.mp hmem).resolve_left fun heq => hb ?_
        exact (Event.indexed.inj heq).1

/-- What is pending is kept until nothing is to come. -/
theorem run (hs : s.Sound) (h : s.Pending rest bytes) (hfollowed : Followed rest) :
    (s.run (rest.map Event.call)).Pending [] bytes := by
  induction rest generalizing s with
  | nil => exact h
  | cons e rest ih =>
    have htail : Followed rest := by
      cases e with
      | stored b m => exact hfollowed.2
      | indexed b m => exact hfollowed
    exact ih (hs.call e.call).1 (h.step hs hfollowed) htail

end Pending

/-- **The index catches up with the store.**  Once every stored mutation has been followed by its
own call, the documents of a key are the document of its row if that is live, and none if it is
gone. -/
theorem documentsOf_of_followed {d : Definition} {t : Table} {p : Partitioner}
    {s : Service ScanIndex} (hopen : openScan d t { partitioner := p } = .ok s)
    {history : List Event} (hfollowed : Followed history) (bytes : Bytes) :
    let s' := s.run (history.map Event.call)
    let row? := s'.store.read (s'.store.place bytes) Int64.maxValue
    (∀ r doc, row? = some r → r.isEmpty = false → s'.document r = .ok doc →
      s'.documentsOf bytes = [doc]) ∧
    ((∀ r, row? = some r → r.isEmpty = true) → s'.documentsOf bytes = []) := by
  intro s' row?
  have hs := sound_openScan hopen (Store.wellPlaced_empty p)
  have hstart : s.Pending history bytes := by
    constructor
    · intro r doc hrow
      rw [store_openScan hopen, Store.liveRow?_empty] at hrow
      contradiction
    · exact fun _ => Or.inl (documentsOf_openScan hopen bytes)
  obtain ⟨hlive, hgone⟩ := hstart.run hs hfollowed
  constructor
  · intro r doc hread hne hdoc
    have hrow := Store.liveRow?_eq_some_iff.mpr ⟨hread, hne⟩
    exact (hlive r doc hrow hdoc).resolve_right fun ⟨m, hm⟩ => List.not_mem_nil hm
  · intro hempty
    refine (hgone ?_).resolve_right fun ⟨m, _, hm⟩ => List.not_mem_nil hm
    refine Option.eq_none_iff_forall_ne_some.mpr fun r hrow => ?_
    obtain ⟨hread, hne⟩ := Store.liveRow?_eq_some_iff.mp hrow
    rw [hempty r hread] at hne
    contradiction

/-- A row is wiped, and the write that it had before is indexed last; another row stays. -/
theorem documentsOf_after_late_call :
    let wipe : Mutation := { deletion := some ⟨20⟩ }
    let history : List Event := [.stored [1] (sampleWrite 7 10), .stored [2] (sampleWrite 8 10),
      .stored [1] wipe, .indexed [1] wipe, .indexed [2] (sampleWrite 8 10),
      .indexed [1] (sampleWrite 7 10)]
    openScan sampleDefinition sampleTable { partitioner := .byteOrdered } = .ok sample ∧
      Followed history ∧ (sample.run (history.map Event.call)).documentsOf [1] = [] ∧
      (sample.run (history.map Event.call)).documentsOf [2] =
        [⟨[⟨tokenField, .keyword "02"⟩, ⟨keyField, .keyword "02"⟩, ⟨"n", .long 8⟩]⟩] := by
  intro wipe history
  have hfollowed : Followed history := by decide
  refine ⟨openScan_sample, hfollowed, ?_, ?_⟩
  · refine (documentsOf_of_followed openScan_sample hfollowed [1]).2
      ((Option.all_eq_true _ _).mp ?_)
    decide +kernel
  · refine (documentsOf_of_followed openScan_sample hfollowed [2]).1
      (.ofMap ⟨.byteOrdered [2], [2]⟩ (.ofList [⟨"n", some (.int 8), 10⟩])) _ ?_ ?_ ?_ <;>
    decide +kernel

end RowIndex.Service
