import DualStore.Proofs.InterleavedPlans
import DualStore.Proofs.StoredIdentities

/-!
# Concurrent saves

Two sessions save documents to one collection at the same time, and their calls of the store come
in any order. Between the probe of a document and the insert of those that wait, the other session
may insert the identity. Then the insert is refused: the documents in front of it are stored, those
behind it are not. Nothing is ever taken out, so all that was found stays, and the first of the two
inserts always succeeds.

* `Store.insertAll_or`, `Store.Wrote`: an insert that meets an identity, and all that was written;
* `SaveStage`, `SaveStage.work`: how far a save is, and the plan that is left of it;
* `Gathered`, `SaveStage.Holds`: what is known of the documents that wait, and at each stage;
* `Jointly`, `Jointly.advance`: what is known of both saves, and how it stays known;
* `GoesOn`, `Jointly.step`: one call of one of the saves;
* `concurrent_saves`: the main statement, by induction on the run.
-/

namespace DualStore

open Collection (fileName)

/-! ## Files that were written -/

namespace Store

variable {start s : Store} {name : String} {files : Collection.Files}

theorem sound_foldl_write (h : Collection.Sound files) {docs : List Document}
    (hdocs : ∀ doc ∈ docs, doc.Storable) :
    Collection.Sound (docs.foldl Collection.write files) := by
  induction docs generalizing files with
  | nil => exact h
  | cons doc rest ih =>
    obtain ⟨hdoc, hrest⟩ := List.forall_mem_cons.mp hdocs
    exact ih (h.write hdoc) hrest

/-- Documents of different identities are all inserted, or up to one whose identity is there. -/
theorem insertAll_or (files : Collection.Files) {docs : List Document}
    (hnodup : (docs.map Document.id).Nodup) :
    insertAll files docs = (.ok (), docs.foldl Collection.write files)
    ∨ ∃ before doc after, docs = before ++ doc :: after
      ∧ fileName doc.id ∈ Keyed.keys files
      ∧ insertAll files docs
        = (.error (.duplicateId doc.id), before.foldl Collection.write files) := by
  induction docs generalizing files with
  | nil => exact .inl rfl
  | cons doc rest ih =>
    obtain ⟨hother, hnodup⟩ := List.nodup_cons.mp hnodup
    by_cases hhas : fileName doc.id ∈ Keyed.keys files
    · have hinsert : Collection.insert files doc = .error (.duplicateId doc.id) := by
        rw [Collection.insert, if_pos (by rwa [Keyed.has_iff_mem_keys])]
      exact .inr ⟨[], doc, rest, rfl, hhas, by rw [insertAll, hinsert, List.foldl_nil]⟩
    · have hinsert : Collection.insert files doc = .ok (Collection.write files doc) := by
        rw [Collection.insert, if_neg (by rwa [Keyed.has_iff_mem_keys])]
      rw [insertAll, hinsert]
      rcases ih (Collection.write files doc) hnodup with hall | hsome
      · exact .inl hall
      · obtain ⟨before, met, after, rfl, hmet, hinserted⟩ := hsome
        refine .inr ⟨doc :: before, met, after, rfl, ?_, hinserted⟩
        rw [Collection.write, Keyed.mem_keys_put] at hmet
        rcases hmet with heq | hmet
        · rw [← Collection.fileName_inj heq] at hother
          exact absurd (List.mem_map_of_mem (List.mem_append_right _ List.mem_cons_self)) hother
        · exact hmet

/-- Documents are inserted into the files of a collection, which is created before. -/
theorem insertMany_of_insertAll (hvalid : Collection.checkName name = .ok ())
    (hshort : name.utf8ByteSize ≤ maxNameBytes) {docs : List Document}
    {result : Except StoreError Unit} (h : insertAll (s.filesOf name) docs = (result, files)) :
    s.insertMany name docs = (result, s.put name files) := by
  obtain ⟨created, hcreate, hput⟩ := s.create_eq hvalid hshort
  rw [insertMany, hcreate]
  simp only [h, hput]

/-- Whether a store is an earlier one in which documents were written to a collection in order. -/
structure Wrote (start s : Store) (name : String) (written : List Document) : Prop where
  sound : s.Sound
  here : s.filesOf name = written.foldl Collection.write (start.filesOf name)
  elsewhere : ∀ other, name ≠ other → s.filesOf other = start.filesOf other

namespace Wrote

variable {written : List Document}

theorem nothing (h : s.Sound) (name : String) : Wrote s s name [] := ⟨h, rfl, fun _ _ => rfl⟩

theorem append (h : Wrote start s name written) {more : List Document}
    (hmore : ∀ doc ∈ more, doc.Storable) :
    Wrote start (s.put name (more.foldl Collection.write (s.filesOf name))) name
      (written ++ more) where
  sound := h.sound.put name (sound_foldl_write (sound_filesOf h.sound name) hmore)
  here := by rw [filesOf_put_self, h.here, List.foldl_append]
  elsewhere := fun other hne => (filesOf_put_of_ne hne _ _).trans (h.elsewhere other hne)

theorem has_iff (h : Wrote start s name written) (id : Int) :
    s.Has name id ↔ start.Has name id ∨ id ∈ written.map Document.id := by
  rw [Has, h.here, mem_keys_foldl_write, Has]

/-- What stands behind the writes. -/
theorem overwritten (h : Wrote start s name written) (hvalid : Collection.checkName name = .ok ())
    (hwritten : ∀ doc ∈ written, doc.Storable) :
    Overwritten start s fun other => if other = name then written else [] := by
  refine overwritten_of_filesOf (fun other => ?_) (fun other hne => ?_) fun other doc hdoc => ?_
  · split
    · next heq => rw [heq, h.here]
    · next hne => exact h.elsewhere other (Ne.symm hne)
  · split at hne
    · next heq => rwa [heq]
    · exact absurd rfl hne
  · split at hdoc
    · exact hwritten doc hdoc
    · exact absurd hdoc List.not_mem_nil

end Wrote

end Store

/-- A call is answered from the store, which is afterwards as the call leaves it. -/
theorem Backend.Serves.answer {b : Backend} {s : Store} (h : b.Serves s) (client : String)
    (call : Call) : (Backend.answer client (.documents call) b).1 = (s.perform call).1
      ∧ (Backend.answer client (.documents call) b).2.Serves (s.perform call).2 := by
  have hperform : b.documents.perform call
      = ((s.perform call).1, ⟨(s.perform call).2, [], b.documents.journal ++ [call]⟩) := by
    rw [JournaledStore.perform, h.failing, if_neg (by simp), h.store]
  rw [Backend.answer, hperform]
  exact ⟨rfl, rfl, rfl⟩

/-! ## Stages of a save -/

/-- How far a save of documents is. -/
inductive SaveStage where
  /-- Some documents wait to be inserted, others are still to be looked for. -/
  | saving (pending rest : List Document)
  /-- A document was found, and is to be replaced. -/
  | replacing (doc : Document) (pending rest : List Document)
  | saved
  /-- The insert met an identity that was there. -/
  | refused (id : Int)

/-- The identities that a save has stored by its result: those of all its documents, or those in
front of the first one of the identity that was there. -/
def addedBy (docs : List Document) : Except Failure Unit → List Int
  | .ok _ => docs.map Document.id
  | .error (.document (.duplicateId id)) => (docs.map Document.id).takeWhile (· ≠ id)
  | .error _ => []

namespace SaveStage

/-- What is left of a save of a session. -/
def work (session : DocumentSession) (name : String) :
    SaveStage → Work (Except Failure Unit × DocumentSession)
  | .saving pending rest => session.call (Document.saveFrom name pending rest)
  | .replacing doc pending rest => session.call do
    askStore (.updateById name doc)
    Document.saveFrom name pending rest
  | .saved => .done (.ok (), session.record (.ok () : Except Failure Unit))
  | .refused id => .done (.error (.document (.duplicateId id)),
      session.record (.error (.document (.duplicateId id)) : Except Failure Unit))

/-- The identities that the insert at the end of a save has stored so far. -/
def added (docs : List Document) : SaveStage → List Int
  | .saving _ _ => []
  | .replacing _ _ _ => []
  | .saved => addedBy docs (.ok ())
  | .refused id => addedBy docs (.error (.document (.duplicateId id)))

/-- Whether the insert at the end of a save is still to come. -/
def isOpen : SaveStage → Bool
  | .saving _ _ => true
  | .replacing _ _ _ => true
  | .saved => false
  | .refused _ => false

theorem added_of_isOpen {stage : SaveStage} (h : stage.isOpen) (docs : List Document) :
    stage.added docs = [] := by
  cases stage with
  | saving pending rest => rfl
  | replacing doc pending rest => rfl
  | saved => cases h
  | refused id => cases h

end SaveStage

/-! ## Documents that wait -/

theorem takeWhile_append_of_mem {id : Int} {ids : List Int} (h : id ∈ ids) (more : List Int) :
    (ids ++ more).takeWhile (· ≠ id) = ids.takeWhile (· ≠ id) := by
  induction ids with
  | nil => exact absurd h List.not_mem_nil
  | cons first rest ih =>
    by_cases heq : first = id
    · simp [heq]
    · have hrest : id ∈ rest := (List.mem_cons.mp h).resolve_left (Ne.symm heq)
      simp only [List.cons_append, List.takeWhile_cons, ih hrest]

/-- What is known of the documents of a save that wait, of those that it has seen: they are new, and
stand in the order of the first of their identities; all others that it has seen are written. -/
structure Gathered (start : Store) (name : String) (written seen pending : List Document) :
    Prop where
  nodup : (pending.map Document.id).Nodup
  fresh : ∀ doc ∈ pending, ¬start.Has name doc.id
  mem : ∀ doc ∈ pending, doc ∈ seen
  settled : ∀ id ∈ seen.map Document.id,
    id ∈ written.map Document.id ∨ id ∈ pending.map Document.id
  order : ∀ before id after, pending.map Document.id = before ++ id :: after →
    (∀ early ∈ (seen.map Document.id).takeWhile (· ≠ id),
      early ∈ written.map Document.id ∨ early ∈ before)
    ∧ ∀ early ∈ before, early ∈ (seen.map Document.id).takeWhile (· ≠ id)

namespace Gathered

variable {start : Store} {name : String} {written seen pending : List Document} {doc : Document}

theorem empty (start : Store) (name : String) (written : List Document) :
    Gathered start name written [] [] :=
  ⟨List.nodup_nil, by simp, by simp, by simp, by simp⟩

/-- It stays known when more is written. -/
theorem mono (h : Gathered start name written seen pending) (more : List Document) :
    Gathered start name (written ++ more) seen pending := by
  have hmore : ∀ id ∈ written.map Document.id, id ∈ (written ++ more).map Document.id := by
    intro id hid
    rw [List.map_append]
    exact List.mem_append_left _ hid
  refine ⟨h.nodup, h.fresh, h.mem, fun id hid => (h.settled id hid).imp_left (hmore id), ?_⟩
  intro before id after hsplit
  obtain ⟨hearly, hbefore⟩ := h.order before id after hsplit
  exact ⟨fun early hmem => (hearly early hmem).imp_left (hmore early), hbefore⟩

theorem mem_seen (h : Gathered start name written seen pending) {id : Int}
    (hid : id ∈ pending.map Document.id) : id ∈ seen.map Document.id := by
  obtain ⟨doc, hdoc, rfl⟩ := List.mem_map.mp hid
  exact List.mem_map_of_mem (h.mem doc hdoc)

/-- The order of those that wait stays known when more is seen. -/
theorem order_append (h : Gathered start name written seen pending) (more : List Document)
    {before after : List Int} {id : Int}
    (hsplit : pending.map Document.id = before ++ id :: after) :
    (∀ early ∈ ((seen ++ more).map Document.id).takeWhile (· ≠ id),
      early ∈ written.map Document.id ∨ early ∈ before)
    ∧ ∀ early ∈ before, early ∈ ((seen ++ more).map Document.id).takeWhile (· ≠ id) := by
  have hid : id ∈ seen.map Document.id := h.mem_seen (by simp [hsplit])
  rw [List.map_append, takeWhile_append_of_mem hid]
  exact h.order before id after hsplit

/-- All that were seen stand in front of a document of a new identity. -/
theorem takeWhile_new (h : Gathered start name written seen pending)
    (hdoc : doc.id ∉ written.map Document.id) (hwaits : doc.id ∉ pending.map Document.id) :
    ((seen ++ [doc]).map Document.id).takeWhile (· ≠ doc.id) = seen.map Document.id := by
  have hseen : doc.id ∉ seen.map Document.id := fun hid => (h.settled _ hid).elim hdoc hwaits
  rw [List.map_append, List.takeWhile_append_of_pos]
  · simp
  · intro id hid
    exact decide_eq_true fun heq : id = doc.id => hseen (heq ▸ hid)

/-- A document that is written is seen. -/
theorem found (h : Gathered start name written seen pending)
    (hdoc : doc.id ∈ written.map Document.id) :
    Gathered start name written (seen ++ [doc]) pending := by
  refine ⟨h.nodup, h.fresh, fun other hother => List.mem_append_left _ (h.mem other hother),
    fun id hid => ?_, fun before id after hsplit => h.order_append [doc] hsplit⟩
  rw [List.map_append, List.mem_append] at hid
  rcases hid with hid | hid
  · exact h.settled id hid
  · rw [List.mem_singleton.mp hid]
    exact .inl hdoc

/-- A document that is new is seen, and waits. -/
theorem putPending (h : Gathered start name written seen pending) (hnew : ¬start.Has name doc.id)
    (hdoc : doc.id ∉ written.map Document.id) :
    Gathered start name written (seen ++ [doc]) (Document.putPending doc pending) := by
  have hids := Document.ids_putPending doc pending
  refine ⟨Document.nodup_putPending h.nodup doc, fun other hother => ?_, fun other hother => ?_,
    fun id hid => ?_, fun before id after hsplit => ?_⟩
  · rcases Document.mem_putPending hother with rfl | hother
    · exact hnew
    · exact h.fresh other hother
  · rcases Document.mem_putPending hother with rfl | hother
    · exact List.mem_append_right _ List.mem_cons_self
    · exact List.mem_append_left _ (h.mem other hother)
  · rw [List.map_append, List.mem_append] at hid
    rw [hids]
    rcases hid with hid | hid
    · refine (h.settled id hid).imp_right fun hwaits => ?_
      split
      · exact hwaits
      · exact List.mem_append_left _ hwaits
    · rw [List.mem_singleton.mp hid]
      refine .inr ?_
      split
      · next hwaits => exact hwaits
      · exact List.mem_append_right _ List.mem_cons_self
  · rw [hids] at hsplit
    split at hsplit
    · exact h.order_append [doc] hsplit
    · next hwaits =>
      -- Behind those that wait only a document of a new identity is put.
      rcases List.eq_nil_or_concat after with rfl | ⟨shorter, last, rfl⟩
      · obtain ⟨rfl, hlast⟩ := List.append_inj' hsplit rfl
        obtain rfl := List.head_eq_of_cons_eq hlast
        rw [h.takeWhile_new hdoc hwaits]
        exact ⟨h.settled, fun early => h.mem_seen⟩
      · rw [List.concat_eq_append, ← List.cons_append, ← List.append_assoc] at hsplit
        exact h.order_append [doc] (List.append_inj' hsplit rfl).1

end Gathered

/-! ## Both saves -/

/-- What is known of a save at a stage. -/
def SaveStage.Holds (start : Store) (name : String) (docs written : List Document) :
    SaveStage → Prop
  | .saving pending rest => ∃ seen, docs = seen ++ rest ∧ Gathered start name written seen pending
  | .replacing doc pending rest => ∃ seen, docs = seen ++ doc :: rest
    ∧ Gathered start name written seen pending
    ∧ (start.Has name doc.id ∨ doc.id ∈ written.map Document.id)
  | .saved => ∀ id ∈ docs.map Document.id, id ∈ written.map Document.id
  | .refused id => id ∈ docs.map Document.id ∧ ¬start.Has name id
    ∧ (∀ early ∈ (docs.map Document.id).takeWhile (· ≠ id), early ∈ written.map Document.id)
    ∧ ∀ known ∈ docs.map Document.id, start.Has name known → known ∈ written.map Document.id

/-- It stays known when more is written. -/
theorem SaveStage.Holds.mono {start : Store} {name : String} {docs written : List Document}
    {stage : SaveStage} (h : stage.Holds start name docs written) (more : List Document) :
    stage.Holds start name docs (written ++ more) := by
  have hmore : ∀ id ∈ written.map Document.id, id ∈ (written ++ more).map Document.id := by
    intro id hid
    rw [List.map_append]
    exact List.mem_append_left _ hid
  cases stage with
  | saving pending rest =>
    obtain ⟨seen, hdocs, hgathered⟩ := h
    exact ⟨seen, hdocs, hgathered.mono more⟩
  | replacing doc pending rest =>
    obtain ⟨seen, hdocs, hgathered, hstored⟩ := h
    exact ⟨seen, hdocs, hgathered.mono more, hstored.imp_right (hmore _)⟩
  | saved => exact fun id hid => hmore id (h id hid)
  | refused id =>
    obtain ⟨hid, hnew, hearly, hknown⟩ := h
    exact ⟨hid, hnew, fun early hmem => hmore early (hearly early hmem),
      fun known hmem hhas => hmore known (hknown known hmem hhas)⟩

/-- What is known of two saves at the same time: what was written in all, and that only an insert
that succeeded stands in the way of another. -/
structure Jointly (start : Store) (name : String) (docs others : List Document)
    (stage other : SaveStage) (written : List Document) (s : Store) : Prop where
  wrote : Store.Wrote start s name written
  given : ∀ doc ∈ written, doc ∈ docs ∨ doc ∈ others
  mine : stage.Holds start name docs written
  theirs : other.Holds start name others written
  origin : ∀ id ∈ written.map Document.id,
    start.Has name id ∨ id ∈ stage.added docs ∨ id ∈ other.added others
  refused : ∀ id, stage = .refused id → other = .saved ∧ id ∈ others.map Document.id
  otherRefused : ∀ id, other = .refused id → stage = .saved ∧ id ∈ docs.map Document.id

namespace Jointly

variable {start s : Store} {name : String} {docs others written : List Document}
  {stage other : SaveStage}

theorem symm (h : Jointly start name docs others stage other written s) :
    Jointly start name others docs other stage written s :=
  ⟨h.wrote, fun doc hdoc => (h.given doc hdoc).symm, h.theirs, h.mine,
    fun id hid => (h.origin id hid).imp_right Or.symm, h.otherRefused, h.refused⟩

/-- The other save has not been refused before the insert of this one. -/
theorem other_ne_refused (h : Jointly start name docs others stage other written s)
    (hopen : stage.isOpen) (id : Int) : other ≠ .refused id := by
  intro heq
  rw [(h.otherRefused id heq).1] at hopen
  cases hopen

/-- **One call of a save** leaves all known if it writes documents of its list, the save is then at
a stage of which all is known, and an insert is only refused by the other one. -/
theorem advance (h : Jointly start name docs others stage other written s) (hopen : stage.isOpen)
    (next : SaveStage) {more : List Document} {after : Store}
    (hwrote : Store.Wrote start after name (written ++ more)) (hgiven : ∀ doc ∈ more, doc ∈ docs)
    (hmine : next.Holds start name docs (written ++ more))
    (horigin : ∀ id ∈ more.map Document.id,
      start.Has name id ∨ id ∈ next.added docs ∨ id ∈ other.added others)
    (hrefused : ∀ id, next = .refused id → other = .saved ∧ id ∈ others.map Document.id) :
    Jointly start name docs others next other (written ++ more) after where
  wrote := hwrote
  given := by
    intro doc hdoc
    rcases List.mem_append.mp hdoc with hdoc | hdoc
    · exact h.given doc hdoc
    · exact .inl (hgiven doc hdoc)
  mine := hmine
  theirs := h.theirs.mono more
  origin := by
    intro id hid
    rw [List.map_append, List.mem_append] at hid
    rcases hid with hid | hid
    · have hbefore := h.origin id hid
      rw [SaveStage.added_of_isOpen hopen] at hbefore
      exact hbefore.imp_right fun hadded => hadded.resolve_left List.not_mem_nil |> .inr
    · exact horigin id hid
  refused := hrefused
  otherRefused := fun id heq => absurd heq (h.other_ne_refused hopen id)

/-- A call of a save that writes nothing. -/
theorem stay (h : Jointly start name docs others stage other written s) (hopen : stage.isOpen)
    (next : SaveStage) (hmine : next.Holds start name docs written)
    (hnext : ∀ id, next ≠ .refused id) :
    Jointly start name docs others next other written s := by
  rw [← List.append_nil written] at hmine ⊢
  refine h.advance hopen next ?_ (by simp) hmine (by simp) fun id heq => absurd heq (hnext id)
  rw [List.append_nil]
  exact h.wrote

variable {doc : Document} {pending rest : List Document}

theorem probe_found
    (h : Jointly start name docs others (.saving pending (doc :: rest)) other written s)
    (hhas : s.Has name doc.id) :
    Jointly start name docs others (.replacing doc pending rest) other written s := by
  obtain ⟨seen, hdocs, hgathered⟩ := h.mine
  exact h.stay rfl (.replacing doc pending rest)
    ⟨seen, hdocs, hgathered, (h.wrote.has_iff doc.id).mp hhas⟩ (by simp)

theorem probe_new
    (h : Jointly start name docs others (.saving pending (doc :: rest)) other written s)
    (hnew : ¬s.Has name doc.id) :
    Jointly start name docs others (.saving (Document.putPending doc pending) rest) other written
      s := by
  obtain ⟨seen, hdocs, hgathered⟩ := h.mine
  obtain ⟨hstart, hwritten⟩ := not_or.mp (mt (h.wrote.has_iff doc.id).mpr hnew)
  exact h.stay rfl (.saving (Document.putPending doc pending) rest)
    ⟨seen ++ [doc], by rw [hdocs, List.append_assoc, List.singleton_append],
      hgathered.putPending hstart hwritten⟩ (by simp)

/-- A document that was found is replaced. -/
theorem replace (h : Jointly start name docs others (.replacing doc pending rest) other written s)
    (hdoc : doc.Storable) :
    Jointly start name docs others (.saving pending rest) other (written ++ [doc])
      (s.putDocument name doc) := by
  obtain ⟨seen, hdocs, hgathered, hstored⟩ := h.mine
  refine h.advance rfl (.saving pending rest)
    (h.wrote.append (List.forall_mem_singleton.mpr hdoc)) ?_ ?_ ?_ (by simp)
  · intro more hmore
    rw [List.mem_singleton.mp hmore, hdocs]
    exact List.mem_append_right _ List.mem_cons_self
  · exact ⟨seen ++ [doc], by rw [hdocs, List.append_assoc, List.singleton_append],
      (hgathered.mono [doc]).found (by simp)⟩
  · intro id hid
    obtain rfl : id = doc.id := by simpa using hid
    rcases hstored with hstart | hwritten
    · exact .inl hstart
    · exact (h.origin _ hwritten).imp_right fun hadded =>
        .inr (hadded.resolve_left List.not_mem_nil)

/-- All documents that wait are inserted. -/
theorem insert_all (h : Jointly start name docs others (.saving pending []) other written s)
    (hdocs : ∀ doc ∈ docs, doc.Storable) :
    Jointly start name docs others .saved other (written ++ pending)
      (s.put name (pending.foldl Collection.write (s.filesOf name))) := by
  obtain ⟨seen, hseen, hgathered⟩ := h.mine
  rw [List.append_nil] at hseen
  subst hseen
  refine h.advance rfl .saved (h.wrote.append fun doc hdoc => hdocs doc (hgathered.mem doc hdoc))
    hgathered.mem (fun id hid => ?_) (fun id hid => .inr (.inl (hgathered.mem_seen hid))) (by simp)
  rw [List.map_append, List.mem_append]
  exact hgathered.settled id hid

/-- The documents that wait are inserted up to one whose identity is there: the other save has
inserted it. -/
theorem insert_some {before after : List Document}
    (h : Jointly start name docs others (.saving (before ++ doc :: after) []) other written s)
    (hdocs : ∀ doc ∈ docs, doc.Storable) (hhas : s.Has name doc.id) :
    Jointly start name docs others (.refused doc.id) other (written ++ before)
      (s.put name (before.foldl Collection.write (s.filesOf name))) := by
  obtain ⟨seen, hseen, hgathered⟩ := h.mine
  rw [List.append_nil] at hseen
  subst hseen
  have hmem : doc ∈ before ++ doc :: after := List.mem_append_right _ List.mem_cons_self
  have hfresh := hgathered.fresh doc hmem
  have hbefore : ∀ other ∈ before, other ∈ docs := fun other hother =>
    hgathered.mem other (List.mem_append_left _ hother)
  obtain ⟨hearly, hfront⟩ := hgathered.order (before.map Document.id) doc.id
    (after.map Document.id) (by rw [List.map_append, List.map_cons])
  refine h.advance rfl (.refused doc.id)
    (h.wrote.append fun other hother => hdocs other (hbefore other hother)) hbefore
    ⟨List.mem_map_of_mem (hgathered.mem doc hmem), hfresh, ?_, ?_⟩
    (fun id hid => .inr (.inl (hfront id hid))) ?_
  · intro early hmem
    rw [List.map_append, List.mem_append]
    exact hearly early hmem
  · intro known hknown hstart
    rw [List.map_append, List.mem_append]
    refine (hgathered.settled known hknown).imp_right fun hwaits => ?_
    obtain ⟨other, hother, rfl⟩ := List.mem_map.mp hwaits
    exact absurd hstart (hgathered.fresh other hother)
  · intro id heq
    obtain rfl := SaveStage.refused.inj heq
    have hwritten := ((h.wrote.has_iff doc.id).mp hhas).resolve_left hfresh
    have hadded := ((h.origin _ hwritten).resolve_left hfresh).resolve_left List.not_mem_nil
    cases other with
    | saving _ _ => exact absurd hadded List.not_mem_nil
    | replacing _ _ _ => exact absurd hadded List.not_mem_nil
    | saved => exact ⟨rfl, hadded⟩
    | refused id => exact absurd rfl (h.other_ne_refused rfl id)

end Jointly

/-! ## One call -/

/-- Whether a save goes on from one of its calls: what is left of it behind the answer is the work
of a stage, and all is known of both saves when it is there. -/
def GoesOn (start : Store) (name : String) (docs others : List Document) (other : SaveStage)
    (client : String) (session : DocumentSession) (b : Backend) {q : Request}
    (next : q.Answer → Work (Except Failure Unit × DocumentSession)) : Prop :=
  ∃ stage written s, next (Backend.answer client q b).1 = SaveStage.work session name stage
    ∧ (Backend.answer client q b).2.Serves s
    ∧ Jointly start name docs others stage other written s

namespace Jointly

section

variable {start s : Store} {name client : String} {docs others written : List Document}
  {stage other : SaveStage} {b : Backend} {session : DocumentSession} {q : Request}
  {next : q.Answer → Work (Except Failure Unit × DocumentSession)}
  {doc : Document} {pending rest : List Document}

/-- A document that was found is there when it is replaced, because nothing is taken out. -/
theorem goesOn_replacing
    (h : Jointly start name docs others (.replacing doc pending rest) other written s)
    (valid : Collection.checkName name = .ok ()) (short : name.utf8ByteSize ≤ Store.maxNameBytes)
    (hdocs : ∀ doc ∈ docs, doc.Storable) (hb : b.Serves s)
    (hasks : (SaveStage.replacing doc pending rest).work session name = .ask q next) :
    GoesOn start name docs others other client session b next := by
  cases hasks
  obtain ⟨hanswer, hserves⟩ := hb.answer client (.updateById name doc)
  obtain ⟨seen, hseen, -, hstored⟩ := h.mine
  have hdoc : doc.Storable := hdocs doc (by simp [hseen])
  have hupdate : s.perform (.updateById name doc) = (.ok (), s.putDocument name doc) :=
    Store.updateById_eq valid short ((h.wrote.has_iff doc.id).mpr hstored)
  rw [hupdate] at hanswer hserves
  refine ⟨.saving pending rest, _, _, ?_, hserves, h.replace hdoc⟩
  rw [hanswer]
  rfl

/-- A probe changes nothing; the save replaces what it finds, and lets the other documents wait. -/
theorem goesOn_saving
    (h : Jointly start name docs others (.saving pending (doc :: rest)) other written s)
    (valid : Collection.checkName name = .ok ()) (hdocs : ∀ doc ∈ docs, doc.Storable)
    (hb : b.Serves s)
    (hasks : (SaveStage.saving pending (doc :: rest)).work session name = .ask q next) :
    GoesOn start name docs others other client session b next := by
  cases hasks
  obtain ⟨hanswer, hserves⟩ := hb.answer client (.aggregate name (Document.probe doc.id))
  obtain ⟨seen, hseen, -⟩ := h.mine
  have hdoc : doc.Storable := hdocs doc (by simp [hseen])
  obtain ⟨found, hprobe, hfound⟩ := h.wrote.sound.aggregate_probe valid hdoc.fits
  have hperform : s.perform (.aggregate name (Document.probe doc.id)) = (.ok found, s) :=
    Prod.ext hprobe rfl
  rw [hperform] at hanswer hserves
  by_cases hhas : s.Has name doc.id
  · refine ⟨.replacing doc pending rest, _, _, ?_, hserves, h.probe_found hhas⟩
    rw [hanswer]
    exact congrArg session.call (if_pos (hfound.mpr hhas))
  · refine ⟨.saving (Document.putPending doc pending) rest, _, _, ?_, hserves, h.probe_new hhas⟩
    rw [hanswer]
    exact congrArg session.call (if_neg (mt hfound.mp hhas))

/-- The insert at the end goes through, or is refused at an identity that is there. -/
theorem goesOn_inserting
    (h : Jointly start name docs others (.saving pending []) other written s)
    (valid : Collection.checkName name = .ok ()) (short : name.utf8ByteSize ≤ Store.maxNameBytes)
    (hdocs : ∀ doc ∈ docs, doc.Storable) (hb : b.Serves s)
    (hasks : (SaveStage.saving pending []).work session name = .ask q next) :
    GoesOn start name docs others other client session b next := by
  cases pending with
  | nil => cases hasks
  | cons first waiting =>
    cases hasks
    obtain ⟨hanswer, hserves⟩ := hb.answer client (.insertMany name (first :: waiting))
    obtain ⟨_, -, hgathered⟩ := h.mine
    have hperform : ∀ result files,
        Store.insertAll (s.filesOf name) (first :: waiting) = (result, files) →
        s.perform (.insertMany name (first :: waiting)) = (result, s.put name files) :=
      fun _ _ => Store.insertMany_of_insertAll valid short
    rcases Store.insertAll_or (s.filesOf name) hgathered.nodup with hall | hsome
    · rw [hperform _ _ hall] at hanswer hserves
      refine ⟨.saved, _, _, ?_, hserves, h.insert_all hdocs⟩
      rw [hanswer]
      rfl
    · obtain ⟨before, met, after, hsplit, hmet, hsome⟩ := hsome
      rw [hperform _ _ hsome] at hanswer hserves
      rw [hsplit] at h
      refine ⟨.refused met.id, _, _, ?_, hserves, h.insert_some hdocs hmet⟩
      rw [hanswer]
      rfl

/-- **One call of one of two saves** leaves all known, whatever the other save is at. -/
theorem step (h : Jointly start name docs others stage other written s)
    (valid : Collection.checkName name = .ok ()) (short : name.utf8ByteSize ≤ Store.maxNameBytes)
    (hdocs : ∀ doc ∈ docs, doc.Storable) (hb : b.Serves s)
    (hasks : stage.work session name = .ask q next) :
    GoesOn start name docs others other client session b next := by
  cases stage with
  | saved => cases hasks
  | refused id => cases hasks
  | replacing doc pending rest => exact h.goesOn_replacing valid short hdocs hb hasks
  | saving pending rest =>
    cases rest with
    | cons doc rest => exact h.goesOn_saving valid hdocs hb hasks
    | nil => exact h.goesOn_inserting valid short hdocs hb hasks

end

end Jointly

/-! ## Finished saves -/

/-- An identity in a list has a document that is its last. -/
theorem Document.exists_isLast {docs : List Document} {id : Int}
    (h : id ∈ docs.map Document.id) : ∃ doc : Document, doc.IsLast docs ∧ doc.id = id := by
  induction docs with
  | nil => exact absurd h List.not_mem_nil
  | cons first rest ih =>
    by_cases hrest : id ∈ rest.map Document.id
    · obtain ⟨doc, ⟨before, after, hsplit, hafter⟩, hid⟩ := ih hrest
      exact ⟨doc, ⟨first :: before, after, by rw [hsplit, List.cons_append], hafter⟩, hid⟩
    · have hfirst : first.id = id := ((List.mem_cons.mp h).resolve_right hrest).symm
      refine ⟨first, ⟨[], rest, rfl, fun other hother heq => hrest ?_⟩, hfirst⟩
      rw [← hfirst, ← heq]
      exact List.mem_map_of_mem hother

theorem Document.IsLast.mem {doc : Document} {docs : List Document} (h : doc.IsLast docs) :
    doc ∈ docs := by
  obtain ⟨before, after, rfl, -⟩ := h
  exact List.mem_append_right _ List.mem_cons_self

namespace SaveStage

def result : SaveStage → Except Failure Unit
  | .refused id => .error (.document (.duplicateId id))
  | _ => .ok ()

variable {start : Store} {name : String} {docs written : List Document} {stage : SaveStage}

theorem added_of_closed (h : stage.isOpen = false) (docs : List Document) :
    stage.added docs = addedBy docs stage.result := by
  cases stage with
  | saving pending rest => cases h
  | replacing doc pending rest => cases h
  | saved => rfl
  | refused id => rfl

/-- What a finished save has stored is written. -/
theorem Holds.added (h : stage.Holds start name docs written) :
    ∀ id ∈ stage.added docs, id ∈ written.map Document.id := by
  cases stage with
  | saving pending rest => exact fun id hid => absurd hid List.not_mem_nil
  | replacing doc pending rest => exact fun id hid => absurd hid List.not_mem_nil
  | saved => exact h
  | refused id => exact h.2.2.1

/-- A finished save has replaced all of its documents that were there. -/
theorem Holds.known (h : stage.Holds start name docs written) (hclosed : stage.isOpen = false) :
    ∀ id ∈ docs.map Document.id, start.Has name id → id ∈ written.map Document.id := by
  cases stage with
  | saving pending rest => cases hclosed
  | replacing doc pending rest => cases hclosed
  | saved => exact fun id hid _ => h id hid
  | refused id => exact h.2.2.2

end SaveStage

/-- Whether an identity is new and in both of two lists of documents. -/
def IsContested (start : Store) (name : String) (docs others : List Document) (id : Int) : Prop :=
  id ∈ docs.map Document.id ∧ id ∈ others.map Document.id ∧ ¬start.Has name id

/-- What two saves at the same time leave. -/
structure SavedTogether (start s : Store) (name : String) (docs others : List Document)
    (first second : Except Failure Unit) : Prop where
  /-- One of them succeeds. -/
  succeeds : first = .ok () ∨ second = .ok ()
  firstRefused : ∀ e, first = .error e →
    ∃ id, e = .document (.duplicateId id) ∧ IsContested start name docs others id
  secondRefused : ∀ e, second = .error e →
    ∃ id, e = .document (.duplicateId id) ∧ IsContested start name docs others id
  stored : ∀ id, s.Has name id ↔
    start.Has name id ∨ id ∈ addedBy docs first ∨ id ∈ addedBy others second
  /-- Each identity that is stored has a document that a list gives it. -/
  kept : ∀ id ∈ (docs ++ others).map Document.id, s.Has name id →
    ∃ doc ∈ docs ++ others, doc.id = id ∧ s.Keeps name doc
  unchanged : ∀ directory file,
    (directory = name → ∀ doc ∈ docs ++ others, file ≠ fileName doc.id) →
    s.fileText? directory file = start.fileText? directory file

namespace Jointly

variable {start s : Store} {name : String} {docs others written : List Document}
  {stage other : SaveStage}

/-- A plan that is done is that of a finished save. -/
theorem closed (h : Jointly start name docs others stage other written s)
    {session left : DocumentSession} {result : Except Failure Unit}
    (hdone : stage.work session name = .done (result, left)) :
    ∃ last : SaveStage, last.isOpen = false ∧ result = last.result
      ∧ left = session.record result
      ∧ Jointly start name docs others last other written s := by
  cases stage with
  | replacing doc pending rest => cases hdone
  | saved =>
    cases hdone
    exact ⟨.saved, rfl, rfl, rfl, h⟩
  | refused id =>
    cases hdone
    exact ⟨.refused id, rfl, rfl, rfl, h⟩
  | saving pending rest =>
    cases rest with
    | cons doc rest => cases hdone
    | nil =>
      cases pending with
      | cons doc waiting => cases hdone
      | nil =>
        cases hdone
        obtain ⟨seen, hseen, hgathered⟩ := h.mine
        rw [List.append_nil] at hseen
        subst hseen
        exact ⟨.saved, rfl, rfl, rfl, h.stay rfl .saved
          (fun id hid => (hgathered.settled id hid).resolve_right List.not_mem_nil) (by simp)⟩

/-- Only a contested identity makes a save fail. -/
theorem contested (h : Jointly start name docs others stage other written s) {e : Failure}
    (herror : stage.result = .error e) :
    ∃ id, e = .document (.duplicateId id) ∧ IsContested start name docs others id := by
  cases stage with
  | saving pending rest => cases herror
  | replacing doc pending rest => cases herror
  | saved => cases herror
  | refused id =>
    cases herror
    exact ⟨id, rfl, h.mine.1, (h.refused id rfl).2, h.mine.2.1⟩

/-- What is known of two finished saves. -/
theorem savedTogether (h : Jointly start name docs others stage other written s)
    (valid : Collection.checkName name = .ok ())
    (storable : ∀ doc ∈ docs ++ others, doc.Storable)
    (hstage : stage.isOpen = false) (hother : other.isOpen = false) :
    SavedTogether start s name docs others stage.result other.result := by
  have hgiven : ∀ doc ∈ written, doc ∈ docs ++ others := fun doc hdoc =>
    List.mem_append.mpr (h.given doc hdoc)
  have hover := h.wrote.overwritten valid fun doc hdoc => storable doc (hgiven doc hdoc)
  refine ⟨?_, fun e herror => h.contested herror, fun e herror => ?_, fun id => ?_,
    fun id hid hhas => ?_, fun directory file hfile => ?_⟩
  · cases stage with
    | saving pending rest => exact .inl rfl
    | replacing doc pending rest => exact .inl rfl
    | saved => exact .inl rfl
    | refused id => exact .inr (by rw [(h.refused id rfl).1]; rfl)
  · obtain ⟨id, heq, hothers, hdocs, hnew⟩ := h.symm.contested herror
    exact ⟨id, heq, hdocs, hothers, hnew⟩
  · rw [h.wrote.has_iff, ← SaveStage.added_of_closed hstage, ← SaveStage.added_of_closed hother]
    constructor
    · exact fun hid => hid.elim .inl (h.origin id)
    · rintro (hid | hid | hid)
      · exact .inl hid
      · exact .inr (h.mine.added id hid)
      · exact .inr (h.theirs.added id hid)
  · have hwritten : id ∈ written.map Document.id := by
      rcases (h.wrote.has_iff id).mp hhas with hstart | hwritten
      · rw [List.map_append, List.mem_append] at hid
        rcases hid with hid | hid
        · exact h.mine.known hstage id hid hstart
        · exact h.theirs.known hother id hid hstart
      · exact hwritten
    obtain ⟨doc, hlast, rfl⟩ := Document.exists_isLast hwritten
    exact ⟨doc, hgiven doc hlast.mem, rfl, hover.last name doc (by rwa [if_pos rfl])⟩
  · refine hover.others directory file fun doc hdoc => ?_
    split at hdoc
    · next heq => exact hfile heq doc (hgiven doc hdoc)
    · exact absurd hdoc List.not_mem_nil

end Jointly

/-! ## The main statement -/

/-- **Of two saves at the same time one succeeds, and the other one is only refused for an identity
that both bring.** Take a store that calls have reached, a collection with an allowed name, and two
sessions that each save a list of documents that can be read again, their calls in any order. At
least one of the saves succeeds; one that fails met an identity that is in both lists and was not
there before, so both succeed if there is none. Behind them the identities are those from before,
those of a save that succeeded, and those in front of the one at which the other save failed. Each
identity of a list that is stored keeps a document that one of the lists gives it, and every other
file is as it was. -/
theorem concurrent_saves {client other : String} {b after : Backend}
    {left right left' right' : DocumentSession} {first second : Except Failure Unit}
    {name : String} {docs others : List Document}
    (reached : b.documents.store.Reached) (working : b.documents.failing = [])
    (valid : Collection.checkName name = .ok ()) (short : name.utf8ByteSize ≤ Store.maxNameBytes)
    (storable : ∀ doc ∈ docs ++ others, doc.Storable)
    (run : Plan.Interleaved (I := requests) (Backend.answer client) (Backend.answer other)
      (left.saveDocuments name docs) (right.saveDocuments name others) b
      ((first, left'), (second, right')) after) :
    SavedTogether b.documents.store after.documents.store name docs others first second
      ∧ left' = left.record first ∧ right' = right.record second := by
  obtain ⟨hdocs, hothers⟩ := List.forall_mem_append.mp storable
  obtain ⟨stage, stage', written, s, hfirst, hsecond, hserves, hjointly⟩ :=
    run.invariant (fun p p' b' => ∃ stage stage' written s,
      p = SaveStage.work left name stage ∧ p' = SaveStage.work right name stage'
        ∧ b'.Serves s
        ∧ Jointly b.documents.store name docs others stage stage' written s)
      (by
        rintro q next p' b' ⟨stage, stage', written, s, hp, hp', hserves, hjointly⟩
        obtain ⟨stage, written, s, hnext, hserves, hjointly⟩ :=
          hjointly.step valid short hdocs hserves hp.symm
        exact ⟨stage, stage', written, s, hnext, hp', hserves, hjointly⟩)
      (by
        rintro q next p b' ⟨stage, stage', written, s, hp, hp', hserves, hjointly⟩
        obtain ⟨stage', written, s, hnext, hserves, hjointly⟩ :=
          hjointly.symm.step valid short hothers hserves hp'.symm
        exact ⟨stage, stage', written, s, hp, hnext, hserves, hjointly.symm⟩)
      ⟨.saving [] docs, .saving [] others, [], b.documents.store, rfl, rfl, ⟨rfl, working⟩,
        ⟨.nothing reached.sound name, by simp, ⟨[], rfl, .empty _ _ _⟩, ⟨[], rfl, .empty _ _ _⟩,
          by simp, by simp, by simp⟩⟩
  obtain ⟨last, hlast, rfl, hleft, hjointly⟩ := hjointly.closed hfirst.symm
  obtain ⟨last', hlast', rfl, hright, hjointly⟩ := hjointly.symm.closed hsecond.symm
  refine ⟨?_, hleft, hright⟩
  rw [hserves.store]
  exact hjointly.symm.savedTogether valid storable hlast hlast'

def newNotes : List Document := [⟨1, [("n", .int 1)]⟩]

/-- The same note with another text, and one more. -/
def otherNotes : List Document := [⟨1, [("n", .int 2)]⟩, ⟨2, []⟩]

/-- Both sessions look for the note before one of them inserts it. -/
theorem crossing_saves :
    ∃ left right after, Plan.Interleaved (I := requests) (Backend.answer "") (Backend.answer "")
      (({} : DocumentSession).saveDocuments "note" newNotes)
      (({} : DocumentSession).saveDocuments "note" otherNotes) (backendOf {})
      ((.ok (), left), (.error (.document (.duplicateId 1)), right)) after :=
  ⟨_, _, _, .second (.first (.second (.first (.second (.done _ _ _)))))⟩

/-- The second session is refused. Its first note is that of the other session, and its second note
is not stored. -/
theorem concurrent_saves_notes :
    Store.Reached {} ∧ Collection.checkName "note" = .ok ()
      ∧ (∀ doc ∈ newNotes ++ otherNotes, doc.Storable)
      ∧ ∃ left right after,
        Plan.Interleaved (I := requests) (Backend.answer "") (Backend.answer "")
          (({} : DocumentSession).saveDocuments "note" newNotes)
          (({} : DocumentSession).saveDocuments "note" otherNotes) (backendOf {})
          ((.ok (), left), (.error (.document (.duplicateId 1)), right)) after
        ∧ SavedTogether {} after.documents.store "note" newNotes otherNotes (.ok ())
          (.error (.document (.duplicateId 1)))
        ∧ after.documents.store.Has "note" 1 ∧ ¬after.documents.store.Has "note" 2 := by
  have valid : Collection.checkName "note" = .ok () := by decide
  have storable : ∀ doc ∈ newNotes ++ otherNotes, doc.Storable := by decide
  obtain ⟨left, right, after, run⟩ := crossing_saves
  obtain ⟨htogether, -, -⟩ := concurrent_saves .empty rfl valid (by decide) storable run
  refine ⟨.empty, valid, storable, left, right, after, run, htogether, ?_, ?_⟩
  · exact (htogether.stored 1).mpr (.inr (.inl (by decide)))
  · refine mt (htogether.stored 2).mp ?_
    rintro (hstart | hfirst | hsecond)
    · exact absurd hstart (by simp [Store.Has, Store.filesOf, backendOf, Keyed.get?, Keyed.keys])
    · exact absurd hfirst (by decide)
    · exact absurd hsecond (by decide)

/-- Two saves of the same new note do not always both succeed. -/
theorem both_saves_of_new_note :
    Store.Reached {} ∧ Collection.checkName "note" = .ok ()
      ∧ (∀ doc ∈ newNotes ++ otherNotes, doc.Storable)
      ∧ ¬∀ (first second : Except Failure Unit × DocumentSession) (after : Backend),
        Plan.Interleaved (I := requests) (Backend.answer "") (Backend.answer "")
          (({} : DocumentSession).saveDocuments "note" newNotes)
          (({} : DocumentSession).saveDocuments "note" otherNotes) (backendOf {})
          (first, second) after → first.1 = .ok () ∧ second.1 = .ok () := by
  refine ⟨.empty, by decide, by decide, fun h => ?_⟩
  obtain ⟨left, right, after, run⟩ := crossing_saves
  exact absurd (h _ _ _ run).2 (by simp)

end DualStore
