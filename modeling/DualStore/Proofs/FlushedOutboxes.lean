import Mathlib.Data.List.Dedup
import DualStore.Proofs.OutboxEntries
import DualStore.Proofs.SavedDocuments

/-!
# Flushed outboxes

Flushing an outbox writes the documents of each collection in the order in which they came, whether
they are new or not. So the last document of an identity is kept, all other files stay as they are,
and the collections that fail are those whose names are not allowed.

* `Handed`, `Outbox.takeAll`, `queueOf`: entities handed to an outbox, and their documents;
* `Writable`, `writtenFor`: documents that can be written, and those that are, by collection;
* `Store.putNamed`, `runWith_saveDocuments_named`: one save, whether the name is allowed or not;
* `Store.putEntries`, `filesOf_putEntries`: the store behind the entries of an outbox;
* `runWith_writeAll`, `runWith_flush`: a flush, by induction on the entries;
* `last_write_wins`: the main statement.
-/

namespace DualStore

/-! ## Queues -/

/-- An entity handed to an outbox, with what is known of its type and its identity. -/
structure Handed where
  type : Model.EntityMeta
  id : Int
  entity : Json

/-- The document of an entity with its collection, if it has one. -/
def Handed.entry? (handed : Handed) : Option (String × Document) :=
  match Document.ofEntity handed.type handed.id handed.entity with
  | .ok doc => some (handed.type.table, doc)
  | .error _ => none

/-- The documents of entities in order, each with its collection. -/
def queueOf (handed : List Handed) : List (String × Document) := handed.filterMap Handed.entry?

/-- Entities handed to an outbox one after the other; those without a document leave it as it is. -/
def Outbox.takeAll (o : Outbox) : List Handed → Outbox
  | [] => o
  | handed :: rest =>
    match o.push handed.type handed.id handed.entity with
    | .ok o => o.takeAll rest
    | .error _ => o.takeAll rest

def Collection.hasValidName (name : String) : Bool := (checkName name).isOk

/-- Whether the documents of a queue can be written: their texts can be read, and directories can
have the names of their collections. -/
structure Writable (queue : List (String × Document)) : Prop where
  storable : ∀ entry ∈ queue, entry.2.Storable
  short : ∀ entry ∈ queue, Collection.hasValidName entry.1 = true →
    entry.1.utf8ByteSize ≤ Store.maxNameBytes

instance (queue : List (String × Document)) : Decidable (Writable queue) :=
  decidable_of_iff ((∀ entry ∈ queue, entry.2.Storable)
      ∧ ∀ entry ∈ queue, Collection.hasValidName entry.1 = true →
        entry.1.utf8ByteSize ≤ Store.maxNameBytes)
    ⟨fun ⟨storable, short⟩ => ⟨storable, short⟩, fun h => ⟨h.storable, h.short⟩⟩

/-- The documents of a queue that are written to a collection. -/
def writtenFor (queue : List (String × Document)) (name : String) : List Document :=
  if Collection.hasValidName name then documentsFor name queue else []

theorem Collection.hasValidName_iff {name : String} :
    hasValidName name = true ↔ checkName name = .ok () := by
  rw [hasValidName]
  cases checkName name with
  | ok _ => exact iff_of_true rfl rfl
  | error e => exact iff_of_false Bool.false_ne_true (by simp)

theorem Collection.hasValidName_eq_false {name : String} :
    hasValidName name = false ↔ ∃ e, checkName name = .error e := by
  rw [hasValidName]
  cases checkName name with
  | ok _ => exact iff_of_false (by simp [Except.isOk, Except.toBool]) (by simp)
  | error e => exact iff_of_true rfl ⟨e, rfl⟩

theorem Outbox.takeAll_eq (o : Outbox) (handed : List Handed) :
    o.takeAll handed = o.addAll (queueOf handed) := by
  induction handed generalizing o with
  | nil => rfl
  | cons first rest ih =>
    rw [takeAll, push]
    cases hdoc : Document.ofEntity first.type first.id first.entity with
    | ok doc =>
      have hentry : first.entry? = some (first.type.table, doc) := by rw [Handed.entry?, hdoc]
      rw [queueOf, List.filterMap_cons_some hentry]
      exact ih _
    | error e =>
      have hentry : first.entry? = none := by rw [Handed.entry?, hdoc]
      rw [queueOf, List.filterMap_cons_none hentry]
      exact ih _

theorem mem_documentsFor {name : String} {queue : List (String × Document)} {doc : Document} :
    doc ∈ documentsFor name queue ↔ (name, doc) ∈ queue := by
  rw [documentsFor, List.mem_map]
  constructor
  · rintro ⟨entry, hentry, rfl⟩
    obtain ⟨hmem, heq⟩ := List.mem_filter.mp hentry
    rw [← of_decide_eq_true heq]
    exact hmem
  · intro hmem
    exact ⟨_, List.mem_filter.mpr ⟨hmem, decide_eq_true rfl⟩, rfl⟩

theorem documentsFor_map (name other : String) (docs : List Document) :
    documentsFor other (docs.map fun doc => (name, doc)) = if name = other then docs else [] := by
  by_cases h : name = other <;> simp [documentsFor, List.filter_map, Function.comp_def, h]

/-- A store with the files of a queue that was written in order. -/
theorem Writable.overwritten {queue : List (String × Document)} (writable : Writable queue)
    {before after : Store} (hfiles : ∀ name, after.filesOf name
      = (writtenFor queue name).foldl Collection.write (before.filesOf name)) :
    Store.Overwritten before after (writtenFor queue) := by
  refine Store.overwritten_of_filesOf hfiles (fun name hwritten => ?_) fun name doc hdoc => ?_
  · rw [writtenFor] at hwritten
    split at hwritten
    · next hvalid => exact Collection.hasValidName_iff.mp hvalid
    · exact absurd rfl hwritten
  · rw [writtenFor] at hdoc
    split at hdoc
    · exact writable.storable _ (mem_documentsFor.mp hdoc)
    · exact absurd hdoc List.not_mem_nil

/-! ## One save -/

namespace Store

/-- The store after documents were written to a collection, if it may have its name. -/
def putNamed (s : Store) (name : String) (docs : List Document) : Store :=
  if Collection.hasValidName name then s.putDocuments name docs else s

theorem filesOf_putNamed_self (s : Store) (name : String) (docs : List Document) :
    (s.putNamed name docs).filesOf name
      = (if Collection.hasValidName name then docs else []).foldl Collection.write
          (s.filesOf name) := by
  rw [putNamed]
  split
  · exact filesOf_putDocuments s name docs
  · rfl

theorem filesOf_putNamed_of_ne {name other : String} (h : name ≠ other) (s : Store)
    (docs : List Document) : (s.putNamed name docs).filesOf other = s.filesOf other := by
  rw [putNamed]
  split
  · exact filesOf_putDocuments_of_ne h s docs
  · rfl

theorem Sound.putNamed {s : Store} (h : s.Sound) (name : String) {docs : List Document}
    (hdocs : ∀ doc ∈ docs, doc.Storable) : (s.putNamed name docs).Sound := by
  rw [Store.putNamed]
  split
  · exact h.putDocuments name hdocs
  · exact h

end Store

variable {b : Backend} {s : Store}

/-- Saving documents writes them in order, or fails because of the name of the collection. -/
theorem Document.runWith_saveDocuments_named (client : String) {name : String}
    {docs : List Document} (hdocs : ∀ doc ∈ docs, doc.Storable)
    (hshort : docs ≠ [] → Collection.hasValidName name = true →
      name.utf8ByteSize ≤ Store.maxNameBytes) (hs : s.Sound) (hb : b.Serves s) :
    ∃ (result : Except Failure Unit) (after : Backend),
      Attempt.runWith (Backend.answer client) (saveDocuments name docs) b = (result, after)
        ∧ result.isOk = (Collection.hasValidName name || docs.isEmpty)
        ∧ after.Serves (s.putNamed name docs) := by
  cases docs with
  | nil =>
    have hput : s.putNamed name [] = s := ite_self _
    rw [hput]
    exact ⟨.ok (), b, rfl, by simp [Except.isOk, Except.toBool], hb⟩
  | cons doc rest =>
    rw [Store.putNamed]
    cases hvalid : Collection.hasValidName name with
    | true =>
      obtain ⟨after, hrun, hafter⟩ := runWith_saveDocuments client
        (Collection.hasValidName_iff.mp hvalid) (hshort (by simp) hvalid) hdocs hs hb
      exact ⟨.ok (), after, hrun, rfl, hafter⟩
    | false =>
      obtain ⟨e, hinvalid⟩ := Collection.hasValidName_eq_false.mp hvalid
      obtain ⟨after, hrun, hafter⟩ := runWith_saveDocuments_invalid client hinvalid doc rest hb
      exact ⟨_, after, hrun, rfl, hafter⟩

/-- Documents saved to one collection stand as the queue that they make. -/
theorem Document.overwritten_saveDocuments (client : String) {name : String}
    {docs : List Document} (writable : Writable (docs.map fun doc => (name, doc))) (hs : s.Sound)
    (hb : b.Serves s) :
    ∃ (result : Except Failure Unit) (after : Backend),
      Attempt.runWith (Backend.answer client) (saveDocuments name docs) b = (result, after)
        ∧ result.isOk = (Collection.hasValidName name || docs.isEmpty)
        ∧ Store.Overwritten s after.documents.store
            (writtenFor (docs.map fun doc => (name, doc))) := by
  have hdocs : ∀ doc ∈ docs, doc.Storable := fun doc hdoc =>
    writable.storable _ (List.mem_map_of_mem hdoc)
  have hshort : docs ≠ [] → Collection.hasValidName name = true →
      name.utf8ByteSize ≤ Store.maxNameBytes := by
    intro hne
    obtain ⟨doc, hdoc⟩ := List.exists_mem_of_ne_nil _ hne
    exact writable.short _ (List.mem_map_of_mem hdoc)
  obtain ⟨result, after, hrun, hok, hafter⟩ :=
    runWith_saveDocuments_named client hdocs hshort hs hb
  refine ⟨result, after, hrun, hok, writable.overwritten fun other => ?_⟩
  rw [hafter.store, writtenFor, documentsFor_map]
  by_cases h : name = other
  · subst h
    rw [if_pos rfl, Store.filesOf_putNamed_self]
  · rw [if_neg h, ite_self, Store.filesOf_putNamed_of_ne h]
    rfl

/-! ## Entries of an outbox -/

namespace Store

/-- The store after the documents of entries were written, but for collections whose names are not
allowed. -/
def putEntries (s : Store) (entries : List (String × List Document)) : Store :=
  entries.foldl (fun s entry => s.putNamed entry.1 entry.2) s

/-- The files of a collection behind entries of different collections. -/
theorem filesOf_putEntries {entries : List (String × List Document)}
    (hnodup : (Keyed.keys entries).Nodup) (s : Store) (name : String) :
    (s.putEntries entries).filesOf name
      = (if Collection.hasValidName name then (Keyed.get? name entries).getD [] else []).foldl
          Collection.write (s.filesOf name) := by
  induction entries generalizing s with
  | nil =>
    rw [Keyed.get?, Option.getD_none, ite_self]
    rfl
  | cons entry rest ih =>
    obtain ⟨key, docs⟩ := entry
    obtain ⟨hkey, hrest⟩ := List.nodup_cons.mp hnodup
    refine (ih hrest (s.putNamed key docs)).trans ?_
    by_cases heq : key = name
    · subst heq
      have hnone : Keyed.get? key rest = none := (Keyed.get?_eq_none_iff key rest).mpr hkey
      rw [hnone, Option.getD_none, ite_self, List.foldl_nil, filesOf_putNamed_self, Keyed.get?,
        if_pos rfl, Option.getD_some]
    · rw [filesOf_putNamed_of_ne heq, Keyed.get?, if_neg heq]

end Store

/-! ## Flushing -/

namespace Outbox

/-- Writing entries fails for the collections whose names are not allowed, and writes the documents
of all others. -/
theorem runWith_writeAll (client : String) {entries : List (String × List Document)}
    (hne : ∀ entry ∈ entries, entry.2 ≠ [])
    (hstorable : ∀ entry ∈ entries, ∀ doc ∈ entry.2, doc.Storable)
    (hshort : ∀ entry ∈ entries, Collection.hasValidName entry.1 = true →
      entry.1.utf8ByteSize ≤ Store.maxNameBytes) (hs : s.Sound) (hb : b.Serves s) :
    ∃ after : Backend, Work.runWith (Backend.answer client) (writeAll entries) b
        = ((Keyed.keys entries).countP (fun name => !Collection.hasValidName name), after)
      ∧ after.Serves (s.putEntries entries) := by
  induction entries generalizing s b with
  | nil => exact ⟨b, rfl, hb⟩
  | cons entry rest ih =>
    obtain ⟨name, docs⟩ := entry
    obtain ⟨hdocs, hothers⟩ := List.forall_mem_cons.mp hne
    obtain ⟨hfirst, hothersStorable⟩ := List.forall_mem_cons.mp hstorable
    obtain ⟨hname, hothersShort⟩ := List.forall_mem_cons.mp hshort
    obtain ⟨result, saved, hsave, hok, hsaved⟩ :=
      Document.runWith_saveDocuments_named client hfirst (fun _ => hname) hs hb
    -- Whether the first collection has failed or not, the others are written behind it.
    obtain ⟨after, hrun, hafter⟩ :=
      ih hothers hothersStorable hothersShort (hs.putNamed name hfirst) hsaved
    refine ⟨after, ?_, hafter⟩
    have hsave' : Work.runWith (Backend.answer client) (Document.saveDocuments name docs).run b
        = (result, saved) := hsave
    have hkeys : Keyed.keys ((name, docs) :: rest) = name :: Keyed.keys rest := rfl
    rw [List.isEmpty_eq_false_iff.mpr hdocs, Bool.or_false] at hok
    rw [writeAll, Work.runWith_bind, hsave', Work.runWith_bind, hrun, hkeys]
    cases result with
    | ok _ =>
      rw [List.countP_cons_of_neg (by simp [← hok, Except.isOk, Except.toBool])]
      rfl
    | error e =>
      rw [List.countP_cons_of_pos (by simp [← hok, Except.isOk, Except.toBool])]
      rfl

/-- A flush is writing all entries; without any there is nothing to do. -/
theorem runWith_flush_eq (client : String) (o : Outbox) (hb : b.Serves s) :
    Work.runWith (Backend.answer client) o.flush b
      = Work.runWith (Backend.answer client) (writeAll o.pending) b := by
  rw [flush, isEmpty]
  cases hpending : o.pending with
  | nil => rfl
  | cons entry rest =>
    have hopen : Work.runWith (Backend.answer client) askDocuments.run b = (.ok (), b) := by
      have hsession : b.documents.openSession = .ok () := by
        rw [JournaledStore.openSession, hb.failing, if_neg (by simp)]
      have hrun : Work.runWith (Backend.answer client) askDocuments.run b
          = (b.documents.openSession.mapError Failure.document, b) := rfl
      rw [hrun, hsession]
      rfl
    rw [List.isEmpty_cons, if_neg Bool.false_ne_true, Work.runWith_bind, hopen]

/-- What waits in an outbox that documents were put into. -/
theorem get?_addAll (queue : List (String × Document)) (name : String) :
    (Keyed.get? name (({} : Outbox).addAll queue).pending).getD [] = documentsFor name queue :=
  waiting_addAll {} queue name

/-- The documents of an entry are those of the queue for its collection. -/
theorem eq_documentsFor_of_mem {queue : List (String × Document)}
    {entry : String × List Document} (h : entry ∈ (({} : Outbox).addAll queue).pending) :
    entry.2 = documentsFor entry.1 queue := by
  have hsorted := isSorted_addAll (o := {}) List.Pairwise.nil queue
  have hget := (Keyed.get?_eq_some_iff hsorted.nodup entry.1 entry.2).mpr h
  rw [← get?_addAll, hget, Option.getD_some]

/-- Flushing documents that were put into an outbox fails for the collections whose names are not
allowed, and writes the documents of all others in the order in which they came. -/
theorem runWith_flush (client : String) {queue : List (String × Document)}
    (writable : Writable queue) (hs : s.Sound) (hb : b.Serves s) :
    ∃ after : Backend, Work.runWith (Backend.answer client) (({} : Outbox).addAll queue).flush b
        = ((queue.map Prod.fst).dedup.countP (fun name => !Collection.hasValidName name), after)
      ∧ Store.Overwritten s after.documents.store (writtenFor queue) := by
  have hnodup := (isSorted_addAll (o := {}) List.Pairwise.nil queue).nodup
  have hentries : ∀ entry ∈ (({} : Outbox).addAll queue).pending, ∀ doc ∈ entry.2,
      (entry.1, doc) ∈ queue := by
    intro entry hentry doc hdoc
    rw [eq_documentsFor_of_mem hentry] at hdoc
    exact mem_documentsFor.mp hdoc
  have hne := ne_nil_of_mem_addAll (o := {}) (by simp) queue
  have hshort : ∀ entry ∈ (({} : Outbox).addAll queue).pending,
      Collection.hasValidName entry.1 = true → entry.1.utf8ByteSize ≤ Store.maxNameBytes := by
    intro entry hentry
    obtain ⟨doc, hdoc⟩ := List.exists_mem_of_ne_nil _ (hne entry hentry)
    exact writable.short _ (hentries entry hentry doc hdoc)
  obtain ⟨after, hrun, hafter⟩ := runWith_writeAll client hne
    (fun entry hentry doc hdoc => writable.storable _ (hentries entry hentry doc hdoc))
    hshort hs hb
  have hnames : (Keyed.keys (({} : Outbox).addAll queue).pending).Perm
      (queue.map Prod.fst).dedup := by
    refine (List.perm_ext_iff_of_nodup hnodup (List.nodup_dedup _)).mpr fun name => ?_
    rw [mem_keys_addAll, List.mem_dedup]
  refine ⟨after, ?_, writable.overwritten fun name => ?_⟩
  · rw [runWith_flush_eq client _ hb, hrun, hnames.countP_eq]
  · rw [hafter.store, Store.filesOf_putEntries hnodup, get?_addAll, writtenFor]

end Outbox

/-! ## The main statement -/

/-- **The last write wins, and nothing else is lost.** Take a store that calls have reached, and
any entities handed to an outbox, over any collections, whose documents can be written. A flush
gives the number of collections with names that are not allowed. Behind it the collections of all
others keep for each identity the text of the document that was handed over last, which is read as
that document with its doubles read again; every other file of every collection is as it was. The
same holds when documents are saved to one collection, which succeeds if the name of the collection
is allowed or there are none. A document without doubles is read as it is. -/
theorem last_write_wins (client : String)
    (reached : b.documents.store.Reached) (working : b.documents.failing = []) :
    (∀ handed : List Handed, Writable (queueOf handed) →
      ∃ after : Backend, b.perform client (({} : Outbox).takeAll handed).flush
          = (((queueOf handed).map Prod.fst).dedup.countP
              (fun name => !Collection.hasValidName name), after)
        ∧ Store.Overwritten b.documents.store after.documents.store (writtenFor (queueOf handed)))
    ∧ (∀ (session : DocumentSession) (name : String) (docs : List Document),
      Writable (docs.map fun doc => (name, doc)) →
      ∃ (result : Except Failure Unit) (after : Backend),
        b.perform client (session.saveDocuments name docs)
            = ((result, session.record result), after)
          ∧ result.isOk = (Collection.hasValidName name || docs.isEmpty)
          ∧ Store.Overwritten b.documents.store after.documents.store
              (writtenFor (docs.map fun doc => (name, doc))))
    ∧ ∀ doc : Document, Json.isExact Json.maxLevels doc.toJson = true → doc.reread = doc := by
  have hb : b.Serves b.documents.store := ⟨rfl, working⟩
  refine ⟨fun handed writable => ?_, fun session name docs writable => ?_,
    fun doc => Document.reread_of_isExact⟩
  · rw [Outbox.takeAll_eq]
    exact Outbox.runWith_flush client writable reached.sound hb
  · obtain ⟨result, after, hrun, hok, hafter⟩ :=
      Document.overwritten_saveDocuments client writable reached.sound hb
    refine ⟨result, after, ?_, hok, hafter⟩
    have hsave : Work.runWith (Backend.answer client) (Document.saveDocuments name docs).run b
        = (result, after) := hrun
    have hcall : b.perform client (session.saveDocuments name docs)
        = Work.runWith (Backend.answer client) ((Document.saveDocuments name docs).run >>=
            fun result => pure (result, session.record result)) b := rfl
    rw [hcall, Work.runWith_bind, hsave]
    rfl

/-- A type of members; its documents go to a collection of the given name. -/
def memberType (table : String) : Model.EntityMeta := ⟨"Member", table, "uid", true, []⟩

def memberStore : Store :=
  (Store.perform {} (.insertMany "member" [⟨1, [("nick", .str "a")]⟩, ⟨2, []⟩])).2

/-- A backend with a document store and nothing else. -/
def backendOf (store : Store) : Backend :=
  { documents := { store := store }, supply := ⟨[], ⟨0, []⟩⟩, server := ⟨[], 0, []⟩, now := 0 }

/-- A known member twice with a new one in between, and one for a collection whose name is not
allowed. -/
def members : List Handed :=
  [⟨memberType "member", 1, .obj [("uid", .int 1), ("nick", .str "b")]⟩,
    ⟨memberType "member", 3, .obj [("uid", .int 3)]⟩,
    ⟨memberType "_members", 1, .obj [("uid", .int 1)]⟩,
    ⟨memberType "member", 1, .obj [("uid", .int 1), ("nick", .str "c")]⟩]

/-- Of the two versions of a member the later one is kept, the new member is there, and the member
that was not handed over is as before. -/
theorem last_write_wins_members :
    memberStore.Reached ∧ Writable (queueOf members)
      ∧ ∃ after : Backend,
        (backendOf memberStore).perform "" (({} : Outbox).takeAll members).flush = (1, after)
          ∧ after.documents.store.Keeps "member" ⟨1, [("nick", .str "c")]⟩
          ∧ after.documents.store.Keeps "member" ⟨3, []⟩
          ∧ after.documents.store.fileText? "member" "2.json"
            = memberStore.fileText? "member" "2.json" := by
  have reached : memberStore.Reached := .perform _ .empty (by decide)
  have writable : Writable (queueOf members) := by decide
  obtain ⟨hflush, -, -⟩ := last_write_wins "" (b := backendOf memberStore) reached rfl
  obtain ⟨after, hrun, hafter⟩ := hflush members writable
  have hwritten : writtenFor (queueOf members) "member"
      = [⟨1, [("nick", .str "b")]⟩, ⟨3, []⟩, ⟨1, [("nick", .str "c")]⟩] := rfl
  refine ⟨reached, writable, after, hrun, ?_, ?_, ?_⟩
  · refine hafter.last _ _ ⟨[_, _], [], hwritten, by simp⟩
  · refine hafter.last _ _ ⟨[_], [_], hwritten, by simp⟩
  · refine hafter.others _ _ ?_
    rw [hwritten]
    decide

/-- A member with a double whose text is read as another double. -/
def ratioMember : Handed := ⟨memberType "member", 1, .obj [("ratio", .float 7.000000000000001e-31)]⟩

def ratioDocument : Document := ⟨1, [("ratio", .float 7.000000000000001e-31)]⟩

/-- A document with a double is not always found as it was handed over: its file has its text, but
the double in it is read as its neighbour. -/
theorem found_with_other_double :
    Store.Reached {} ∧ queueOf [ratioMember] = [("member", ratioDocument)]
      ∧ Writable (queueOf [ratioMember])
      ∧ ∃ (after : Backend) (files : Collection.Files) (found : Document),
        (backendOf {}).perform "" (({} : Outbox).takeAll [ratioMember]).flush = (0, after)
          ∧ after.documents.store.open? "member" = .ok (some files)
          ∧ Collection.get files 1 = .ok found ∧ found ≠ ratioDocument := by
  have hqueue : queueOf [ratioMember] = [("member", ratioDocument)] := rfl
  have writable : Writable (queueOf [ratioMember]) := by decide +kernel
  obtain ⟨after, hrun, hafter⟩ := Outbox.runWith_flush (b := backendOf {}) "" writable
    Store.Sound.empty ⟨rfl, rfl⟩
  have hlast : ratioDocument.IsLast (writtenFor (queueOf [ratioMember]) "member") :=
    ⟨[], [], rfl, by simp⟩
  obtain ⟨files, hopen, hget⟩ := (hafter.last _ _ hlast).found
  refine ⟨.empty, hqueue, writable, after, files, ratioDocument.reread, ?_, hopen, hget,
    fun h => ?_⟩
  · rw [Outbox.takeAll_eq]
    exact hrun
  · have hfields : [("ratio", Json.float (Json.rereadDouble 7.000000000000001e-31))]
        = [("ratio", Json.float 7.000000000000001e-31)] := congrArg Document.fields h
    have hdouble : Json.rereadDouble 7.000000000000001e-31 = 7.000000000000001e-31 := by
      simpa using hfields
    have hbits : (Json.rereadDouble 7.000000000000001e-31).toBits
        ≠ (7.000000000000001e-31 : Float).toBits := by decide +kernel
    exact hbits (congrArg Float.toBits hdouble)

end DualStore
