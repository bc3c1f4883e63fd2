import DualStore.Proofs.RequestLogs

/-!
# Transactions that are all or nothing

What is assumed of a database about its transactions, and the simplest database of which it holds.

* `AllOrNothing`: what is assumed of a database;
* `afterChanges`, `AllOrNothing.run`: a run of statements in a transaction, by induction on the run;
* `Ledger`, `Ledger.answer`: changes kept as they are, beside a document store;
* `allOrNothing_ledger`: the transactions of a ledger are all or nothing.
-/

namespace DualStore.Relational

/-- What is assumed of a database about transactions. Its committed tables are seen by `committed`,
the tables that a transaction works on by `pending`, and `effect` says what a change does to
tables. Statements of a transaction leave the committed tables as they are, and a change that is
carried out has its whole effect on the tables of the transaction. A commit puts these in the place
of the committed tables, and a rollback leaves the committed tables as they are. The document store
alone changes what is seen by `documents`, and it changes no tables. -/
structure AllOrNothing {σ T D : Type} (answer : (r : Request) → σ → r.Answer × σ)
    (committed : σ → T) (pending : σ → Option T) (effect : Change → T → T) (documents : σ → D) :
    Prop where
  begun : ∀ s after, pending s = none →
    answer .begin s = ((.ok () : Except Sql.SqlError Unit), after) →
    committed after = committed s ∧ pending after = some (committed s)
  statement : ∀ r s t, r.isStatement = true → pending s = some t →
    committed (answer r s).2 = committed s ∧ ∃ t', pending (answer r s).2 = some t'
  carried : ∀ c outcome s after t, pending s = some t →
    answer (.change c) s = ((.ok outcome : Except Sql.SqlError Outcome), after) →
    pending after = some (effect c t)
  kept : ∀ r s, r.isStatement = true → (∀ c, r ≠ .change c) →
    pending (answer r s).2 = pending s
  commits : ∀ s after t, pending s = some t →
    answer .commit s = ((.ok () : Except Sql.SqlError Unit), after) → committed after = t
  rollsBack : ∀ s after t, pending s = some t →
    answer .rollback s = ((.ok () : Except Sql.SqlError Unit), after) →
    committed after = committed s
  elsewhere : ∀ r s, r.isDocumental = false → documents (answer r s).2 = documents s
  untouched : ∀ r s, r.isDocumental = true → committed (answer r s).2 = committed s

/-- Tables after changes, one after the other. -/
def afterChanges {T : Type} (effect : Change → T → T) (changes : List Change) (tables : T) : T :=
  changes.foldl (fun tables c => effect c tables) tables

namespace AllOrNothing

variable {σ T D α : Type} {answer : (r : Request) → σ → r.Answer × σ} {committed : σ → T}
  {pending : σ → Option T} {effect : Change → T → T} {documents : σ → D}

/-- One statement of a transaction. -/
theorem step (h : AllOrNothing answer committed pending effect documents) {r : Request} {s : σ}
    {t : T} (hr : r.isStatement = true) (ht : pending s = some t) :
    ∃ t', pending (answer r s).2 = some t'
      ∧ (Exchange.IsCarried ⟨r, (answer r s).1⟩ →
        t' = afterChanges effect (changesIn [⟨r, (answer r s).1⟩]) t) := by
  cases r with
  | change c =>
    obtain ⟨-, t', ht'⟩ := h.statement (.change c) s t rfl ht
    refine ⟨t', ht', ?_⟩
    rintro ⟨outcome, houtcome⟩
    have hcarried := h.carried c outcome s (answer (.change c) s).2 t ht (Prod.ext houtcome rfl)
    rw [hcarried] at ht'
    exact (Option.some.inj ht').symm
  | query q =>
    exact ⟨t, (h.kept (.query q) s rfl (by simp)).trans ht, fun _ => rfl⟩
  | identity node =>
    exact ⟨t, (h.kept (.identity node) s rfl (by simp)).trans ht, fun _ => rfl⟩
  | _ => cases hr

/-- Work that only runs statements leaves the committed tables and the documents as they are; if
all its changes are carried out, the transaction sees the effects of all of them in order. -/
theorem run (h : AllOrNothing answer committed pending effect documents) {p : Work α}
    (hp : p.Asks fun r => r.isStatement = true) {s : σ} {t : T} (ht : pending s = some t) :
    committed (p.runWith answer s).2 = committed s
      ∧ ∃ t', pending (p.runWith answer s).2 = some t'
        ∧ ((∀ e ∈ p.log answer s, e.IsCarried) →
          t' = afterChanges effect (changesIn (p.log answer s)) t) := by
  induction p generalizing s t with
  | done a => exact ⟨rfl, t, ht, fun _ => rfl⟩
  | ask q next ih =>
    obtain ⟨between, hbetween, hstep⟩ := h.step hp.1 ht
    obtain ⟨hcommitted, t', ht', hrest⟩ := ih (answer q s).1 (hp.2 _) hbetween
    refine ⟨hcommitted.trans (h.statement q s t hp.1 ht).1, t', ht', fun hall => ?_⟩
    obtain ⟨hfirst, hothers⟩ := List.forall_mem_cons.mp hall
    have hlog : changesIn (Work.log answer (.ask q next) s)
        = changesIn [⟨q, (answer q s).1⟩]
          ++ changesIn (Work.log answer (next (answer q s).1) (answer q s).2) :=
      changesIn_append [_] _
    rw [hrest hothers, hstep hfirst, hlog, afterChanges, afterChanges, afterChanges,
      List.foldl_append]

theorem documents_run (h : AllOrNothing answer committed pending effect documents) {p : Work α}
    (hp : p.Asks fun r => r.isDocumental = false) (s : σ) :
    documents (p.runWith answer s).2 = documents s :=
  (hp.imp fun r hr s => h.elsewhere r s hr).view_eq documents s

theorem committed_run (h : AllOrNothing answer committed pending effect documents) {p : Work α}
    (hp : p.Asks fun r => r.isDocumental = true) (s : σ) :
    committed (p.runWith answer s).2 = committed s :=
  (hp.imp fun r hr s => h.untouched r s hr).view_eq committed s

end AllOrNothing

/-- A database that keeps the changes themselves, beside a document store. -/
structure Ledger where
  committed : List Change := []
  pending : Option (List Change) := none
  documents : Store := {}

namespace Ledger

def carry (l : Ledger) (c : Change) : Ledger :=
  match l.pending with
  | some changes => { l with pending := some (changes ++ [c]) }
  | none => { l with committed := l.committed ++ [c] }

/-- Answers all requests; every change is carried out and touches one row. -/
def answer : (r : Request) → Ledger → r.Answer × Ledger
  | .begin, l => ((.ok () : Except Sql.SqlError Unit), { l with pending := some l.committed })
  | .commit, l => ((.ok () : Except Sql.SqlError Unit),
      { l with committed := l.pending.getD l.committed, pending := none })
  | .rollback, l => ((.ok () : Except Sql.SqlError Unit), { l with pending := none })
  | .change c, l => ((.ok ⟨1, none⟩ : Except Sql.SqlError Outcome), l.carry c)
  | .query _, l => ((.ok ⟨[], []⟩ : Except Sql.SqlError RawRows), l)
  | .identity _, l => ((1 : Int), l)
  | .openDocuments, l => ((.ok () : Except StoreError Unit), l)
  | .documents call, l =>
    ((l.documents.perform call).1, { l with documents := (l.documents.perform call).2 })
  | .cacheGet _, l => ((.ok none : Except CacheError (Option Json)), l)
  | .cachePut _ _ _, l => ((.ok () : Except CacheError Unit), l)

end Ledger

/-- The transactions of a ledger are all or nothing. -/
theorem allOrNothing_ledger : AllOrNothing Ledger.answer Ledger.committed Ledger.pending
    (fun c changes => changes ++ [c]) Ledger.documents where
  begun l after _ h := by
    obtain ⟨-, rfl⟩ := Prod.mk.inj h
    exact ⟨rfl, rfl⟩
  statement r l t hr ht := by
    cases r with
    | change c => simp [Ledger.answer, Ledger.carry, ht]
    | query q => exact ⟨rfl, t, ht⟩
    | identity node => exact ⟨rfl, t, ht⟩
    | _ => cases hr
  carried c outcome l after t ht h := by
    obtain ⟨-, rfl⟩ := Prod.mk.inj h
    simp [Ledger.carry, ht]
  kept r l hr hchange := by
    cases r with
    | change c => exact absurd rfl (hchange c)
    | query q => rfl
    | identity node => rfl
    | _ => cases hr
  commits l after t ht h := by
    obtain ⟨-, rfl⟩ := Prod.mk.inj h
    simp [ht]
  rollsBack l after t _ h := by
    obtain ⟨-, rfl⟩ := Prod.mk.inj h
    rfl
  elsewhere r l hr := by
    cases r with
    | change c =>
      simp only [Ledger.answer, Ledger.carry]
      split <;> rfl
    | openDocuments => rfl
    | documents call => cases hr
    | _ => rfl
  untouched r l hr := by
    cases r with
    | openDocuments => rfl
    | documents call => rfl
    | _ => cases hr

end DualStore.Relational
